import ClassXref.Proofs.Bytes.SelfDelimiting
import ClassXref.Proofs.Bytes.Text

/-! Calls on a cursor, one after the other, whether they succeed or not. A read goes on from where the cursor
stands; `seek` goes to any place of the buffer. The cursor never leaves the buffer, and a call that finds too few
bytes reports what it wants and leaves the cursor alone. The exception is a number of eight bytes, which is read
in two halves. That an offset fits in a machine word is not the subject here. -/
namespace ClassXref

open BigEndian (digits value capacity)
open ModifiedUtf8 (encode plain)

/-! ### Calls -/

/-- A call that reads on from where the cursor stands. -/
inductive Read where
  | u8
  | u16
  | u32
  | i32
  | u64
  | take (n : Nat)
  | utf8 (n : Nat)
  | skip (n : Nat)
  deriving Repr, DecidableEq, Inhabited

namespace Read

/-- What a read gives when it succeeds. -/
@[reducible]
def Value : Read → Type
  | u8 => UInt8
  | u16 => UInt16
  | u32 => UInt32
  | i32 => Int32
  | u64 => UInt64
  | take _ => List UInt8
  | utf8 _ => String
  | skip _ => Unit

def scan : (r : Read) → Scan r.Value
  | u8 => Scan.u8
  | u16 => Scan.u16
  | u32 => Scan.u32
  | i32 => Scan.i32
  | u64 => Scan.u64
  | take n => Scan.take n
  | utf8 n => Scan.utf8 n
  | skip n => Scan.skip n

/-- How many bytes a read that succeeds passes over. -/
def width : Read → Nat
  | u8 => 1
  | u16 => 2
  | u32 | i32 => 4
  | u64 => 8
  | take n | utf8 n | skip n => n

/-- The number that a run of bytes stands for in two's complement. -/
def signedValue (bytes : List UInt8) : Int :=
  if 2 * value bytes < capacity bytes.length then value bytes
  else value bytes - capacity bytes.length

/-- The bytes stand for the value. A text may stand in one of two encodings; bytes that are skipped may be any. -/
def Denotes : (r : Read) → List UInt8 → r.Value → Prop
  | u8, bytes, n => n.toNat = value bytes
  | u16, bytes, n => n.toNat = value bytes
  | u32, bytes, n => n.toNat = value bytes
  | i32, bytes, n => n.toInt = signedValue bytes
  | u64, bytes, n => n.toNat = value bytes
  | take _, bytes, found => found = bytes
  | utf8 _, bytes, found => bytes = encode found.toList ∨ bytes = plain found.toList
  | skip _, _, _ => True

end Read

/-- A call on a cursor. -/
inductive Call where
  | read (r : Read)
  | seek (place : Nat)
  deriving Repr, DecidableEq, Inhabited

namespace Call

@[reducible]
def Value : Call → Type
  | read r => r.Value
  | seek _ => Unit

def scan : (call : Call) → Scan call.Value
  | read r => r.scan
  | seek place => Scan.seek place

/-- Where a computation has left the cursor, also where it has failed. -/
def cursorOf {α : Type} : EStateM.Result Fault Cursor α → Cursor
  | .ok _ d => d
  | .error _ d => d

/-- Where the cursor stands after a call. -/
def after (call : Call) (c : Cursor) : Cursor :=
  cursorOf (call.scan c)

/-- Where the cursor stands after a run of calls, which a failure does not end. -/
def run (calls : List Call) (c : Cursor) : Cursor :=
  calls.foldl (fun c call => call.after c) c

/-- How many bytes behind the cursor the buffer must have for a call. -/
def needs (c : Cursor) : Call → Nat
  | read r => r.width
  | seek place => place - c.position

end Call

/-! ### What bytes stand for -/

namespace Read

variable {r : Read} {bytes : List UInt8} {a b : r.Value} {c d : Cursor}

theorem toInt_eq_signedValue {n : Int32} (hlength : bytes.length = 4)
    (h : n.toUInt32.toNat = value bytes) : n.toInt = signedValue bytes := by
  have hcapacity : capacity 4 = 4294967296 := rfl
  have hsigned : n.toInt = if 2 * n.toUInt32.toNat < 4294967296 then (n.toUInt32.toNat : Int)
      else n.toUInt32.toNat - 4294967296 := rfl
  rw [hsigned, signedValue, hlength, hcapacity, h]
  rfl

example : signedValue [0xFF, 0xFF, 0xFF, 0xFE] = -2 := by decide

/-- Every run of bytes as wide as a number is some number. -/
theorem exists_denotes (hlength : bytes.length = r.width) (htext : ∀ n, r ≠ utf8 n) :
    ∃ a, r.Denotes bytes a := by
  have hvalue := BigEndian.value_lt bytes
  rw [hlength] at hvalue
  cases r with
  | u8 => exact ⟨UInt8.ofNat (value bytes), UInt8.toNat_ofNat_of_lt' hvalue⟩
  | u16 => exact ⟨UInt16.ofNat (value bytes), UInt16.toNat_ofNat_of_lt' hvalue⟩
  | u32 => exact ⟨UInt32.ofNat (value bytes), UInt32.toNat_ofNat_of_lt' hvalue⟩
  | i32 =>
    refine ⟨(UInt32.ofNat (value bytes)).toInt32, toInt_eq_signedValue hlength ?_⟩
    exact UInt32.toNat_ofNat_of_lt' hvalue
  | u64 => exact ⟨UInt64.ofNat (value bytes), UInt64.toNat_ofNat_of_lt' hvalue⟩
  | take n => exact ⟨bytes, rfl⟩
  | utf8 n => exact absurd rfl (htext n)
  | skip n => exact ⟨(), trivial⟩

/-- Bytes stand for one value at most. -/
theorem denotes_unique (h : r.Denotes bytes a) (h' : r.Denotes bytes b) : a = b := by
  cases r with
  | u8 => exact UInt8.toNat_inj.mp (h.trans h'.symm)
  | u16 => exact UInt16.toNat_inj.mp (h.trans h'.symm)
  | u32 => exact UInt32.toNat_inj.mp (h.trans h'.symm)
  | i32 => exact Int32.toInt_inj.mp (h.trans h'.symm)
  | u64 => exact UInt64.toNat_inj.mp (h.trans h'.symm)
  | take n => exact h.trans h'.symm
  | utf8 n =>
    exact Option.some.inj ((ModifiedUtf8.decode?_eq_some_iff.mpr h).symm.trans
      (ModifiedUtf8.decode?_eq_some_iff.mpr h'))
  | skip n => rfl

/-! ### What a read does -/

theorem digits_of_value {width n : Nat} (hlength : bytes.length = width) (h : n = value bytes) :
    digits width n = bytes := by
  rw [h, ← hlength, BigEndian.digits_value]

/-- Where bytes that stand for a value come next, the read gives it. -/
theorem reads_of_denotes (hlength : bytes.length = r.width) (h : r.Denotes bytes a) :
    Scan.Reads r.scan bytes a := by
  cases r with
  | u8 =>
    have hone : digits 1 a.toNat = [a] := by simp [digits]
    rw [← digits_of_value hlength h]
    exact hone ▸ Scan.reads_u8 a
  | u16 =>
    rw [← digits_of_value hlength h]
    exact Scan.reads_u16 a
  | u32 =>
    rw [← digits_of_value hlength h]
    exact Scan.reads_u32 a
  | i32 =>
    have hvalue := BigEndian.value_lt bytes
    rw [hlength] at hvalue
    have hn : (UInt32.ofNat (value bytes)).toNat = value bytes := UInt32.toNat_ofNat_of_lt' hvalue
    have hdigits : digits 4 (UInt32.ofNat (value bytes)).toNat = bytes := digits_of_value hlength hn
    have ha : a = (UInt32.ofNat (value bytes)).toInt32 :=
      denotes_unique h (toInt_eq_signedValue hlength hn)
    have hread := Scan.reads_i32 (UInt32.ofNat (value bytes)).toInt32
    rw [UInt32.toUInt32_toInt32, hdigits] at hread
    rw [ha]
    exact hread
  | u64 =>
    rw [← digits_of_value hlength h]
    exact Scan.reads_u64 a
  | take n =>
    have ha : a = bytes := h
    obtain rfl : bytes.length = n := hlength
    rw [ha]
    exact Scan.reads_take bytes
  | utf8 n =>
    obtain rfl : bytes.length = n := hlength
    exact Scan.reads_utf8_of_decode? (ModifiedUtf8.decode?_eq_some_iff.mpr h)
  | skip n =>
    obtain rfl : bytes.length = n := hlength
    intro c tail hc
    exact Scan.skip_eq_ok (Scan.length_le_remaining hc)

theorem length_take_rest (h : r.width ≤ c.remaining) : (c.rest.take r.width).length = r.width := by
  rw [List.length_take, Cursor.length_rest, Nat.min_eq_left h]

theorem scan_of_denotes (h : r.width ≤ c.remaining) (ha : r.Denotes (c.rest.take r.width) a) :
    r.scan c = .ok a (c.advance r.width) := by
  have hread := reads_of_denotes (length_take_rest h) ha c _ (List.take_append_drop r.width c.rest).symm
  rwa [length_take_rest h] at hread

/-- Bytes that are there and stand for nothing are no text, and are passed over. -/
theorem scan_of_not_denotes (h : r.width ≤ c.remaining)
    (hnone : ∀ a, ¬ r.Denotes (c.rest.take r.width) a) :
    r.scan c = .error (.malformed (.invalidUtf8 c.position)) (c.advance r.width) := by
  obtain ⟨n, rfl⟩ : ∃ n, r = utf8 n := by
    refine Classical.byContradiction fun hne => ?_
    obtain ⟨a, ha⟩ := exists_denotes (length_take_rest h) (not_exists.mp hne)
    exact hnone a ha
  have hlength : (c.rest.take n).length = n := length_take_rest h
  have hdecode : ModifiedUtf8.decode? (c.rest.take n) = none := by
    refine Option.eq_none_iff_forall_ne_some.mpr fun found hfound => ?_
    exact hnone found (ModifiedUtf8.decode?_eq_some_iff.mp hfound)
  have hrefused := Scan.refusesText_of_decode? hdecode c _ (List.take_append_drop n c.rest).symm
  rw [hlength] at hrefused
  exact hrefused

/-- A read that finds too few bytes reports its width and stays. -/
theorem scan_of_lt (h : c.remaining < r.width) (hne : r ≠ u64) :
    r.scan c = .error (.truncated c.position r.width c.remaining) c := by
  cases r with
  | u8 | u16 | u32 => exact Stateful.bind_error (Scan.take_eq_error h)
  | i32 => exact Stateful.bind_error (Stateful.bind_error (Scan.take_eq_error h))
  | u64 => exact absurd rfl hne
  | take n => exact Scan.take_eq_error h
  | utf8 n => exact Scan.position_bind.trans (Stateful.bind_error (Scan.take_eq_error h))
  | skip n => exact Scan.skip_eq_error h

/-- A number of eight bytes is given up before the half that is not there. -/
theorem u64_of_lt (h : c.remaining < 8) (hd : d = if c.remaining < 4 then c else c.advance 4) :
    Scan.u64 c = .error (.truncated d.position 4 d.remaining) d := by
  have hhalf : ∀ {e : Cursor}, e.remaining < 4 →
      Scan.u32 e = .error (.truncated e.position 4 e.remaining) e :=
    fun he => scan_of_lt (r := u32) he (by decide)
  by_cases hfirst : c.remaining < 4
  · rw [hd, if_pos hfirst]
    exact Stateful.bind_error (hhalf hfirst)
  · -- The first half is there and stays read; the report is that of the second half.
    have hsecond : (c.advance 4).remaining < 4 := by
      simp only [Cursor.remaining, Cursor.advance] at h hfirst ⊢
      omega
    have hthere : u32.width ≤ c.remaining := Nat.not_lt.mp hfirst
    obtain ⟨high, hhigh⟩ := exists_denotes (length_take_rest hthere) (fun _ => Read.noConfusion)
    rw [hd, if_neg hfirst]
    exact (Stateful.bind_ok (scan_of_denotes hthere hhigh)).trans
      (Stateful.bind_error (hhalf hsecond))

/-! ### How a read ends -/

/-- How a read from a place can end. -/
inductive Outcome (r : Read) (c : Cursor) : EStateM.Result Fault Cursor r.Value → Prop where
  | gives (a : r.Value) (hlong : r.width ≤ c.remaining) (ha : r.Denotes (c.rest.take r.width) a) :
      Outcome r c (.ok a (c.advance r.width))
  | refuses (hlong : r.width ≤ c.remaining) :
      Outcome r c (.error (.malformed (.invalidUtf8 c.position)) (c.advance r.width))
  | stays (hshort : c.remaining < r.width) (hne : r ≠ u64) :
      Outcome r c (.error (.truncated c.position r.width c.remaining) c)
  | halves (d : Cursor) (hr : r = u64) (hshort : c.remaining < 8)
      (hd : d = if c.remaining < 4 then c else c.advance 4) :
      Outcome r c (.error (.truncated d.position 4 d.remaining) d)

theorem outcome (r : Read) (c : Cursor) : r.Outcome c (r.scan c) := by
  rcases Nat.lt_or_ge c.remaining r.width with hshort | hlong
  · by_cases hne : r = u64
    · subst hne
      have hhalf : u64.scan c = _ := u64_of_lt hshort rfl
      rw [hhalf]
      exact .halves _ rfl hshort rfl
    · rw [scan_of_lt hshort hne]
      exact .stays hshort hne
  · by_cases hvalue : ∃ a, r.Denotes (c.rest.take r.width) a
    · obtain ⟨a, ha⟩ := hvalue
      rw [scan_of_denotes hlong ha]
      exact .gives a hlong ha
    · rw [scan_of_not_denotes hlong (not_exists.mp hvalue)]
      exact .refuses hlong

/-- However a read ends, it has not gone behind the end of the buffer. -/
theorem Outcome.exists_advance {result : EStateM.Result Fault Cursor r.Value}
    (h : r.Outcome c result) : ∃ n, n ≤ c.remaining ∧ Call.cursorOf result = c.advance n := by
  cases h with
  | gives a hlong _ => exact ⟨r.width, hlong, rfl⟩
  | refuses hlong => exact ⟨r.width, hlong, rfl⟩
  | stays _ _ => exact ⟨0, Nat.zero_le _, rfl⟩
  | halves d _ _ hd =>
    by_cases hfirst : c.remaining < 4
    · rw [if_pos hfirst] at hd
      exact ⟨0, Nat.zero_le _, hd⟩
    · rw [if_neg hfirst] at hd
      exact ⟨4, Nat.not_lt.mp hfirst, hd⟩

/-- A read succeeds just where there are enough bytes and they stand for a value. It gives that value and passes
over its width. -/
theorem scan_eq_ok_iff :
    r.scan c = .ok a d ↔
      r.width ≤ c.remaining ∧ r.Denotes (c.rest.take r.width) a ∧ d = c.advance r.width := by
  constructor
  · intro hok
    have h := hok ▸ r.outcome c
    cases h with
    | gives _ hlong ha => exact ⟨hlong, ha, rfl⟩
  · rintro ⟨hlong, ha, rfl⟩
    exact scan_of_denotes hlong ha

/-- Whatever bytes there are, a read of anything but a text is content with them. -/
theorem exists_scan_eq_ok_iff (htext : ∀ n, r ≠ utf8 n) :
    (∃ a d, r.scan c = .ok a d) ↔ r.width ≤ c.remaining := by
  constructor
  · rintro ⟨a, d, hok⟩
    exact (scan_eq_ok_iff.mp hok).1
  · intro hlong
    obtain ⟨a, ha⟩ := exists_denotes (length_take_rest hlong) htext
    exact ⟨a, c.advance r.width, scan_of_denotes hlong ha⟩

end Read

namespace Call

variable {call : Call} {c d : Cursor} {offset needed left : Nat}

/-! ### The place of the cursor -/

theorem seek_eq_ok_iff {place : Nat} :
    Scan.seek place c = .ok () d ↔ place ≤ c.data.size ∧ d = { c with position := place } := by
  constructor
  · intro hok
    by_cases hplace : place ≤ c.data.size
    · cases hok.symm.trans (Scan.seek_eq_ok hplace)
      exact ⟨hplace, rfl⟩
    · cases hok.symm.trans (Scan.seek_eq_error (Nat.not_le.mp hplace))
  · rintro ⟨hplace, rfl⟩
    exact Scan.seek_eq_ok hplace

/-- The cursor is in the buffer, at its end at most. -/
def Inside (data : ByteArray) (c : Cursor) : Prop :=
  c.data = data ∧ c.position ≤ data.size

theorem inside_after {data : ByteArray} (call : Call) (h : Inside data c) :
    Inside data (call.after c) := by
  obtain ⟨rfl, hplace⟩ := h
  cases call with
  | read r =>
    obtain ⟨n, hn, hafter⟩ := (r.outcome c).exists_advance
    have hread : (read r).after c = c.advance n := hafter
    rw [hread]
    refine ⟨rfl, ?_⟩
    rw [Cursor.remaining] at hn
    rw [Cursor.position_advance]
    omega
  | seek place =>
    by_cases hseek : place ≤ c.data.size
    · have hafter : (seek place).after c = ⟨c.data, place⟩ := congrArg cursorOf (Scan.seek_eq_ok hseek)
      rw [hafter]
      exact ⟨rfl, hseek⟩
    · have hafter : (seek place).after c = c :=
        congrArg cursorOf (Scan.seek_eq_error (Nat.not_le.mp hseek))
      rw [hafter]
      exact ⟨rfl, hplace⟩

theorem inside_run {data : ByteArray} (calls : List Call) (h : Inside data c) :
    Inside data (run calls c) := by
  induction calls generalizing c with
  | nil => exact h
  | cons call calls ih => exact ih (inside_after call h)

theorem inside_run_opened (data : ByteArray) (calls : List Call) :
    Inside data (run calls { data }) :=
  inside_run calls ⟨rfl, Nat.zero_le _⟩

/-! ### Reports of wanting bytes -/

/-- A report as a call makes it that reads all or nothing: the cursor stays, and the report speaks of the place
where the call began and of all the bytes that it needs. -/
structure ReportsWhole (call : Call) (c : Cursor) (offset needed left : Nat) (d : Cursor) : Prop where
  stays : d = c
  offset_eq : offset = c.position
  needed_eq : needed = call.needs c
  left_eq : left = c.remaining

theorem scan_truncated_iff {data : ByteArray} (h : Inside data c) (hne : call ≠ read .u64) :
    call.scan c = .error (.truncated offset needed left) d ↔
      c.remaining < call.needs c ∧ call.ReportsWhole c offset needed left d := by
  cases call with
  | read r =>
    have hr : r ≠ .u64 := fun hr => hne (congrArg read hr)
    constructor
    · intro herror
      have houtcome : r.Outcome c (.error (.truncated offset needed left) d) := herror ▸ r.outcome c
      cases houtcome with
      | stays hshort _ => exact ⟨hshort, rfl, rfl, rfl, rfl⟩
      | halves _ hr' _ _ => exact absurd hr' hr
    · rintro ⟨hshort, rfl, rfl, rfl, rfl⟩
      exact Read.scan_of_lt hshort hr
  | seek place =>
    obtain ⟨rfl, hplace⟩ := h
    -- The target lies behind the buffer just if it is further off than the end.
    have hbehind : c.remaining < (seek place).needs c ↔ c.data.size < place := by
      simp only [needs, Cursor.remaining]
      omega
    constructor
    · intro herror
      by_cases hseek : place ≤ c.data.size
      · cases herror.symm.trans (Scan.seek_eq_ok hseek)
      · have hlt := Nat.not_le.mp hseek
        cases herror.symm.trans (Scan.seek_eq_error hlt)
        exact ⟨hbehind.mpr hlt, rfl, rfl, rfl, rfl⟩
    · rintro ⟨hshort, rfl, rfl, rfl, rfl⟩
      exact Scan.seek_eq_error (hbehind.mp hshort)

theorem u64_truncated_iff :
    Scan.u64 c = .error (.truncated offset needed left) d ↔
      c.remaining < 8 ∧ (d = if c.remaining < 4 then c else c.advance 4) ∧
        offset = d.position ∧ needed = 4 ∧ left = d.remaining := by
  constructor
  · intro herror
    have houtcome : Read.u64.Outcome c (.error (.truncated offset needed left) d) :=
      herror ▸ Read.u64.outcome c
    cases houtcome with
    | stays _ hne => exact absurd rfl hne
    | halves _ _ hshort hd => exact ⟨hshort, hd, rfl, rfl, rfl⟩
  · rintro ⟨hshort, hd, rfl, rfl, rfl⟩
    exact Read.u64_of_lt hshort hd

/-- How the calls from a place report that bytes are wanting. -/
structure Reports (c : Cursor) : Prop where
  /-- A call that is not in halves reports just when it needs more bytes than there are, and all or nothing. -/
  whole (call : Call) (hne : call ≠ read .u64) (offset needed left : Nat) (d : Cursor) :
    call.scan c = .error (.truncated offset needed left) d ↔
      c.remaining < call.needs c ∧ call.ReportsWhole c offset needed left d
  /-- A number of eight bytes is reported by the half that is cut, with the half before it passed over. -/
  halves (offset needed left : Nat) (d : Cursor) :
    Scan.u64 c = .error (.truncated offset needed left) d ↔
      c.remaining < 8 ∧ (d = if c.remaining < 4 then c else c.advance 4) ∧
        offset = d.position ∧ needed = 4 ∧ left = d.remaining

/-- After any calls on a buffer, a call that finds too few bytes leaves the cursor where it is and reports its
place, all the bytes that it needs and those that are left, but for numbers of eight bytes. -/
theorem reports_run (data : ByteArray) (calls : List Call) : Reports (run calls { data }) where
  whole _ hne _ _ _ _ := scan_truncated_iff (inside_run_opened data calls) hne
  halves _ _ _ _ := u64_truncated_iff

/-- Of a number of eight bytes the first four are passed over when the others are cut, and four bytes are said to
be wanting instead of eight. -/
theorem u64_reports_half :
    Scan.u64 { data := ⟨#[1, 2, 3, 4, 5]⟩ } =
      .error (.truncated 4 4 1) { data := ⟨#[1, 2, 3, 4, 5]⟩, position := 4 } ∧
    Scan.u64 { data := ⟨#[1, 2, 3]⟩ } = .error (.truncated 0 4 3) { data := ⟨#[1, 2, 3]⟩ } ∧
    ¬ ∀ (data : ByteArray) (calls : List Call) (call : Call) (offset needed left : Nat) (d : Cursor),
      call.scan (run calls { data }) = .error (.truncated offset needed left) d →
        call.ReportsWhole (run calls { data }) offset needed left d := by
  have hhalf : (read .u64).scan (run [] { data := ⟨#[1, 2, 3, 4, 5]⟩ }) =
      .error (.truncated 4 4 1) { data := ⟨#[1, 2, 3, 4, 5]⟩, position := 4 } := rfl
  refine ⟨hhalf, rfl, fun hall => ?_⟩
  exact absurd (hall _ _ _ _ _ _ _ hhalf).needed_eq (by decide)

end Call
end ClassXref
