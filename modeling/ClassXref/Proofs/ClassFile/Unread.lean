import Mathlib
import ClassXref.ClassFile.References
import ClassXref.Proofs.Bytes.SelfDelimiting
import ClassXref.Proofs.ClassFile.Medium
import ClassXref.Proofs.ClassFile.RoundTrip

/-! The bytes of a class file that nobody looks at. A survey reads like the plain reader and notes, at
the end of each attribute, the span from where the reader of its body stopped up to the declared end:
the whole body of an attribute that is not interpreted, and the slack of one that is. The main statement
is about two buffers: whatever stands in a span, in a file that is accepted or not, the result is the
same, and so are the spans and the reports of a visit. -/
namespace ClassXref

/-- The bytes from one offset up to another. -/
structure Span where
  start : Nat
  stop : Nat
  deriving Repr, DecidableEq, Inhabited

def Span.Covers (span : Span) (i : Nat) : Prop := span.start ≤ i ∧ i < span.stop

/-! ### The survey -/

/-- A cursor and the spans that have been passed over so far. -/
structure SurveyState where
  cursor : Cursor
  passed : List Span

/-- A scan that keeps a list of the spans it passes over. -/
abbrev Survey := EStateM Fault SurveyState

namespace Survey

variable {α β : Type}

/-- Reads as the plain reader does. -/
def read (scan : Scan α) : Survey α := fun s =>
  match scan s.cursor with
  | .ok a c => .ok a { s with cursor := c }
  | .error e c => .error e { s with cursor := c }

def note (span : Span) : Survey Unit :=
  modify fun s => { s with passed := s.passed ++ [span] }

/-- Goes on at the end of an attribute, and notes what has been passed over on the way. -/
def leave (name : String) (length : UInt32) (stop : Nat) : Survey Unit := do
  let reached ← read Scan.position
  read (Scan.leave name length stop)
  note ⟨reached, stop⟩

instance : Medium Survey where
  fail e := throw e
  u8 := read Scan.u8
  u16 := read Scan.u16
  u32 := read Scan.u32
  take n := read (Scan.take n)
  position := read Scan.position
  remaining := read Scan.remaining
  slot _ := return ()
  enter length := read (Scan.enter length)
  leave := leave

/-- The result of reading a class file from a buffer, and the spans that were passed over. -/
def run (data : ByteArray) : Except Fault ClassFile × List Span :=
  match (Medium.classFile : Survey ClassFile) ⟨{ data }, []⟩ with
  | .ok file s => (.ok file, s.passed)
  | .error e s => (.error e, s.passed)

end Survey

/-- The spans of a buffer that are passed over until the class file is read or refused. -/
def ClassFile.passedOver (data : ByteArray) : List Span :=
  (Survey.run data).2

/-! ### Buffers that differ in spans only -/

/-- `other` has the bytes of `data` from `start` up to `stop`, but for those in the spans. -/
structure SameOutside (spans : List Span) (start stop : Nat) (data other : ByteArray) : Prop where
  size : other.size = data.size
  bytes : ∀ i, start ≤ i → i < stop → (∀ span ∈ spans, ¬ span.Covers i) →
    other.data.toList[i]? = data.data.toList[i]?

/-- A way forward in a buffer on which these spans lie. -/
structure Passage (data : ByteArray) (start stop : Nat) (spans : List Span) : Prop where
  forward : start ≤ stop
  inside : start ≤ data.size → stop ≤ data.size
  spans : ∀ span ∈ spans, start ≤ span.start ∧ span.start ≤ span.stop ∧ span.stop ≤ stop

variable {data other : ByteArray} {start middle stop : Nat} {front back : List Span}

theorem Passage.refl (data : ByteArray) (start : Nat) : Passage data start start [] :=
  ⟨Nat.le_refl start, id, by simp⟩

theorem Passage.trans (h : Passage data start middle front) (h' : Passage data middle stop back) :
    Passage data start stop (front ++ back) where
  forward := Nat.le_trans h.forward h'.forward
  inside hstart := h'.inside (h.inside hstart)
  spans := by
    intro span hspan
    rcases List.mem_append.mp hspan with hfront | hback
    · obtain ⟨hstart, horder, hstop⟩ := h.spans span hfront
      exact ⟨hstart, horder, Nat.le_trans hstop h'.forward⟩
    · obtain ⟨hstart, horder, hstop⟩ := h'.spans span hback
      exact ⟨Nat.le_trans h.forward hstart, horder, hstop⟩

/-- The spans of the rest of the way lie behind its first part. -/
theorem SameOutside.first (h : SameOutside (front ++ back) start stop data other)
    (hback : Passage data middle stop back) : SameOutside front start middle data other where
  size := h.size
  bytes := by
    intro i hstart hmiddle hfront
    apply h.bytes i hstart (Nat.lt_of_lt_of_le hmiddle hback.forward)
    intro span hspan hcovers
    rcases List.mem_append.mp hspan with hin | hin
    · exact hfront span hin hcovers
    · have hlater := (hback.spans span hin).1
      have hearlier := hcovers.1
      omega

/-- The spans of the first part of the way lie before the rest. -/
theorem SameOutside.second (h : SameOutside (front ++ back) start stop data other)
    (hfront : Passage data start middle front) : SameOutside back middle stop data other where
  size := h.size
  bytes := by
    intro i hmiddle hstop hback
    apply h.bytes i (Nat.le_trans hfront.forward hmiddle) hstop
    intro span hspan hcovers
    rcases List.mem_append.mp hspan with hin | hin
    · have hearlier := (hfront.spans span hin).2.2
      have hlater := hcovers.2
      omega
    · exact hback span hin hcovers

/-! ### The survey follows the plain reader -/

open BigEndian (digits)

namespace Survey

variable {α β : Type}

/-- From everywhere in every buffer the survey ends as the scan does, and it ends so in all buffers
that differ only in the spans which it notes on the way. -/
def Follows (x : Survey α) (s : Scan α) : Prop :=
  ∀ (data : ByteArray) (start : Nat), ∃ (verdict : Except Fault α) (stop : Nat) (spans : List Span),
    Passage data start stop spans ∧
      s ⟨data, start⟩ = (liftM verdict : Scan α) ⟨data, stop⟩ ∧
      ∀ other, SameOutside spans start stop data other → ∀ passed,
        x ⟨⟨other, start⟩, passed⟩ =
          (liftM verdict : Survey α) ⟨⟨other, stop⟩, passed ++ spans⟩

/-- What neither moves nor looks at bytes. -/
theorem follows_still {x : Survey α} {s : Scan α}
    (h : ∀ (data : ByteArray) (start : Nat), ∃ verdict : Except Fault α,
      s ⟨data, start⟩ = (liftM verdict : Scan α) ⟨data, start⟩ ∧
        ∀ other : ByteArray, other.size = data.size → ∀ passed,
          x ⟨⟨other, start⟩, passed⟩ = (liftM verdict : Survey α) ⟨⟨other, start⟩, passed⟩) :
    Follows x s := by
  intro data start
  obtain ⟨verdict, hscan, hsurvey⟩ := h data start
  refine ⟨verdict, start, [], .refl data start, hscan, ?_⟩
  intro other hsame passed
  rw [List.append_nil]
  exact hsurvey other hsame.size passed

theorem follows_pure (a : α) : Follows (pure a) (pure a) := by
  apply follows_still
  intro data start
  exact ⟨.ok a, rfl, fun _ _ _ => rfl⟩

theorem follows_fail (e : Fault) : Follows (throw e : Survey α) (throw e) := by
  apply follows_still
  intro data start
  exact ⟨.error e, rfl, fun _ _ _ => rfl⟩

theorem follows_bind {x : Survey α} {s : Scan α} {f : α → Survey β} {g : α → Scan β}
    (h : Follows x s) (h' : ∀ a, Follows (f a) (g a)) : Follows (x >>= f) (s >>= g) := by
  intro data start
  obtain ⟨verdict, middle, front, hpassage, hscan, hsurvey⟩ := h data start
  cases verdict with
  | error e =>
    refine ⟨.error e, middle, front, hpassage, Stateful.bind_error hscan, ?_⟩
    intro other hsame passed
    exact Stateful.bind_error (hsurvey other hsame passed)
  | ok a =>
    obtain ⟨verdict, stop, back, hpassage', hscan', hsurvey'⟩ := h' a data middle
    refine ⟨verdict, stop, front ++ back, hpassage.trans hpassage', ?_, ?_⟩
    · rw [Stateful.bind_ok hscan]
      exact hscan'
    · intro other hsame passed
      rw [Stateful.bind_ok (hsurvey other (hsame.first hpassage') passed),
        hsurvey' other (hsame.second hpassage) (passed ++ front), List.append_assoc]

/-! ### Provisions of the survey -/

theorem read_of_ok {scan : Scan α} {c d : Cursor} {a : α} (h : scan c = .ok a d)
    (passed : List Span) : read scan ⟨c, passed⟩ = .ok a ⟨d, passed⟩ := by
  rw [read, h]

theorem read_of_error {scan : Scan α} {c d : Cursor} {e : Fault} (h : scan c = .error e d)
    (passed : List Span) : read scan ⟨c, passed⟩ = .error e ⟨d, passed⟩ := by
  rw [read, h]

theorem read_of_eq {scan : Scan α} {verdict : Except Fault α} {c d : Cursor}
    (h : scan c = (liftM verdict : Scan α) d) (passed : List Span) :
    read scan ⟨c, passed⟩ = (liftM verdict : Survey α) ⟨d, passed⟩ := by
  cases verdict with
  | ok a => exact read_of_ok h passed
  | error e => exact read_of_error h passed

/-- A scan that stays where it is, and whose result depends on the size of the buffer alone. -/
theorem follows_read_still {scan : Scan α}
    (h : ∀ (data : ByteArray) (start : Nat), ∃ verdict : Except Fault α,
      ∀ other : ByteArray, other.size = data.size →
        scan ⟨other, start⟩ = (liftM verdict : Scan α) ⟨other, start⟩) :
    Follows (read scan) scan := by
  apply follows_still
  intro data start
  obtain ⟨verdict, hscan⟩ := h data start
  exact ⟨verdict, hscan data rfl, fun other hsize passed => read_of_eq (hscan other hsize) passed⟩

theorem follows_position : Follows (read Scan.position) Scan.position := by
  apply follows_read_still
  intro data start
  exact ⟨.ok start, fun _ _ => rfl⟩

theorem follows_remaining : Follows (read Scan.remaining) Scan.remaining := by
  apply follows_read_still
  intro data start
  refine ⟨.ok (data.size - start), fun other hsize => ?_⟩
  rw [← hsize]
  rfl

theorem follows_enter (length : UInt32) : Follows (read (Scan.enter length)) (Scan.enter length) := by
  apply follows_read_still
  intro data start
  by_cases hshort : data.size - start < length.toNat
  · refine ⟨.error (.truncated start length.toNat (data.size - start)), fun other hsize => ?_⟩
    rw [← hsize] at hshort ⊢
    exact Scan.enter_of_lt (c := ⟨other, start⟩) hshort
  · refine ⟨.ok (start + length.toNat), fun other hsize => ?_⟩
    rw [← hsize] at hshort
    exact Scan.enter_of_not_lt (c := ⟨other, start⟩) hshort

theorem peek_eq_of_same {data other : ByteArray} {start n : Nat}
    (h : SameOutside [] start (start + n) data other) :
    Cursor.peek ⟨other, start⟩ n = Cursor.peek ⟨data, start⟩ n := by
  rw [Cursor.peek_eq_take_rest, Cursor.peek_eq_take_rest]
  apply List.ext_getElem?
  intro i
  rw [List.getElem?_take, List.getElem?_take]
  by_cases hi : i < n
  · rw [if_pos hi, if_pos hi, Cursor.rest, Cursor.rest, List.getElem?_drop, List.getElem?_drop]
    exact h.bytes (start + i) (by omega) (by omega) (by simp)
  · rw [if_neg hi, if_neg hi]

theorem follows_take (n : Nat) : Follows (read (Scan.take n)) (Scan.take n) := by
  intro data start
  by_cases hlong : n ≤ data.size - start
  · refine ⟨.ok (Cursor.peek ⟨data, start⟩ n), start + n, [], ⟨?_, ?_, by simp⟩,
      Scan.take_eq_ok hlong, ?_⟩
    · exact Nat.le_add_right start n
    · intro hinside
      omega
    · intro other hsame passed
      have hother : Scan.take n ⟨other, start⟩ = .ok (Cursor.peek ⟨data, start⟩ n) ⟨other, start + n⟩ := by
        rw [← peek_eq_of_same hsame]
        refine Scan.take_eq_ok ?_
        rw [Cursor.remaining, hsame.size]
        exact hlong
      rw [List.append_nil]
      exact read_of_eq hother passed
  · have hshort : data.size - start < n := Nat.not_le.mp hlong
    refine ⟨.error (.truncated start n (data.size - start)), start, [], .refl data start,
      Scan.take_eq_error hshort, ?_⟩
    intro other hsame passed
    rw [List.append_nil]
    refine read_of_eq ?_ passed
    rw [← hsame.size] at hshort ⊢
    exact Scan.take_eq_error (c := ⟨other, start⟩) hshort

theorem read_map (scan : Scan α) (f : α → β) :
    read (do return f (← scan)) = (do return f (← read scan) : Survey β) := by
  funext s
  simp only [read, bind, EStateM.bind]
  cases scan s.cursor <;> rfl

theorem follows_map {scan : Scan α} (h : Follows (read scan) scan) (f : α → β) :
    Follows (read (do return f (← scan))) (do return f (← scan)) := by
  rw [read_map]
  exact follows_bind h fun a => follows_pure (f a)

section Leave

variable {name : String} {length : UInt32} {stop : Nat} {c d : Cursor} {e : Fault}

theorem leave_of_ok (h : Scan.leave name length stop c = .ok () d) (passed : List Span) :
    leave name length stop ⟨c, passed⟩ = .ok () ⟨d, passed ++ [⟨c.position, stop⟩]⟩ := by
  have hreached : read Scan.position ⟨c, passed⟩ = .ok c.position ⟨c, passed⟩ := rfl
  rw [leave, Stateful.bind_ok hreached, Stateful.bind_ok (read_of_ok h passed)]
  rfl

theorem leave_of_error (h : Scan.leave name length stop c = .error e d) (passed : List Span) :
    leave name length stop ⟨c, passed⟩ = .error e ⟨d, passed⟩ := by
  have hreached : read Scan.position ⟨c, passed⟩ = .ok c.position ⟨c, passed⟩ := rfl
  rw [leave, Stateful.bind_ok hreached, Stateful.bind_error (read_of_error h passed)]

end Leave

/-- What lies between the last byte of a body that was looked at and the end of the attribute is a span
of its own, so no byte of it is needed. -/
theorem follows_leave (name : String) (length : UInt32) (stop : Nat) :
    Follows (leave name length stop) (Scan.leave name length stop) := by
  intro data start
  by_cases hover : stop < start
  · refine ⟨.error (.malformed (.attributeOverrun name length)), start, [],
      .refl data start, Scan.leave_of_lt hover, ?_⟩
    intro other _ passed
    rw [List.append_nil]
    exact leave_of_error (Scan.leave_of_lt hover) passed
  · by_cases hinside : stop ≤ data.size
    · refine ⟨.ok (), stop, [⟨start, stop⟩], ⟨Nat.not_lt.mp hover, fun _ => hinside, ?_⟩, ?_, ?_⟩
      · intro span hspan
        rw [List.mem_singleton] at hspan
        subst hspan
        exact ⟨Nat.le_refl start, Nat.not_lt.mp hover, Nat.le_refl stop⟩
      · rw [Scan.leave_of_not_lt hover]
        exact Scan.seek_eq_ok hinside
      · intro other hsame passed
        have hother : stop ≤ other.size := by
          rw [hsame.size]
          exact hinside
        have hscan : Scan.leave name length stop ⟨other, start⟩ = .ok () ⟨other, stop⟩ := by
          rw [Scan.leave_of_not_lt hover]
          exact Scan.seek_eq_ok hother
        exact leave_of_ok hscan passed
    · have hseek : ∀ other : ByteArray, other.size = data.size →
          Scan.leave name length stop ⟨other, start⟩ =
            .error (.truncated start (stop - start) (data.size - start)) ⟨other, start⟩ := by
        intro other hsize
        rw [← hsize] at hinside ⊢
        rw [Scan.leave_of_not_lt hover]
        exact Scan.seek_eq_error (Nat.not_le.mp hinside)
      refine ⟨.error (.truncated start (stop - start) (data.size - start)), start, [],
        .refl data start, hseek data rfl, ?_⟩
      intro other hsame passed
      rw [List.append_nil]
      exact leave_of_error (hseek other hsame.size) passed

/-- An attribute adds one span to those that its reader has noted within the body: from where that
reader stopped up to the declared end. -/
theorem readAttribute_laid_out {σ : Type} {pool : Pool} {body : String → σ → Survey σ} {name : UInt16}
    {found : String} {front back tail : List UInt8} {state next : σ} {c : Cursor}
    {passed inner : List Span} (hname : pool.utf8 name = .ok found)
    (hlength : FitsLength (front ++ back).length)
    (hrest : c.rest = encodeAttribute name (front ++ back) ++ tail)
    (hbody : body found state ⟨c.advance 6, passed⟩ =
      .ok next ⟨c.advance (6 + front.length), inner⟩) :
    (Medium.readAttribute pool body state : Survey σ) ⟨c, passed⟩ =
      .ok next ⟨c.advance (6 + (front ++ back).length), inner ++
        [⟨c.position + 6 + front.length, c.position + 6 + (front ++ back).length⟩]⟩ := by
  have hindex : c.rest = encodeIndex name ++ (digits 4 (front ++ back).length ++
      (front ++ back ++ tail)) := by
    simpa only [encodeAttribute, List.append_assoc] using hrest
  have hcount : (c.advance 2).rest = digits 4 (front ++ back).length ++ (front ++ back ++ tail) :=
    Scan.rest_advance_append hindex
  have hcontent : (c.advance 6).rest = front ++ back ++ tail := Scan.rest_advance_append hcount
  have hsize := UInt32.toNat_ofNat_of_lt' hlength
  have hlong := Scan.length_le_remaining hcontent
  have hhere : c.position + 6 ≤ c.data.size := by
    have hsix := Scan.length_le_remaining hrest
    simp only [encodeAttribute, encodeIndex, List.length_append, BigEndian.length_digits,
      Cursor.remaining] at hsix
    omega
  have htext : (Medium.text pool : Survey String) ⟨c, passed⟩ = .ok found ⟨c.advance 2, passed⟩ := by
    have hu16 : (Medium.u16 : Survey UInt16) ⟨c, passed⟩ = .ok name ⟨c.advance 2, passed⟩ :=
      read_of_ok (Scan.reads_u16 name c _ hindex) passed
    rw [Medium.text, Stateful.bind_ok hu16, hname]
    rfl
  have hu32 : (Medium.u32 : Survey UInt32) ⟨c.advance 2, passed⟩ =
      .ok (UInt32.ofNat (front ++ back).length) ⟨c.advance 6, passed⟩ :=
    read_of_ok (Scan.reads_u32_ofNat hlength _ _ hcount) passed
  have henter : (Medium.enter (UInt32.ofNat (front ++ back).length) : Survey Nat)
      ⟨c.advance 6, passed⟩ = .ok (c.position + 6 + (front ++ back).length) ⟨c.advance 6, passed⟩ := by
    have hfits : ¬ (c.advance 6).remaining < (UInt32.ofNat (front ++ back).length).toNat := by
      rw [hsize]
      exact Nat.not_lt.mpr hlong
    have hscan := Scan.enter_of_not_lt hfits
    rw [hsize] at hscan
    exact read_of_ok hscan passed
  have hleave : Scan.leave found (UInt32.ofNat (front ++ back).length)
      (c.position + 6 + (front ++ back).length) (c.advance (6 + front.length)) =
        .ok () (c.advance (6 + (front ++ back).length)) := by
    rw [Cursor.remaining, Cursor.data_advance, Cursor.position_advance] at hlong
    rw [Scan.leave_of_not_lt (by simp only [Cursor.position_advance, List.length_append]; omega),
      Scan.seek_eq_ok (by rw [Cursor.data_advance]; omega), Nat.add_assoc]
    rfl
  rw [Medium.readAttribute, Stateful.bind_ok htext, Stateful.bind_ok hu32, Stateful.bind_ok henter,
    Stateful.bind_ok hbody]
  have hnoted := leave_of_ok hleave inner
  rw [Cursor.position_advance, ← Nat.add_assoc] at hnoted
  exact Stateful.bind_ok hnoted

/-- An attribute of which nothing is looked at is passed over as a whole. -/
theorem readAttribute_skipped {σ : Type} {pool : Pool} {body : String → σ → Survey σ} {name : UInt16}
    {found : String} {content tail : List UInt8} {state : σ} {c : Cursor} {passed : List Span}
    (hname : pool.utf8 name = .ok found) (hlength : FitsLength content.length)
    (hrest : c.rest = encodeAttribute name content ++ tail) (hskip : body found state = pure state) :
    (Medium.readAttribute pool body state : Survey σ) ⟨c, passed⟩ =
      .ok state ⟨c.advance (6 + content.length),
        passed ++ [⟨c.position + 6, c.position + 6 + content.length⟩]⟩ := by
  have hnothing : c.rest = encodeAttribute name ([] ++ content) ++ tail := hrest
  have hbody : body found state ⟨c.advance 6, passed⟩ = .ok state ⟨c.advance (6 + 0), passed⟩ := by
    rw [hskip]
    rfl
  have hfits : FitsLength ([] ++ content).length := hlength
  exact readAttribute_laid_out hname hfits hnothing hbody

theorem simulation : Simulation Survey Follows where
  pure := follows_pure
  bind := follows_bind
  fail _ := follows_fail _
  u8 := follows_map (follows_take 1) _
  u16 := follows_map (follows_take 2) _
  u32 := follows_map (follows_take 4) _
  take := follows_take
  position := follows_position
  remaining := follows_remaining
  slot _ := follows_pure ()
  enter := follows_enter
  leave := follows_leave

/-- The survey of a buffer ends as its parse does, with spans that lie in order within the buffer, and
the same for all buffers that differ in these spans only. -/
theorem run_of_same (data : ByteArray) :
    (∀ span ∈ ClassFile.passedOver data, span.start ≤ span.stop ∧ span.stop ≤ data.size) ∧
      ∀ other, SameOutside (ClassFile.passedOver data) 0 data.size data other →
        run other = (ClassFile.parse data, ClassFile.passedOver data) := by
  obtain ⟨verdict, stop, spans, hpassage, hscan, hsurvey⟩ := simulation.classFile data 0
  have hstop := hpassage.inside (Nat.zero_le _)
  have hrun : ∀ other, SameOutside spans 0 stop data other → run other = (verdict, spans) := by
    intro other hsame
    have hclass := hsurvey other hsame []
    rw [List.nil_append] at hclass
    rw [run, hclass]
    cases verdict <;> rfl
  have hself : SameOutside spans 0 stop data data := ⟨rfl, fun _ _ _ _ => rfl⟩
  have hpassed : ClassFile.passedOver data = spans := by
    rw [ClassFile.passedOver, hrun data hself]
  have hparse : ClassFile.parse data = verdict := by
    rw [ClassFile.parse, Scan.run, EStateM.run, hscan]
    cases verdict <;> rfl
  rw [hpassed, hparse]
  constructor
  · intro span hspan
    obtain ⟨-, horder, hend⟩ := hpassage.spans span hspan
    exact ⟨horder, Nat.le_trans hend hstop⟩
  · intro other hsame
    apply hrun
    exact ⟨hsame.size, fun i hstart hi => hsame.bytes i hstart (Nat.lt_of_lt_of_le hi hstop)⟩

end Survey

namespace ClassFile

/-- The buffer with other bytes from an offset on. -/
def overwrite (data : ByteArray) (start : Nat) (bytes : List UInt8) : ByteArray :=
  (data.data.toList.take start ++ bytes ++ data.data.toList.drop (start + bytes.length)).toByteArray

theorem sameOutside_overwrite {data : ByteArray} {span : Span} {spans : List Span}
    {bytes : List UInt8} (hspan : span ∈ spans) (hlength : span.start + bytes.length = span.stop)
    (hinside : span.stop ≤ data.size) :
    SameOutside spans 0 data.size data (overwrite data span.start bytes) := by
  have hsize : data.data.toList.length = data.size := rfl
  constructor
  · rw [overwrite, List.size_toByteArray]
    simp only [List.length_append, List.length_take, List.length_drop]
    omega
  · intro i _ hi houtside
    have hnot : ¬ (span.start ≤ i ∧ i < span.stop) := houtside span hspan
    rw [overwrite, List.data_toByteArray, List.append_assoc]
    by_cases hbefore : i < span.start
    · rw [List.getElem?_append_left (by rw [List.length_take]; omega), List.getElem?_take,
        if_pos hbefore]
    · rw [List.getElem?_append_right (by rw [List.length_take]; omega),
        List.getElem?_append_right (by rw [List.length_take]; omega), List.getElem?_drop,
        List.length_take]
      congr 1
      omega

/-- What stands in a span that the parse of a buffer passes over decides nothing: with any other bytes
there the file is read or refused as before, the same spans are passed over, and a visit reports the
same and ends the same. -/
theorem parse_overwrite (data : ByteArray) :
    (Survey.run data).1 = parse data ∧
      ∀ span ∈ passedOver data, ∀ bytes : List UInt8, span.start + bytes.length = span.stop →
        parse (overwrite data span.start bytes) = parse data ∧
          passedOver (overwrite data span.start bytes) = passedOver data ∧
            ∀ (R : Type) [Recorder R] (r : R),
              visit (overwrite data span.start bytes) r = visit data r := by
  have hparse : ∀ data : ByteArray, (Survey.run data).1 = parse data := by
    intro data
    rw [(Survey.run_of_same data).2 data ⟨rfl, fun _ _ _ _ => rfl⟩]
  refine ⟨hparse data, fun span hspan bytes hlength => ?_⟩
  obtain ⟨hspans, hsame⟩ := Survey.run_of_same data
  have hrun := hsame _ (sameOutside_overwrite hspan hlength (hspans span hspan).2)
  have hresult : parse (overwrite data span.start bytes) = parse data := by
    rw [← hparse, hrun]
  refine ⟨hresult, ?_, fun R _ r => ?_⟩
  · rw [passedOver, hrun]
  · rw [visit, visit, hresult]

/-- A module whose only field has an attribute of three bytes, cut off before its methods. -/
def cutModule : ByteArray :=
  [0xca, 0xfe, 0xba, 0xbe, 0, 0, 0, 52, 0, 3, 1, 0, 1, 0x41, 7, 0, 1, 0x80, 0, 0, 2, 0, 0, 0, 0,
    0, 1, 0, 0, 0, 1, 0, 1, 0, 1, 0, 1, 0, 0, 0, 3, 5, 6, 7, 0].toByteArray

set_option maxRecDepth 100000 in
theorem passedOver_cutModule : passedOver cutModule = [⟨41, 44⟩] := by
  cbv

/-- The file is refused with other bytes in the attribute as well, and a visit reports the same. -/
theorem parse_overwrite_cutModule : ⟨41, 44⟩ ∈ passedOver cutModule ∧
    parse (overwrite cutModule 41 [0xff, 0, 1]) = parse cutModule ∧
    passedOver (overwrite cutModule 41 [0xff, 0, 1]) = passedOver cutModule ∧
    visit (overwrite cutModule 41 [0xff, 0, 1]) ({} : Events) = visit cutModule {} := by
  have hmem : ⟨41, 44⟩ ∈ passedOver cutModule := by
    rw [passedOver_cutModule]
    exact List.mem_singleton_self _
  obtain ⟨hparse, hpassed, hvisit⟩ := (parse_overwrite cutModule).2 ⟨41, 44⟩ hmem [0xff, 0, 1] rfl
  exact ⟨hmem, hparse, hpassed, hvisit Events {}⟩

end ClassFile
end ClassXref
