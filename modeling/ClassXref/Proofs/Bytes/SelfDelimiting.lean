import ClassXref.Proofs.Bytes.Reads

/-! Scans that find their own end. What a self-delimiting scan accepts, it accepts for the bytes that it
passed over and for nothing behind them: it reads the same bytes again wherever they stand, and where
only a front part of them is left, it stops for want of bytes and for no other reason. The second half
is what keeps a cut from being taken for another fault; it says nothing about bytes that the scan
refuses when they are all there. -/
namespace ClassXref.Scan

open BigEndian (digits value)

/-- Where `bytes` are cut off before their end, `scan` stops for want of bytes. -/
def Starves {α : Type} (scan : Scan α) (bytes : List UInt8) : Prop :=
  ∀ (c : Cursor) (missing : List UInt8), missing ≠ [] → c.rest ++ missing = bytes →
    ∃ offset needed remaining d, scan c = .error (.truncated offset needed remaining) d

/-- Whatever `scan` accepts, it reads off a run of bytes and starves on every shorter one. -/
def SelfDelimiting {α : Type} (scan : Scan α) : Prop :=
  ∀ (c d : Cursor) (a : α), scan c = .ok a d →
    ∃ bytes tail, c.rest = bytes ++ tail ∧ Reads scan bytes a ∧ Starves scan bytes

variable {α β σ : Type} {scan : Scan α} {front back bytes : List UInt8} {a : α}

/-! ### Sequences -/

theorem starves_nil (scan : Scan α) : Starves scan [] := by
  intro c missing hmissing hc
  exact absurd (List.append_eq_nil_iff.mp hc).2 hmissing

/-- A sequence whose first scan starves goes no further. -/
theorem starves_bind_front {next : α → Scan β} (h : Starves scan bytes) :
    Starves (scan >>= next) bytes := by
  intro c missing hmissing hc
  obtain ⟨offset, needed, remaining, d, herror⟩ := h c missing hmissing hc
  exact ⟨offset, needed, remaining, d, Stateful.bind_error herror⟩

theorem starves_bind {next : α → Scan β} (hreads : Reads scan front a) (hfront : Starves scan front)
    (hback : Starves (next a) back) : Starves (scan >>= next) (front ++ back) := by
  intro c missing hmissing hc
  -- The cut lies inside the front part, or the front part is whole and the cut lies behind it.
  rcases List.append_eq_append_iff.mp hc with ⟨cut, hcut, -⟩ | ⟨more, hmore, hrest⟩
  · by_cases hnil : cut = []
    · rw [hnil, List.append_nil] at hcut
      have hc' : c.rest = front ++ [] := by rw [hcut, List.append_nil]
      rw [hcut, List.append_cancel_left_eq] at hc
      obtain ⟨offset, needed, remaining, d, herror⟩ := hback (c.advance front.length) missing
        hmissing (by rw [rest_advance_append hc', List.nil_append, hc])
      exact ⟨offset, needed, remaining, d, by rw [Stateful.bind_ok (hreads c [] hc'), herror]⟩
    · exact starves_bind_front hfront c cut hnil hcut.symm
  · obtain ⟨offset, needed, remaining, d, herror⟩ := hback (c.advance front.length) missing
      hmissing (by rw [rest_advance_append hmore, hrest])
    exact ⟨offset, needed, remaining, d, by rw [Stateful.bind_ok (hreads c more hmore), herror]⟩

theorem starves_position_bind {next : Nat → Scan β} (h : ∀ p, Starves (next p) bytes) :
    Starves (position >>= next) bytes := by
  intro c missing hmissing hc
  exact h c.position c missing hmissing hc

theorem selfDelimiting_pure (a : α) : SelfDelimiting (pure a) := by
  intro c d b h
  obtain ⟨rfl, -⟩ := Stateful.pure_eq_ok_iff.mp h
  exact ⟨[], c.rest, rfl, reads_pure a, starves_nil _⟩

theorem selfDelimiting_throw (e : Fault) : SelfDelimiting (throw e : Scan α) := by
  intro c d a h
  exact absurd h Stateful.throw_ne_ok

theorem selfDelimiting_liftM (v : Except Fault α) : SelfDelimiting (liftM v : Scan α) := by
  cases v with
  | ok a => exact selfDelimiting_pure a
  | error e => exact selfDelimiting_throw e

theorem selfDelimiting_ite {P : Prop} [Decidable P] {x y : Scan α} (hx : SelfDelimiting x)
    (hy : SelfDelimiting y) : SelfDelimiting (if P then x else y) := by
  split
  · exact hx
  · exact hy

theorem selfDelimiting_bind {next : α → Scan β} (h : SelfDelimiting scan)
    (h' : ∀ a, SelfDelimiting (next a)) : SelfDelimiting (scan >>= next) := by
  intro c e b hok
  obtain ⟨a, d, hscan, hnext⟩ := Stateful.bind_eq_ok_iff.mp hok
  obtain ⟨front, tail, hc, hreads, hstarves⟩ := h c d a hscan
  rw [hreads c tail hc, EStateM.Result.ok.injEq] at hscan
  obtain ⟨-, rfl⟩ := hscan
  obtain ⟨back, rest, hd, hreads', hstarves'⟩ := h' a _ e b hnext
  rw [rest_advance_append hc] at hd
  refine ⟨front ++ back, rest, ?_, reads_bind hreads hreads', starves_bind hreads hstarves hstarves'⟩
  rw [hc, hd, List.append_assoc]

/-! ### Fields -/

theorem skip_eq_error {n : Nat} {c : Cursor} (h : c.remaining < n) :
    skip n c = .error (.truncated c.position n c.remaining) c := by
  rw [skip, if_neg (Nat.not_le.mpr h)]

theorem take_eq_error {n : Nat} {c : Cursor} (h : c.remaining < n) :
    take n c = .error (.truncated c.position n c.remaining) c := by
  have hbind : (skip n >>= fun _ => pure (c.peek n)) c =
      .error (.truncated c.position n c.remaining) c := Stateful.bind_error (skip_eq_error h)
  exact hbind

theorem seek_eq_error {p : Nat} {c : Cursor} (h : c.data.size < p) :
    seek p c = .error (.truncated c.position (p - c.position) c.remaining) c := by
  rw [seek, if_neg (Nat.not_le.mpr h)]

/-- Bytes that were taken were next. -/
theorem rest_of_take_eq_ok {n : Nat} {c d : Cursor} (h : take n c = .ok bytes d) :
    bytes.length = n ∧ d = c.advance n ∧ ∃ tail, c.rest = bytes ++ tail := by
  rcases Nat.lt_or_ge c.remaining n with hshort | hlong
  · rw [take_eq_error hshort] at h
    cases h
  · rw [take_eq_ok hlong, EStateM.Result.ok.injEq, Cursor.peek_eq_take_rest] at h
    obtain ⟨rfl, rfl⟩ := h
    refine ⟨?_, rfl, c.rest.drop n, (List.take_append_drop n c.rest).symm⟩
    rw [List.length_take, Cursor.length_rest, Nat.min_eq_left hlong]

theorem starves_take (bytes : List UInt8) : Starves (take bytes.length) bytes := by
  intro c missing hmissing hc
  have hshort : c.remaining < bytes.length := by
    rw [← hc, List.length_append, Cursor.length_rest]
    have := List.length_pos_iff.mpr hmissing
    omega
  exact ⟨_, _, _, _, take_eq_error hshort⟩

theorem selfDelimiting_take (n : Nat) : SelfDelimiting (take n) := by
  intro c d bytes h
  obtain ⟨rfl, -, tail, hc⟩ := rest_of_take_eq_ok h
  exact ⟨bytes, tail, hc, reads_take bytes, starves_take bytes⟩

theorem selfDelimiting_u8 : SelfDelimiting u8 :=
  selfDelimiting_bind (selfDelimiting_take 1) fun _ => selfDelimiting_pure _

theorem selfDelimiting_u16 : SelfDelimiting u16 :=
  selfDelimiting_bind (selfDelimiting_take 2) fun _ => selfDelimiting_pure _

theorem selfDelimiting_u32 : SelfDelimiting u32 :=
  selfDelimiting_bind (selfDelimiting_take 4) fun _ => selfDelimiting_pure _

theorem selfDelimiting_i32 : SelfDelimiting i32 :=
  selfDelimiting_bind selfDelimiting_u32 fun _ => selfDelimiting_pure _

theorem selfDelimiting_u64 : SelfDelimiting u64 :=
  selfDelimiting_bind selfDelimiting_u32 fun _ =>
    selfDelimiting_bind selfDelimiting_u32 fun _ => selfDelimiting_pure _

/-- Numbers that were read were next, as their digits. -/
theorem rest_of_u16_eq_ok {c d : Cursor} {n : UInt16} (h : u16 c = .ok n d) :
    d = c.advance 2 ∧ ∃ tail, c.rest = digits 2 n.toNat ++ tail := by
  obtain ⟨bytes, d', htake, hpure⟩ := Stateful.bind_eq_ok_iff.mp h
  obtain ⟨hlength, rfl, tail, hc⟩ := rest_of_take_eq_ok htake
  obtain ⟨rfl, rfl⟩ := Stateful.pure_eq_ok_iff.mp hpure
  exact ⟨rfl, tail, by rw [BigEndian.digits_u16 hlength, hc]⟩

theorem rest_of_u32_eq_ok {c d : Cursor} {n : UInt32} (h : u32 c = .ok n d) :
    d = c.advance 4 ∧ ∃ tail, c.rest = digits 4 n.toNat ++ tail := by
  obtain ⟨bytes, d', htake, hpure⟩ := Stateful.bind_eq_ok_iff.mp h
  obtain ⟨hlength, rfl, tail, hc⟩ := rest_of_take_eq_ok htake
  obtain ⟨rfl, rfl⟩ := Stateful.pure_eq_ok_iff.mp hpure
  exact ⟨rfl, tail, by rw [BigEndian.digits_u32 hlength, hc]⟩

theorem starves_u16 (n : UInt16) : Starves u16 (digits 2 n.toNat) := by
  have htake := starves_take (digits 2 n.toNat)
  rw [BigEndian.length_digits] at htake
  exact starves_bind_front htake

theorem starves_u32 (n : UInt32) : Starves u32 (digits 4 n.toNat) := by
  have htake := starves_take (digits 4 n.toNat)
  rw [BigEndian.length_digits] at htake
  exact starves_bind_front htake

/-- Only the message about a bad text depends on where it stands. -/
theorem selfDelimiting_utf8 (n : Nat) : SelfDelimiting (utf8 n) := by
  intro c d text h
  rw [utf8, position_bind] at h
  obtain ⟨bytes, c', htake, hdecoded⟩ := Stateful.bind_eq_ok_iff.mp h
  obtain ⟨rfl, -, tail, hc⟩ := rest_of_take_eq_ok htake
  refine ⟨bytes, tail, hc, ?_, starves_position_bind fun p => starves_bind_front (starves_take bytes)⟩
  cases hdecode : ModifiedUtf8.decode? bytes with
  | none =>
    rw [hdecode] at hdecoded
    exact absurd hdecoded Stateful.throw_ne_ok
  | some found =>
    rw [hdecode] at hdecoded
    obtain ⟨rfl, -⟩ := Stateful.pure_eq_ok_iff.mp hdecoded
    exact reads_utf8_of_decode? hdecode

/-! ### Repetition -/

theorem selfDelimiting_times (h : SelfDelimiting scan) (n : Nat) : SelfDelimiting (times n scan) := by
  suffices hgo : ∀ found, SelfDelimiting (times.go scan n found) from hgo []
  induction n with
  | zero => exact fun found => selfDelimiting_pure found.reverse
  | succ n ih => exact fun found => selfDelimiting_bind h fun a => ih (a :: found)

theorem selfDelimiting_iterate {step : σ → Scan σ} (h : ∀ s, SelfDelimiting (step s)) (n : Nat)
    (start : σ) : SelfDelimiting (iterate n step start) := by
  induction n generalizing start with
  | zero => exact selfDelimiting_pure start
  | succ n ih => exact selfDelimiting_bind (h start) ih

end ClassXref.Scan
