import ClassXref.Bytes.Cursor
import ClassXref.Proofs.Bytes.Numeral
import ClassXref.Proofs.Stateful
import ClassXref.Proofs.Text.ModifiedUtf8

/-! Scans that read a value off its bytes. `Reads scan bytes a` says what `scan` does wherever `bytes`
come next, with anything behind them: it succeeds with `a` and stops right after them. So the laws of
fields compose to laws of records without a mention of offsets. What a scan does with other bytes is
not the subject here. -/
namespace ClassXref.Scan

open BigEndian (digits value)

/-- Where `bytes` come next, `scan` gives `a` and passes over exactly these bytes. -/
def Reads {α : Type} (scan : Scan α) (bytes : List UInt8) (a : α) : Prop :=
  ∀ (c : Cursor) (tail : List UInt8), c.rest = bytes ++ tail →
    scan c = .ok a (c.advance bytes.length)

variable {α β σ : Type} {scan : Scan α} {front back bytes : List UInt8} {a : α} {b : β}

theorem rest_advance_append {c : Cursor} {tail : List UInt8} (h : c.rest = bytes ++ tail) :
    (c.advance bytes.length).rest = tail := by
  rw [Cursor.rest_advance, h, List.drop_left]

theorem length_le_remaining {c : Cursor} {tail : List UInt8} (h : c.rest = bytes ++ tail) :
    bytes.length ≤ c.remaining := by
  rw [← Cursor.length_rest, h, List.length_append]
  exact Nat.le_add_right _ _

/-- A buffer that has just been opened has all its bytes next. -/
theorem rest_opened (bytes : List UInt8) : Cursor.rest { data := bytes.toByteArray } = bytes := by
  simp [Cursor.rest]

theorem Reads.opened (h : Reads scan bytes a) :
    scan { data := bytes.toByteArray } =
      .ok a (Cursor.advance { data := bytes.toByteArray } bytes.length) :=
  h _ [] (by rw [rest_opened, List.append_nil])

theorem reads_pure (a : α) : Reads (pure a) [] a := by
  intro c tail _
  rfl

theorem reads_bind {next : α → Scan β} (h : Reads scan front a) (h' : Reads (next a) back b) :
    Reads (scan >>= next) (front ++ back) b := by
  intro c tail hc
  rw [List.append_assoc] at hc
  rw [Stateful.bind_ok (h c _ hc), h' _ tail (rest_advance_append hc), List.length_append]
  simp only [Cursor.advance, Nat.add_assoc]

/-- A scan followed by a step that reads nothing. -/
theorem reads_bind_pure {next : α → Scan β} (h : Reads scan bytes a) (h' : Reads (next a) [] b) :
    Reads (scan >>= next) bytes b := by
  simpa using reads_bind h h'

theorem reads_liftM {v : Except Fault α} (h : v = .ok a) : Reads (liftM v : Scan α) [] a := by
  rw [h, Stateful.liftM_ok]
  exact reads_pure a

/-! ### Fields -/

theorem skip_eq_ok {n : Nat} {c : Cursor} (h : n ≤ c.remaining) : skip n c = .ok () (c.advance n) := by
  rw [skip, if_pos h]

theorem take_eq_ok {n : Nat} {c : Cursor} (h : n ≤ c.remaining) :
    take n c = .ok (c.peek n) (c.advance n) := by
  have hskip : (skip n >>= fun _ => pure (c.peek n)) c = .ok (c.peek n) (c.advance n) := by
    rw [Stateful.bind_ok (skip_eq_ok h)]
    rfl
  exact hskip

theorem reads_take (bytes : List UInt8) : Reads (take bytes.length) bytes bytes := by
  intro c tail h
  rw [take_eq_ok (length_le_remaining h), Cursor.peek_eq_take_rest, h, List.take_left]

theorem reads_take_digits (width n : Nat) :
    Reads (take width) (digits width n) (digits width n) := by
  simpa only [BigEndian.length_digits] using reads_take (digits width n)

theorem reads_u8 (b : UInt8) : Reads u8 [b] b := by
  refine reads_bind_pure (reads_take [b]) ?_
  have hb : UInt8.ofNat (value [b]) = b := by simp [value]
  rw [hb]
  exact reads_pure b

theorem reads_u16 (n : UInt16) : Reads u16 (digits 2 n.toNat) n := by
  refine reads_bind_pure (reads_take_digits 2 n.toNat) ?_
  rw [BigEndian.u16_digits]
  exact reads_pure n

theorem reads_u32 (n : UInt32) : Reads u32 (digits 4 n.toNat) n := by
  refine reads_bind_pure (reads_take_digits 4 n.toNat) ?_
  rw [BigEndian.u32_digits]
  exact reads_pure n

/-- A length that fits in two bytes. -/
theorem reads_u16_ofNat {n : Nat} (h : n < 65536) : Reads u16 (digits 2 n) (UInt16.ofNat n) := by
  have hread := reads_u16 (UInt16.ofNat n)
  rwa [UInt16.toNat_ofNat_of_lt' h] at hread

/-- A length that fits in four bytes. -/
theorem reads_u32_ofNat {n : Nat} (h : n < 4294967296) :
    Reads u32 (digits 4 n) (UInt32.ofNat n) := by
  have hread := reads_u32 (UInt32.ofNat n)
  rwa [UInt32.toNat_ofNat_of_lt' h] at hread

theorem reads_i32 (n : Int32) : Reads i32 (digits 4 n.toUInt32.toNat) n := by
  refine reads_bind_pure (reads_u32 n.toUInt32) ?_
  rw [Int32.toInt32_toUInt32]
  exact reads_pure n

theorem reads_u64 (n : UInt64) : Reads u64 (digits 8 n.toNat) n := by
  have hn := n.toNat_lt
  have hcapacity : BigEndian.capacity 4 = 4294967296 := rfl
  have hhigh := reads_u32_ofNat (n := n.toNat / 4294967296) (by omega)
  have hlow : Reads u32 (digits 4 n.toNat) (UInt32.ofNat (n.toNat % 4294967296)) := by
    have hmod : digits 4 n.toNat = digits 4 (n.toNat % 4294967296) := by
      rw [← BigEndian.digits_value (digits 4 n.toNat), BigEndian.value_digits,
        BigEndian.length_digits, hcapacity]
    rw [hmod]
    exact reads_u32_ofNat (Nat.mod_lt _ (by decide))
  rw [show 8 = 4 + 4 from rfl, BigEndian.digits_add, hcapacity]
  refine reads_bind hhigh (reads_bind_pure hlow ?_)
  have hboth : UInt64.ofNat ((UInt32.ofNat (n.toNat / 4294967296)).toNat * 0x100000000 +
      (UInt32.ofNat (n.toNat % 4294967296)).toNat) = n := by
    apply UInt64.toNat_inj.mp
    rw [UInt64.toNat_ofNat', UInt32.toNat_ofNat', UInt32.toNat_ofNat']
    omega
  rw [hboth]
  exact reads_pure n

/-! ### Where the cursor stands -/

theorem position_bind {next : Nat → Scan β} {c : Cursor} :
    (position >>= next) c = next c.position c := rfl

theorem remaining_bind {next : Nat → Scan β} {c : Cursor} :
    (remaining >>= next) c = next c.remaining c := rfl

theorem seek_eq_ok {p : Nat} {c : Cursor} (h : p ≤ c.data.size) :
    seek p c = .ok () { c with position := p } := by
  rw [seek, if_pos h]

theorem reads_position_bind {next : Nat → Scan β} (h : ∀ p, Reads (next p) bytes b) :
    Reads (position >>= next) bytes b := by
  intro c tail hc
  exact h c.position c tail hc

/-- A text does not depend on where it stands. -/
theorem reads_utf8_of_decode? {text : String} (h : ModifiedUtf8.decode? bytes = some text) :
    Reads (utf8 bytes.length) bytes text := by
  refine reads_position_bind fun offset => reads_bind_pure (reads_take bytes) ?_
  rw [h]
  exact reads_pure text

theorem reads_utf8 (text : String) :
    Reads (utf8 (ModifiedUtf8.encode text.toList).length) (ModifiedUtf8.encode text.toList) text :=
  reads_utf8_of_decode? (ModifiedUtf8.decode?_encode text)

/-! ### Whole buffers -/

/-- Where `bytes` are all that is left, `scan` gives `a`. -/
def ReadsToEnd {α : Type} (scan : Scan α) (bytes : List UInt8) (a : α) : Prop :=
  ∀ c : Cursor, c.rest = bytes → ∃ d, scan c = .ok a d

theorem readsToEnd_bind {next : α → Scan β} (h : Reads scan front a)
    (h' : ReadsToEnd (next a) back b) : ReadsToEnd (scan >>= next) (front ++ back) b := by
  intro c hc
  obtain ⟨d, hd⟩ := h' _ (rest_advance_append hc)
  exact ⟨d, by rw [Stateful.bind_ok (h c back hc), hd]⟩

theorem run_eq_ok {bytes : List UInt8} (h : ReadsToEnd scan bytes a) :
    run scan bytes.toByteArray = .ok a := by
  obtain ⟨d, hd⟩ := h _ (rest_opened bytes)
  rw [run, EStateM.run, hd]

/-! ### Repetition -/

/-- Entries that are read one by one, each giving what `resolve` says of it. -/
theorem reads_times {encode : β → List UInt8} {resolve : β → Except Fault α} {xs : List β}
    {ys : List α} (entry : ∀ x ∈ xs, ∀ y, resolve x = .ok y → Reads scan (encode x) y)
    (h : xs.mapM resolve = .ok ys) : Reads (times xs.length scan) (xs.flatMap encode) ys := by
  suffices hgo : ∀ found, Reads (times.go scan xs.length found) (xs.flatMap encode)
      (found.reverse ++ ys) by
    simpa [times] using hgo []
  induction xs generalizing ys with
  | nil =>
    cases h
    intro found
    simpa [times.go] using reads_pure found.reverse
  | cons x xs ih =>
    obtain ⟨y, rest, hy, hrest, rfl⟩ := Stateful.mapM_cons_eq_ok_iff.mp h
    intro found
    have hx : Reads scan (encode x) y := entry x List.mem_cons_self y hy
    have htail := ih (fun z hz => entry z (List.mem_cons_of_mem x hz)) hrest (y :: found)
    rw [List.reverse_cons, List.append_assoc, List.singleton_append] at htail
    exact reads_bind hx htail

/-- Entries that are read one by one, each taking the state where `update` takes it. -/
theorem reads_iterate {encode : β → List UInt8} {update : σ → β → Except Fault σ}
    {step : σ → Scan σ} {xs : List β} {first last : σ}
    (entry : ∀ x ∈ xs, ∀ s t, update s x = .ok t → Reads (step s) (encode x) t)
    (h : xs.foldlM update first = .ok last) :
    Reads (iterate xs.length step first) (xs.flatMap encode) last := by
  induction xs generalizing first with
  | nil =>
    cases h
    exact reads_pure last
  | cons x xs ih =>
    rw [List.foldlM_cons] at h
    obtain ⟨next, hnext, hrest⟩ := Stateful.verdict_bind_eq_ok_iff.mp h
    have hx : Reads (step first) (encode x) next := entry x List.mem_cons_self first next hnext
    exact reads_bind hx (ih (fun z hz => entry z (List.mem_cons_of_mem x hz)) hrest)

end ClassXref.Scan
