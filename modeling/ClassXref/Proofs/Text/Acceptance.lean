import ClassXref.Proofs.Text.ModifiedUtf8

/-! Which bytes are read as a text. The strict reader takes exactly what `encode` writes. Plain UTF-8 is tried
before it, so bytes are read as a text just if they are the text in modified UTF-8 or the text in plain UTF-8.
The two differ where the text holds a zero or a supplementary character, and there plain UTF-8 has a byte that
modified UTF-8 never has. -/
namespace ClassXref

namespace Utf16

theorem toNat_charOfNat {n : Nat} (h : n < 0xD800 ∨ 0xDFFF < n ∧ n < 0x110000) :
    (Char.ofNat n).toNat = n := by
  rw [Char.ofNat, dif_pos h]
  rfl

theorem unitsOf_charOfNat {unit : Nat} (hhigh : isHighSurrogate unit = false)
    (hlow : isLowSurrogate unit = false) (h : unit < 0x10000) :
    unitsOf (Char.ofNat unit) = [unit] := by
  simp only [isHighSurrogate, Bool.and_eq_false_iff, decide_eq_false_iff_not] at hhigh
  simp only [isLowSurrogate, Bool.and_eq_false_iff, decide_eq_false_iff_not] at hlow
  have hvalue : (Char.ofNat unit).toNat = unit := toNat_charOfNat (by omega)
  rw [unitsOf, hvalue, if_pos h]

theorem unitsOf_joinSurrogates {high low : Nat} (hhigh : isHighSurrogate high = true)
    (hlow : isLowSurrogate low = true) : unitsOf (joinSurrogates high low) = [high, low] := by
  simp only [isHighSurrogate, Bool.and_eq_true, decide_eq_true_eq] at hhigh
  simp only [isLowSurrogate, Bool.and_eq_true, decide_eq_true_eq] at hlow
  have hvalue : (joinSurrogates high low).toNat =
      0x10000 + (high - 0xD800) * 0x400 + (low - 0xDC00) := toNat_charOfNat (by omega)
  have hfirst : 0xD800 + (0x10000 + (high - 0xD800) * 0x400 + (low - 0xDC00) - 0x10000) / 0x400 =
      high := by omega
  have hsecond : 0xDC00 + (0x10000 + (high - 0xD800) * 0x400 + (low - 0xDC00) - 0x10000) % 0x400 =
      low := by omega
  rw [unitsOf, hvalue, if_neg (by omega), hfirst, hsecond]

/-- Units that are read as a text are the units of that text. -/
theorem of_decodeOnto {done text : List Char} {units : List Nat} (hunits : ∀ u ∈ units, u < 0x10000)
    (h : decodeOnto done units = some text) :
    ∃ found, text = done.reverse ++ found ∧ units = encode found := by
  fun_induction decodeOnto done units with
  | case1 done =>
    cases h
    exact ⟨[], by simp, rfl⟩
  | case2 done unit hhigh low units hlow ih =>
    obtain ⟨found, rfl, hfound⟩ := ih (fun u hu => hunits u (by simp [hu])) h
    refine ⟨joinSurrogates unit low :: found, by simp, ?_⟩
    rw [encode_cons, unitsOf_joinSurrogates hhigh hlow, ← hfound]
    rfl
  | case6 done unit units hhigh hlow ih =>
    obtain ⟨found, rfl, hfound⟩ := ih (fun u hu => hunits u (by simp [hu])) h
    have hunit := unitsOf_charOfNat (by simpa using hhigh) (by simpa using hlow)
      (hunits unit List.mem_cons_self)
    refine ⟨Char.ofNat unit :: found, by simp, ?_⟩
    rw [encode_cons, hunit, ← hfound]
    rfl
  | _ => cases h

theorem eq_encode_of_decode? {units : List Nat} {text : List Char} (hunits : ∀ u ∈ units, u < 0x10000)
    (h : decode? units = some text) : units = encode text := by
  obtain ⟨found, rfl, hfound⟩ := of_decodeOnto hunits h
  exact hfound

end Utf16

namespace ModifiedUtf8

/-! ### What the strict reader takes -/

theorem continuation?_eq_some {b : UInt8} {n : Nat} (h : continuation? b = some n) :
    b.toNat = 0x80 + n ∧ n < 0x40 := by
  unfold continuation? at h
  split at h
  · have hn := Option.some.inj h
    omega
  · cases h

theorem eq_ofNat {b : UInt8} {n : Nat} (h : b.toNat = n) : UInt8.ofNat n = b := by
  rw [← h, UInt8.ofNat_toNat]

theorem bytesOfUnit_one {a : UInt8} (hzero : a.toNat ≠ 0) (h : a.toNat < 0x80) :
    bytesOfUnit a.toNat = [a] := by
  rw [bytesOfUnit, if_pos ⟨hzero, h⟩, UInt8.ofNat_toNat]

theorem bytesOfUnit_two {a b : UInt8} {n : Nat} (ha : 0xC0 ≤ a.toNat ∧ a.toNat < 0xE0)
    (hb : continuation? b = some n)
    (h : (a.toNat - 0xC0) * 64 + n = 0 ∨ 0x80 ≤ (a.toNat - 0xC0) * 64 + n) :
    bytesOfUnit ((a.toNat - 0xC0) * 64 + n) = [a, b] := by
  obtain ⟨hb, hn⟩ := continuation?_eq_some hb
  rw [bytesOfUnit, if_neg (by omega), if_pos (by omega), eq_ofNat (b := a) (by omega),
    eq_ofNat (b := b) (by omega)]

theorem bytesOfUnit_three {a b c : UInt8} {m n : Nat} (ha : 0xE0 ≤ a.toNat ∧ a.toNat < 0xF0)
    (hb : continuation? b = some m) (hc : continuation? c = some n)
    (h : 0x800 ≤ (a.toNat - 0xE0) * 4096 + m * 64 + n) :
    bytesOfUnit ((a.toNat - 0xE0) * 4096 + m * 64 + n) = [a, b, c] := by
  obtain ⟨hb, hm⟩ := continuation?_eq_some hb
  obtain ⟨hc, hn⟩ := continuation?_eq_some hc
  rw [bytesOfUnit, if_neg (by omega), if_neg (by omega), eq_ofNat (b := a) (by omega),
    eq_ofNat (b := b) (by omega), eq_ofNat (b := c) (by omega)]

/-- Behind the units in `done`, which are in reverse, `units` goes on with those that `bytes` writes. -/
def GoesOn (done units : List Nat) (bytes : List UInt8) : Prop :=
  ∃ found, units = done.reverse ++ found ∧ (∀ u ∈ found, u < 0x10000) ∧
    bytes = found.flatMap bytesOfUnit

theorem GoesOn.cons {done units : List Nat} {unit : Nat} {front rest : List UInt8}
    (h : GoesOn (unit :: done) units rest) (hunit : unit < 0x10000)
    (hfront : bytesOfUnit unit = front) : GoesOn done units (front ++ rest) := by
  obtain ⟨found, rfl, hfound, rfl⟩ := h
  refine ⟨unit :: found, by simp, List.forall_mem_cons.mpr ⟨hunit, hfound⟩, ?_⟩
  rw [List.flatMap_cons, hfront]

/-- The three forms of a unit are the three ways in which the reader goes on. -/
theorem goesOn_of_unitsOnto {done units : List Nat} {bytes : List UInt8}
    (h : unitsOnto done bytes = some units) : GoesOn done units bytes := by
  fun_induction unitsOnto done bytes with
  | case1 done =>
    cases h
    exact ⟨[], by simp, by simp, rfl⟩
  | case3 done a bytes hsmall hzero ih =>
    exact (ih h).cons (by omega) (bytesOfUnit_one hzero hsmall)
  | case6 done a hlarge b bytes n hb ha unit hunit ih =>
    obtain ⟨-, hn⟩ := continuation?_eq_some hb
    exact (ih h).cons (by omega) (bytesOfUnit_two ha hb hunit)
  | case10 done a hlarge b m hb hnot ha c bytes n hc unit hunit ih =>
    obtain ⟨-, hm⟩ := continuation?_eq_some hb
    obtain ⟨-, hn⟩ := continuation?_eq_some hc
    exact (ih h).cons (by omega) (bytesOfUnit_three ha hb hc hunit)
  | _ => cases h

theorem eq_encode_of_strict {bytes : List UInt8} {text : List Char}
    (h : (units? bytes).bind Utf16.decode? = some text) : bytes = encode text := by
  obtain ⟨units, hunits, htext⟩ := Option.bind_eq_some_iff.mp h
  obtain ⟨found, rfl, hfound, rfl⟩ := goesOn_of_unitsOnto hunits
  rw [Utf16.eq_encode_of_decode? hfound htext, encode]

/-! ### What the reader takes -/

/-- Bytes are read as a text just if they are the text in one of the two encodings. -/
theorem decode?_eq_some_iff {bytes : List UInt8} {text : String} :
    decode? bytes = some text ↔ bytes = encode text.toList ∨ bytes = plain text.toList := by
  constructor
  · intro h
    unfold decode? at h
    split at h
    · next found hplain =>
      rw [Option.some.inj h] at hplain
      exact Or.inr (fromUTF8?_eq_some_iff.mp hplain)
    · obtain ⟨chars, hchars, rfl⟩ := Option.map_eq_some_iff.mp h
      rw [String.toList_ofList]
      exact Or.inl (eq_encode_of_strict hchars)
  · rintro (rfl | rfl)
    · exact decode?_encode text
    · rw [decode?, fromUTF8?_eq_some_iff.mpr rfl]

/-! ### Where the two encodings differ -/

theorem decode?_eq_some_iff_of_clean {bytes : List UInt8} {text : String} (h : Clean bytes) :
    decode? bytes = some text ↔ bytes = encode text.toList := by
  rw [decode?_eq_some_iff]
  refine ⟨?_, Or.inl⟩
  rintro (rfl | rfl)
  · rfl
  · exact plain_eq_encode_of_clean h

theorem decode?_eq_some_iff_of_not_clean {bytes : List UInt8} {text : String} (h : ¬ Clean bytes) :
    decode? bytes = some text ↔ bytes = plain text.toList := by
  rw [decode?_eq_some_iff]
  refine ⟨?_, Or.inr⟩
  rintro (rfl | rfl)
  · exact absurd (clean_encode _) h
  · rfl

end ModifiedUtf8
end ClassXref
