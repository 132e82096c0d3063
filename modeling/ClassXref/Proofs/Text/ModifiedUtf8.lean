import ClassXref.Text.ModifiedUtf8

/-! Reading back what `ModifiedUtf8.encode` writes. The reader tries plain UTF-8 first, so the strict
reader's inverse law is not enough. What `encode` writes is `Clean`: it has no zero byte and none from `F0` up.
Plain UTF-8 with only clean bytes is the same in both encodings, and so both readings agree there. The last
section says what a text looks like character by character. Nothing is said here about bytes that `encode` does
not write. -/
namespace ClassXref

namespace Utf16

theorem toNat_valid (c : Char) :
    c.toNat < 0xD800 ∨ (0xDFFF < c.toNat ∧ c.toNat < 0x110000) :=
  c.valid

theorem joinSurrogates_split {c : Char} (h : 0x10000 ≤ c.toNat) :
    joinSurrogates (0xD800 + (c.toNat - 0x10000) / 0x400) (0xDC00 + (c.toNat - 0x10000) % 0x400) =
      c := by
  have hcode : 0x10000 + (0xD800 + (c.toNat - 0x10000) / 0x400 - 0xD800) * 0x400 +
      (0xDC00 + (c.toNat - 0x10000) % 0x400 - 0xDC00) = c.toNat := by omega
  rw [joinSurrogates, hcode, Char.ofNat_toNat]

theorem decodeOnto_unitsOf (done : List Char) (c : Char) (units : List Nat) :
    decodeOnto done (unitsOf c ++ units) = decodeOnto (c :: done) units := by
  have hvalid := toNat_valid c
  by_cases h : c.toNat < 0x10000
  · have hhigh : isHighSurrogate c.toNat = false := by
      simp only [isHighSurrogate, Bool.and_eq_false_iff, decide_eq_false_iff_not]; omega
    have hlow : isLowSurrogate c.toNat = false := by
      simp only [isLowSurrogate, Bool.and_eq_false_iff, decide_eq_false_iff_not]; omega
    rw [unitsOf, if_pos h, List.singleton_append, decodeOnto.eq_def]
    simp [hhigh, hlow]
  · have hhigh : isHighSurrogate (0xD800 + (c.toNat - 0x10000) / 0x400) = true := by
      simp only [isHighSurrogate, Bool.and_eq_true, decide_eq_true_eq]; omega
    have hlow : isLowSurrogate (0xDC00 + (c.toNat - 0x10000) % 0x400) = true := by
      simp only [isLowSurrogate, Bool.and_eq_true, decide_eq_true_eq]; omega
    rw [unitsOf, if_neg h, List.cons_append, List.singleton_append, decodeOnto.eq_def]
    simp [hhigh, hlow, joinSurrogates_split (Nat.le_of_not_lt h)]

theorem encode_cons (c : Char) (text : List Char) : encode (c :: text) = unitsOf c ++ encode text :=
  List.flatMap_cons

theorem decode?_encode (text : List Char) : decode? (encode text) = some text := by
  suffices h : ∀ done, decodeOnto done (encode text) = some (done.reverse ++ text) by
    simpa [decode?] using h []
  induction text with
  | nil => simp [encode, decodeOnto]
  | cons c text ih =>
    intro done
    rw [encode_cons, decodeOnto_unitsOf, ih]
    simp

theorem lt_of_mem_encode {text : List Char} {unit : Nat} (h : unit ∈ encode text) :
    unit < 0x10000 := by
  obtain ⟨c, -, h⟩ := List.mem_flatMap.mp h
  have hvalid := toNat_valid c
  unfold unitsOf at h
  split at h
  · rw [List.mem_singleton.mp h]; assumption
  · simp only [List.mem_cons, List.not_mem_nil, or_false] at h
    omega

end Utf16

namespace ModifiedUtf8

theorem toNat_ofNat {n : Nat} (h : n < 256) : (UInt8.ofNat n).toNat = n := by
  simpa using Nat.mod_eq_of_lt h

theorem continuation?_ofNat {n : Nat} (h : n < 64) :
    continuation? (UInt8.ofNat (0x80 + n)) = some n := by
  rw [continuation?, toNat_ofNat (by omega), if_pos (by omega), Nat.add_sub_cancel_left]

theorem unitsOnto_bytesOfUnit (done : List Nat) {unit : Nat} (h : unit < 0x10000)
    (bytes : List UInt8) :
    unitsOnto done (bytesOfUnit unit ++ bytes) = unitsOnto (unit :: done) bytes := by
  rw [bytesOfUnit]
  by_cases hone : unit ≠ 0 ∧ unit < 0x80
  · have hbyte : (UInt8.ofNat unit).toNat = unit := toNat_ofNat (by omega)
    rw [if_pos hone, List.singleton_append, unitsOnto.eq_def]
    simp [hbyte, hone]
  rw [if_neg hone]
  have hlast := continuation?_ofNat (Nat.mod_lt unit (by decide : 0 < 64))
  by_cases htwo : unit < 0x800
  · have hfirst : (UInt8.ofNat (0xC0 + unit / 64)).toNat = 0xC0 + unit / 64 :=
      toNat_ofNat (by omega)
    have hunit : (0xC0 + unit / 64 - 0xC0) * 64 + unit % 64 = unit := by omega
    rw [if_pos htwo, List.cons_append, List.singleton_append, unitsOnto.eq_def]
    dsimp only
    rw [hfirst, if_neg (by omega), hlast]
    dsimp only
    rw [if_pos (by omega), hunit, if_pos (by omega)]
  · have hfirst : (UInt8.ofNat (0xE0 + unit / 4096)).toNat = 0xE0 + unit / 4096 :=
      toNat_ofNat (by omega)
    have hmiddle := continuation?_ofNat (Nat.mod_lt (unit / 64) (by decide : 0 < 64))
    have hunit : (0xE0 + unit / 4096 - 0xE0) * 4096 + unit / 64 % 64 * 64 + unit % 64 = unit := by
      omega
    rw [if_neg htwo, List.cons_append, List.cons_append, List.singleton_append, unitsOnto.eq_def]
    dsimp only
    rw [hfirst, if_neg (by omega), hmiddle]
    dsimp only
    rw [if_neg (by omega), if_pos (by omega), hlast]
    dsimp only
    rw [hunit, if_pos (by omega)]

theorem units?_flatMap_bytesOfUnit {units : List Nat} (h : ∀ unit ∈ units, unit < 0x10000) :
    units? (units.flatMap bytesOfUnit) = some units := by
  suffices hall : ∀ done, unitsOnto done (units.flatMap bytesOfUnit) = some (done.reverse ++ units) by
    simpa [units?] using hall []
  induction units with
  | nil => simp [unitsOnto]
  | cons unit units ih =>
    intro done
    rw [List.flatMap_cons, unitsOnto_bytesOfUnit done (h unit List.mem_cons_self),
      ih (fun u hu => h u (List.mem_cons_of_mem unit hu))]
    simp

/-- The strict reader gives back what was written. -/
theorem strict_encode (text : List Char) : (units? (encode text)).bind Utf16.decode? = some text := by
  have hunits : units? ((Utf16.encode text).flatMap bytesOfUnit) = some (Utf16.encode text) :=
    units?_flatMap_bytesOfUnit fun _ => Utf16.lt_of_mem_encode
  rw [encode, hunits, Option.bind_some, Utf16.decode?_encode]

theorem encode_injective {text text' : List Char} (h : encode text = encode text') : text = text' := by
  have hread := strict_encode text
  rw [h, strict_encode] at hread
  exact (Option.some.inj hread).symm

theorem encode_append (text text' : List Char) : encode (text ++ text') = encode text ++ encode text' := by
  rw [encode, Utf16.encode, List.flatMap_append, List.flatMap_append]
  rfl

/-! ### Plain UTF-8 -/

/-- The bytes of one character. -/
def bytesOfChar (c : Char) : List UInt8 :=
  (Utf16.unitsOf c).flatMap bytesOfUnit

theorem encode_cons (c : Char) (text : List Char) :
    encode (c :: text) = bytesOfChar c ++ encode text := by
  simp [encode, bytesOfChar, Utf16.encode]

theorem bytesOfChar_eq_utf8EncodeChar {c : Char} (hzero : c.toNat ≠ 0) (hplain : c.toNat < 0x10000) :
    bytesOfChar c = String.utf8EncodeChar c := by
  have hval : c.val.toNat = c.toNat := rfl
  simp only [bytesOfChar, Utf16.unitsOf, if_pos hplain, List.flatMap_cons, List.flatMap_nil,
    List.append_nil, bytesOfUnit, String.utf8EncodeChar, hval]
  by_cases hone : c.toNat < 0x80
  · rw [if_pos ⟨hzero, hone⟩, if_pos (by omega)]
  · rw [if_neg (by omega), if_neg (by omega : ¬ c.toNat ≤ 0x7f)]
    by_cases htwo : c.toNat < 0x800
    · rw [if_pos htwo, if_pos (by omega : c.toNat ≤ 0x7ff), Nat.mod_eq_of_lt (by omega : c.toNat / 64 < 32),
        Nat.add_comm, Nat.add_comm 0x80]
    · rw [if_neg htwo, if_neg (by omega : ¬ c.toNat ≤ 0x7ff), if_pos (by omega : c.toNat ≤ 0xffff),
        Nat.mod_eq_of_lt (by omega : c.toNat / 4096 < 16), Nat.add_comm, Nat.add_comm 0x80,
        Nat.add_comm 0x80]

/-- A text in plain UTF-8. -/
def plain (text : List Char) : List UInt8 :=
  text.flatMap String.utf8EncodeChar

theorem plain_cons (c : Char) (text : List Char) :
    plain (c :: text) = String.utf8EncodeChar c ++ plain text :=
  List.flatMap_cons

theorem toByteArray_plain (text : String) : (plain text.toList).toByteArray = text.toByteArray := by
  rw [plain, ← String.utf8Encode_toList, List.utf8Encode]

theorem fromUTF8?_eq_some_iff {bytes : List UInt8} {text : String} :
    String.fromUTF8? bytes.toByteArray = some text ↔ bytes = plain text.toList := by
  constructor
  · intro h
    unfold String.fromUTF8? at h
    split at h
    · have htext : text.toByteArray = bytes.toByteArray := by
        rw [← Option.some.inj h]
        rfl
      rw [← toByteArray_plain] at htext
      exact (List.toByteArray_inj.mp htext).symm
    · cases h
  · rintro rfl
    rw [toByteArray_plain, String.fromUTF8?, dif_pos text.isValidUTF8]
    rfl

/-! ### Where plain UTF-8 is modified UTF-8 -/

/-- No byte is one that modified UTF-8 never has: none is zero, and none is `F0` or above. -/
def Clean (bytes : List UInt8) : Prop :=
  ∀ b ∈ bytes, b.toNat ≠ 0 ∧ b.toNat < 0xF0

theorem clean_bytesOfUnit {unit : Nat} (h : unit < 0x10000) : Clean (bytesOfUnit unit) := by
  have hbyte : ∀ n, 0 < n → n < 0xF0 →
      (UInt8.ofNat n).toNat ≠ 0 ∧ (UInt8.ofNat n).toNat < 0xF0 := by
    intro n hpos hlt
    rw [toNat_ofNat (by omega)]
    omega
  unfold bytesOfUnit
  split
  · exact List.forall_mem_singleton.mpr (hbyte _ (by omega) (by omega))
  · split
    · simp only [Clean, List.forall_mem_cons]
      exact ⟨hbyte _ (by omega) (by omega), hbyte _ (by omega) (by omega), by simp⟩
    · simp only [Clean, List.forall_mem_cons]
      exact ⟨hbyte _ (by omega) (by omega), hbyte _ (by omega) (by omega),
        hbyte _ (by omega) (by omega), by simp⟩

theorem clean_encode (text : List Char) : Clean (encode text) := by
  intro b hb
  obtain ⟨unit, hunit, hb⟩ := List.mem_flatMap.mp hb
  exact clean_bytesOfUnit (Utf16.lt_of_mem_encode hunit) b hb

/-- A zero and the characters from `10000` up are the ones whose plain UTF-8 is not clean. -/
theorem plain_of_clean {c : Char} (h : Clean (String.utf8EncodeChar c)) :
    c.toNat ≠ 0 ∧ c.toNat < 0x10000 := by
  have hvalid := Utf16.toNat_valid c
  have hval : c.val.toNat = c.toNat := rfl
  simp only [String.utf8EncodeChar, hval] at h
  split at h
  · have := h _ List.mem_cons_self
    rw [toNat_ofNat (by omega)] at this
    omega
  · split at h
    · omega
    · split at h
      · omega
      · have := h _ List.mem_cons_self
        rw [toNat_ofNat (by omega)] at this
        omega

theorem plain_eq_encode_of_clean {text : List Char} (h : Clean (plain text)) :
    plain text = encode text := by
  induction text with
  | nil => rfl
  | cons c text ih =>
    rw [plain_cons] at h
    obtain ⟨hc, htext⟩ := List.forall_mem_append.mp h
    obtain ⟨hzero, hsmall⟩ := plain_of_clean hc
    rw [encode_cons, plain_cons, ih htext, bytesOfChar_eq_utf8EncodeChar hzero hsmall]

/-- Reading gives back every text that was written. Where it is read as plain UTF-8, its bytes are clean, and so
they are the same text in modified UTF-8. -/
theorem decode?_encode (text : String) : decode? (encode text.toList) = some text := by
  unfold decode?
  split
  · next found hfound =>
    have hplain := fromUTF8?_eq_some_iff.mp hfound
    have hclean : Clean (plain found.toList) := hplain ▸ clean_encode text.toList
    rw [plain_eq_encode_of_clean hclean] at hplain
    rw [String.toList_injective (encode_injective hplain)]
  · rw [strict_encode, Option.map_some, String.ofList_toList]

/-! ### The form of a character -/

/-- A surrogate in three bytes, of which the first is the same for all. -/
theorem bytesOfUnit_surrogate {unit m n : Nat} (hm : unit = 0xD800 + m * 0x40 + n) (h : m < 0x20)
    (h' : n < 0x40) :
    bytesOfUnit unit = [0xED, UInt8.ofNat (0xA0 + m), UInt8.ofNat (0x80 + n)] := by
  have hfirst : 0xE0 + unit / 4096 = 0xED := by omega
  have hsecond : 0x80 + unit / 64 % 64 = 0xA0 + m := by omega
  have hthird : 0x80 + unit % 64 = 0x80 + n := by omega
  rw [bytesOfUnit, if_neg (by omega), if_neg (by omega), hfirst, hsecond, hthird]
  rfl

/-- The two halves of a supplementary character, in six bytes. The number says how far above the first of
these characters it lies. -/
def surrogateForm (above : Nat) : List UInt8 :=
  [0xED, UInt8.ofNat (0xA0 + above / 0x10000), UInt8.ofNat (0x80 + above / 0x400 % 0x40),
    0xED, UInt8.ofNat (0xB0 + above / 0x40 % 0x10), UInt8.ofNat (0x80 + above % 0x40)]

/-- The bytes of a character: two for zero, six from `10000` up, and otherwise its plain UTF-8. -/
def formOf (c : Char) : List UInt8 :=
  if c.toNat = 0 then [0xC0, 0x80]
  else if c.toNat < 0x10000 then String.utf8EncodeChar c
  else surrogateForm (c.toNat - 0x10000)

theorem flatMap_bytesOfUnit_surrogates {above : Nat} (h : above < 0x100000) :
    [0xD800 + above / 0x400, 0xDC00 + above % 0x400].flatMap bytesOfUnit = surrogateForm above := by
  have hhigh : bytesOfUnit (0xD800 + above / 0x400) =
      [0xED, UInt8.ofNat (0xA0 + above / 0x10000), UInt8.ofNat (0x80 + above / 0x400 % 0x40)] :=
    bytesOfUnit_surrogate (by omega) (by omega) (by omega)
  have hlow : bytesOfUnit (0xDC00 + above % 0x400) =
      [0xED, UInt8.ofNat (0xA0 + (0x10 + above / 0x40 % 0x10)), UInt8.ofNat (0x80 + above % 0x40)] :=
    bytesOfUnit_surrogate (by omega) (by omega) (by omega)
  rw [List.flatMap_cons, List.flatMap_singleton, hhigh, hlow, ← Nat.add_assoc]
  rfl

theorem bytesOfChar_eq_formOf (c : Char) : bytesOfChar c = formOf c := by
  have hvalid := Utf16.toNat_valid c
  unfold formOf
  by_cases hzero : c.toNat = 0
  · rw [if_pos hzero, bytesOfChar, Utf16.unitsOf, if_pos (by omega), hzero]
    rfl
  rw [if_neg hzero]
  by_cases hsmall : c.toNat < 0x10000
  · rw [if_pos hsmall, bytesOfChar_eq_utf8EncodeChar hzero hsmall]
  · rw [if_neg hsmall, bytesOfChar, Utf16.unitsOf, if_neg hsmall,
      flatMap_bytesOfUnit_surrogates (by omega)]

theorem encode_eq_flatMap_formOf (text : List Char) : encode text = text.flatMap formOf := by
  induction text with
  | nil => rfl
  | cons c text ih => rw [encode_cons, List.flatMap_cons, bytesOfChar_eq_formOf, ih]

end ModifiedUtf8
end ClassXref
