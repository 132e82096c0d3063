import Mathlib.Data.String.Basic
import ClassXref.Proofs.Text.ModifiedUtf8

/-! The order of texts. Texts are compared character by character. In UTF-8 that is the order of their
bytes: the first byte of a character grows with the number of its bytes, and among characters with
equally many bytes the first bytes that differ are in the order of the characters. -/
namespace ClassXref.ModifiedUtf8

theorem cons_ofNat_lt_cons_ofNat {m n : Nat} (hm : m < 256) (hn : n < 256) {xs ys : List UInt8} :
    UInt8.ofNat m :: xs < UInt8.ofNat n :: ys ↔ m < n ∨ m = n ∧ xs < ys := by
  rw [List.cons_lt_cons_iff, UInt8.lt_iff_toNat_lt, ← UInt8.toNat_inj, toNat_ofNat hm, toNat_ofNat hn]

/-- Numbers compare as their digits to the base 64, the three lowest apart from the rest. -/
theorem sextets_of_lt {m n : Nat} (h : m < n) :
    m / 262144 < n / 262144 ∨ m / 262144 = n / 262144 ∧
      (m / 4096 % 64 < n / 4096 % 64 ∨ m / 4096 % 64 = n / 4096 % 64 ∧
        (m / 64 % 64 < n / 64 % 64 ∨ m / 64 % 64 = n / 64 % 64 ∧ m % 64 < n % 64)) := by
  have hdigits (k : Nat) :
      k = 262144 * (k / 262144) + 4096 * (k / 4096 % 64) + 64 * (k / 64 % 64) + k % 64 := by omega
  have hm := hdigits m
  have hn := hdigits n
  have hbound (k : Nat) : k % 64 < 64 := Nat.mod_lt k (by decide)
  have h₀ := hbound n
  have h₁ := hbound (n / 64)
  have h₂ := hbound (n / 4096)
  generalize m / 262144 = m₃, m / 4096 % 64 = m₂, m / 64 % 64 = m₁, m % 64 = m₀ at *
  generalize n / 262144 = n₃, n / 4096 % 64 = n₂, n / 64 % 64 = n₁, n % 64 = n₀ at *
  omega

/-- The bytes of a smaller character come first, whatever follows. -/
theorem utf8EncodeChar_append_lt {c d : Char} (h : c < d) (xs ys : List UInt8) :
    String.utf8EncodeChar c ++ xs < String.utf8EncodeChar d ++ ys := by
  have hlt : c.val.toNat < d.val.toNat := h
  have hvalid : d.val.toNat < 0x110000 := by
    have := Utf16.toNat_valid d
    have hval : d.val.toNat = d.toNat := rfl
    omega
  have hsextets := sextets_of_lt hlt
  simp only [String.utf8EncodeChar]
  -- One case for each pair of lengths; the longer one first cannot be.
  split_ifs <;> simp (disch := omega) only [List.cons_append, cons_ofNat_lt_cons_ofNat,
    Nat.mod_eq_of_lt] <;> omega

theorem plain_lt_plain {s t : List Char} (h : s < t) : plain s < plain t := by
  induction h with
  | @nil c t =>
    have hpos : 0 < (String.utf8EncodeChar c).length := by
      rw [String.length_utf8EncodeChar]
      exact c.utf8Size_pos
    obtain ⟨b, bytes, hbytes⟩ := List.exists_cons_of_length_pos hpos
    rw [plain_cons, hbytes]
    exact List.nil_lt_cons b _
  | rel h =>
    rw [plain_cons, plain_cons]
    exact utf8EncodeChar_append_lt h _ _
  | cons _ ih =>
    rw [plain_cons, plain_cons]
    exact List.append_left_lt ih

theorem toList_toUTF8 (text : String) : text.toUTF8.data.toList = plain text.toList := by
  have hbytes : text.toUTF8 = (plain text.toList).toByteArray := (toByteArray_plain text).symm
  rw [hbytes, List.toList_data_toByteArray]

theorem lt_iff_bytes {a b : String} :
    a < b ↔ a.toUTF8.data.toList < b.toUTF8.data.toList := by
  rw [toList_toUTF8, toList_toUTF8]
  refine ⟨plain_lt_plain, fun h => ?_⟩
  rcases lt_trichotomy a b with hlt | rfl | hgt
  · exact hlt
  · exact absurd h (List.lt_irrefl _)
  · exact absurd h (List.lt_asymm (plain_lt_plain hgt))

/-- Texts are in order just when their bytes in UTF-8 are. -/
theorem le_iff_bytes {a b : String} :
    a ≤ b ↔ a.toUTF8.data.toList ≤ b.toUTF8.data.toList :=
  not_congr lt_iff_bytes

end ClassXref.ModifiedUtf8
