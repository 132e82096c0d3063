import ClassXref.Bytes.BigEndian

/-! Numerals as an encoding of fixed width: the digits of a number that fits stand for it, the number
of a run of bytes has those bytes as its digits, and a wide numeral is two narrower ones. -/
namespace ClassXref.BigEndian

theorem value_digits_of_lt {width n : Nat} (h : n < capacity width) :
    value (digits width n) = n := by
  rw [value_digits, Nat.mod_eq_of_lt h]

theorem digits_succ (width n : Nat) :
    digits (width + 1) n = digits width (n / 256) ++ [UInt8.ofNat n] := rfl

theorem digits_value_append (bytes : List UInt8) (b : UInt8) :
    digits (bytes.length + 1) (value (bytes ++ [b])) = digits bytes.length (value bytes) ++ [b] := by
  have hb := b.toNat_lt
  have hquot : (value bytes * 256 + b.toNat) / 256 = value bytes := by omega
  have hlast : UInt8.ofNat (value bytes * 256 + b.toNat) = b := by
    apply UInt8.toNat_inj.mp
    rw [UInt8.toNat_ofNat']
    omega
  rw [digits_succ, value_append_singleton, hquot, hlast]

/-- A run of bytes is the numeral of the number it stands for. -/
theorem digits_value (bytes : List UInt8) : digits bytes.length (value bytes) = bytes := by
  generalize hlen : bytes.length = width
  induction width generalizing bytes with
  | zero => rw [List.length_eq_zero_iff.mp hlen]; rfl
  | succ width ih =>
    have hne : bytes ≠ [] := by
      intro hnil
      rw [hnil, List.length_nil] at hlen
      omega
    obtain ⟨front, b, rfl⟩ : ∃ front b, bytes = front ++ [b] :=
      ⟨_, _, (List.dropLast_concat_getLast hne).symm⟩
    have hfront : front.length = width := by simpa using hlen
    rw [← hfront, digits_value_append, hfront, ih front hfront]

/-- The digits in front are those of the quotient. -/
theorem digits_add (front back n : Nat) :
    digits (front + back) n = digits front (n / capacity back) ++ digits back n := by
  induction back generalizing n with
  | zero => simp [digits, capacity]
  | succ back ih =>
    rw [Nat.add_succ, digits, ih, digits, capacity, Nat.div_div_eq_div_mul, Nat.mul_comm 256,
      List.append_assoc]

/-! ### Numbers of two and four bytes -/

theorem u16_digits (n : UInt16) : UInt16.ofNat (value (digits 2 n.toNat)) = n := by
  rw [value_digits_of_lt n.toNat_lt, UInt16.ofNat_toNat]

theorem u32_digits (n : UInt32) : UInt32.ofNat (value (digits 4 n.toNat)) = n := by
  rw [value_digits_of_lt n.toNat_lt, UInt32.ofNat_toNat]

theorem digits_u16 {bytes : List UInt8} (h : bytes.length = 2) :
    digits 2 (UInt16.ofNat (value bytes)).toNat = bytes := by
  have hvalue := value_lt bytes
  rw [h] at hvalue
  rw [UInt16.toNat_ofNat_of_lt' hvalue, ← h, digits_value]

theorem digits_u32 {bytes : List UInt8} (h : bytes.length = 4) :
    digits 4 (UInt32.ofNat (value bytes)).toNat = bytes := by
  have hvalue := value_lt bytes
  rw [h] at hvalue
  rw [UInt32.toNat_ofNat_of_lt' hvalue, ← h, digits_value]

end ClassXref.BigEndian
