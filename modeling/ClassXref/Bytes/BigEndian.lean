/-! Numerals of base 256, most significant byte first. `value` reads a run of bytes as one number,
`digits` writes a number in a fixed count of bytes. `value_digits` says that writing and reading
back keeps the number up to what the width can hold. -/
namespace ClassXref.BigEndian

/-- The number that a run of bytes stands for; the empty run stands for zero. -/
def value (bytes : List UInt8) : Nat :=
  bytes.foldl (fun n b => n * 256 + b.toNat) 0

/-- The last `width` digits of `n`, with leading zeros where `n` is shorter. -/
def digits : Nat → Nat → List UInt8
  | 0, _ => []
  | width + 1, n => digits width (n / 256) ++ [UInt8.ofNat n]

@[simp] theorem length_digits (width n : Nat) : (digits width n).length = width := by
  induction width generalizing n with
  | zero => rfl
  | succ width ih => simp [digits, ih]

@[simp] theorem value_nil : value [] = 0 := rfl

theorem value_append_singleton (bytes : List UInt8) (b : UInt8) :
    value (bytes ++ [b]) = value bytes * 256 + b.toNat := by
  simp [value]

/-- How many numbers a numeral of so many bytes can stand for. -/
def capacity : Nat → Nat
  | 0 => 1
  | width + 1 => capacity width * 256

theorem value_digits (width n : Nat) : value (digits width n) = n % capacity width := by
  induction width generalizing n with
  | zero => simp [digits, capacity, Nat.mod_one]
  | succ width ih =>
    have hb : (UInt8.ofNat n).toNat = n % 256 := by simp
    rw [digits, value_append_singleton, ih, hb, capacity, Nat.mul_comm (capacity width),
      Nat.mod_mul]
    omega

theorem value_lt (bytes : List UInt8) : value bytes < capacity bytes.length := by
  suffices h : ∀ n, bytes.foldl (fun n b => n * 256 + b.toNat) n <
      (n + 1) * capacity bytes.length by
    simpa [value] using h 0
  induction bytes with
  | nil => simp [capacity]
  | cons b bytes ih =>
    intro n
    refine Nat.lt_of_lt_of_le (ih (n * 256 + b.toNat)) ?_
    rw [List.length_cons, capacity, Nat.mul_comm (capacity bytes.length), ← Nat.mul_assoc]
    apply Nat.mul_le_mul_right
    have := b.toNat_lt
    omega

end ClassXref.BigEndian
