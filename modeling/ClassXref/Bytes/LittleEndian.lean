import ClassXref.Bytes.BigEndian

/-! Numerals of base 256, least significant byte first: those of `BigEndian` read backwards. `field`
reads one from a fixed place in a buffer. -/
namespace ClassXref.LittleEndian

/-- The number that a run of bytes stands for; the empty run stands for zero. -/
def value (bytes : List UInt8) : Nat :=
  BigEndian.value bytes.reverse

/-- The last `width` digits of `n`, with zeros behind them where `n` is shorter. -/
def digits (width n : Nat) : List UInt8 :=
  (BigEndian.digits width n).reverse

theorem value_digits (width n : Nat) :
    value (digits width n) = n % BigEndian.capacity width := by
  rw [value, digits, List.reverse_reverse, BigEndian.value_digits]

/-- The field of `width` bytes at a place in a buffer. Bytes beyond the end are missing digits. -/
def field (data : ByteArray) (start width : Nat) : Nat :=
  value (data.extract start (start + width)).data.toList

end ClassXref.LittleEndian
