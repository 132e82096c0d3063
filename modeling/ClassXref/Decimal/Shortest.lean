/-! The shortest decimal that identifies a binary floating-point number. A finite positive double is
`mantissa * 2 ^ exponent`; the reals that round to it form an interval around it, and its shortest
decimal is the one with the fewest digits in that interval, the nearest to the number among those.
All comparisons are between natural numbers. -/
namespace ClassXref.Decimal

/-- A positive number `mantissa * 2 ^ exponent`. The neighbour below is closer than the one above
when the mantissa is the least of its binade. -/
structure Binary where
  mantissa : Nat
  exponent : Int
  closeBelow : Bool := false
  deriving Repr, DecidableEq, Inhabited

/-- A number `digits * 10 ^ exponent`. -/
structure Scientific where
  digits : Nat
  exponent : Int
  deriving Repr, DecidableEq, Inhabited

/-- The magnitude of a double with these bits, which must be neither infinite nor a NaN; `none` for
the zeros. -/
def Binary.ofBits? (bits : UInt64) : Option Binary :=
  let fraction : Nat := bits.toNat % 0x10000000000000
  let biased : Nat := bits.toNat / 0x10000000000000 % 0x800
  if biased = 0 then
    if fraction = 0 then none else some { mantissa := fraction, exponent := -1074 }
  else some { mantissa := 0x10000000000000 + fraction, exponent := (biased : Int) - 1075,
              closeBelow := fraction == 0 && biased != 1 }

/-- Numerator and denominator of a number in quarters of its last place. -/
def Binary.quarters (b : Binary) (count : Nat) : Nat × Nat :=
  (count * Nat.pow 2 (b.exponent - 2).toNat, Nat.pow 2 (2 - b.exponent).toNat)

/-- Numerator and denominator of a decimal. -/
def Scientific.ratio (s : Scientific) : Nat × Nat :=
  (s.digits * Nat.pow 10 s.exponent.toNat, Nat.pow 10 (-s.exponent).toNat)

def ratioLt (a b : Nat × Nat) : Bool := a.1 * b.2 < b.1 * a.2

/-- Whether a decimal rounds to the number: it lies between the midpoints to the neighbours, or on
one of them if the mantissa is even. -/
def Binary.isRoundedFrom (b : Binary) (s : Scientific) : Bool :=
  let low := b.quarters (4 * b.mantissa - if b.closeBelow then 1 else 2)
  let high := b.quarters (4 * b.mantissa + 2)
  if b.mantissa % 2 = 0 then !ratioLt s.ratio low && !ratioLt high s.ratio
  else ratioLt low s.ratio && ratioLt s.ratio high

/-- The largest decimal with this exponent that is not above the number. -/
def Binary.floor (b : Binary) (exponent : Int) : Scientific :=
  let (n, d) := b.quarters (4 * b.mantissa)
  { digits := n * Nat.pow 10 (-exponent).toNat / (d * Nat.pow 10 exponent.toNat), exponent }

/-- Of a decimal not above the number and the next one above it on the same grid, the one that is
nearer to the number, on a tie the even one. -/
def Binary.nearer (b : Binary) (below above : Scientific) : Scientific :=
  let value := b.quarters (4 * b.mantissa)
  let sum : Scientific := { below with digits := below.digits + above.digits }
  let double : Nat × Nat := (2 * value.1, value.2)
  if ratioLt double sum.ratio then below
  else if ratioLt sum.ratio double then above
  else if below.digits % 2 = 0 then below else above

/-- The best decimal on the grid of an exponent, if one there rounds to the number. -/
def Binary.onGrid? (b : Binary) (exponent : Int) : Option Scientific :=
  let below := b.floor exponent
  let above : Scientific := { below with digits := below.digits + 1 }
  match b.isRoundedFrom below, b.isRoundedFrom above with
  | true, true => some (b.nearer below above)
  | true, false => some below
  | false, true => some above
  | false, false => none

/-- The grids that can hold the shortest decimal of a double, coarsest first. -/
def gridExponents : List Int :=
  (List.range 650).map fun (n : Nat) => 310 - (n : Int)

/-- The shortest decimal of a number: the first grid on which one rounds to it. -/
def Binary.shortest (b : Binary) : Scientific :=
  (gridExponents.findSome? b.onGrid?).getD ⟨0, 0⟩

/-- Takes trailing zeros off the digits. -/
def Scientific.trim (s : Scientific) : Scientific :=
  go s.digits s
where
  go : Nat → Scientific → Scientific
    | 0, s => s
    | fuel + 1, s =>
      if s.digits ≠ 0 ∧ s.digits % 10 = 0 then go fuel ⟨s.digits / 10, s.exponent + 1⟩ else s

/-- Where positional notation ends: numbers with a leading digit of these exponents are written
without an exponent. -/
structure FloatFormat where
  leastPositional : Int
  greatestPositional : Int
  deriving Repr, DecidableEq, Inhabited

/-- A number in positional notation or with an exponent after one leading digit. A positional number
keeps at least one digit after the point; a positive exponent has a plus sign. -/
def FloatFormat.text (format : FloatFormat) (s : Scientific) : String :=
  let s := s.trim
  let digits := Nat.toDigits 10 s.digits
  let count : Int := digits.length
  let leading := s.exponent + count - 1
  if format.leastPositional ≤ leading ∧ leading ≤ format.greatestPositional then
    if leading < 0 then
      String.ofList ('0' :: '.' :: (List.replicate (-leading - 1).toNat '0' ++ digits))
    else
      let whole := digits.take (leading + 1).toNat ++ List.replicate s.exponent.toNat '0'
      let fraction := digits.drop (leading + 1).toNat
      String.ofList (whole ++ '.' :: if fraction.isEmpty then ['0'] else fraction)
  else
    let fraction := digits.drop 1
    String.ofList (digits.take 1 ++ (if fraction.isEmpty then [] else '.' :: fraction)
      ++ 'e' :: (if leading < 0 then '-' else '+') :: Nat.toDigits 10 leading.natAbs)

/-- The text of a finite double with these bits. -/
def FloatFormat.ofBits (format : FloatFormat) (bits : UInt64) : String :=
  let sign := if 0x8000000000000000 ≤ bits.toNat then "-" else ""
  match Binary.ofBits? bits with
  | some b => sign ++ format.text b.shortest
  | none => sign ++ "0.0"

end ClassXref.Decimal
