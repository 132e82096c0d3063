/-! Decompression of deflate streams: blocks that are stored as they are, or of symbols in a prefix
code that is fixed or given in the block. A symbol is a byte, a copy of bytes that were written
before, or the end of the block. -/
namespace ClassXref.Inflate

/-- Why decompression stops before the end of the stream. -/
inductive Stop where
  | truncated
  | corrupt
  deriving Repr, DecidableEq, Inhabited

/-- A compressed input, the number of its bits read so far, and what was written. -/
structure State where
  input : ByteArray
  bits : Nat := 0
  output : ByteArray := .empty

abbrev Inflater := EStateM Stop State

/-! ### Bits -/

/-- The next bit; the lowest bit of a byte comes first. -/
def bit : Inflater Nat := do
  let s ← get
  if h : s.bits / 8 < s.input.size then
    set { s with bits := s.bits + 1 }
    return s.input[s.bits / 8].toNat >>> (s.bits % 8) % 2
  else throw .truncated

/-- A number of `n` bits, lowest bit first. -/
def number : Nat → Inflater Nat
  | 0 => return 0
  | n + 1 => do
    let low ← bit
    return low + 2 * (← number n)

/-- Goes on at the next whole byte. -/
def alignToByte : Inflater Unit :=
  modify fun s => { s with bits := (s.bits + 7) / 8 * 8 }

def emit (b : UInt8) : Inflater Unit :=
  modify fun s => { s with output := s.output.push b }

/-! ### Prefix codes -/

def maxCodeLength : Nat := 15

/-- The greatest count of symbols for bytes, the end of the block and lengths of copies. -/
def maxLiterals : Nat := 286

/-- The greatest count of symbols for distances of copies. -/
def maxDistances : Nat := 30

def endOfBlock : Nat := 256

/-- A prefix code in canonical order: how many symbols have a code of each length, and the symbols
by length and then by value. -/
structure PrefixCode where
  counts : List Nat
  symbols : Array Nat

/-- The code in which symbol `i` has length `lengths[i]`, none if that is zero. -/
def PrefixCode.ofLengths (lengths : List Nat) : PrefixCode :=
  let ofLength (n : Nat) := (lengths.zipIdx.filter (·.1 == n)).map (·.2)
  let groups := (List.range maxCodeLength).map fun n => ofLength (n + 1)
  { counts := groups.map List.length, symbols := groups.flatten.toArray }

/-- How many codes of the greatest length are left unused, or `none` if some length has more symbols
than the shorter codes leave room for. -/
def PrefixCode.unused? (code : PrefixCode) : Option Nat :=
  go 1 code.counts
where
  go (room : Nat) : List Nat → Option Nat
    | [] => some room
    | count :: counts => if count ≤ 2 * room then go (2 * room - count) counts else none

/-- Whether every sequence of bits begins with a code. -/
def PrefixCode.isComplete (code : PrefixCode) : Bool :=
  code.unused? == some 0

/-- Whether a block may use the code: it is complete, or has no code of more than one bit. -/
def PrefixCode.isUsable (code : PrefixCode) : Bool :=
  code.isComplete || code.unused?.isSome && (code.counts.drop 1).all (· == 0)

/-- Reads a symbol bit by bit. Codes of one length are consecutive numbers from `first` on. -/
def PrefixCode.read (code : PrefixCode) : Inflater Nat :=
  go 0 0 0 code.counts
where
  go (value first index : Nat) : List Nat → Inflater Nat
    | [] => throw .corrupt
    | count :: counts => do
      let value := 2 * value + (← bit)
      if value < first + count then
        match code.symbols[index + (value - first)]? with
        | some symbol => return symbol
        | none => throw .corrupt
      else go value (2 * (first + count)) (index + count) counts

def fixedLiterals : PrefixCode :=
  .ofLengths (List.replicate 144 8 ++ List.replicate 112 9 ++ List.replicate 24 7 ++
    List.replicate 8 8)

def fixedDistances : PrefixCode := .ofLengths (List.replicate 30 5)

/-! ### Copies -/

/-- The least length and the number of further bits for each symbol from 257 on. -/
def lengthCodes : Array (Nat × Nat) := #[
  (3, 0), (4, 0), (5, 0), (6, 0), (7, 0), (8, 0), (9, 0), (10, 0), (11, 1), (13, 1), (15, 1),
  (17, 1), (19, 2), (23, 2), (27, 2), (31, 2), (35, 3), (43, 3), (51, 3), (59, 3), (67, 4), (83, 4),
  (99, 4), (115, 4), (131, 5), (163, 5), (195, 5), (227, 5), (258, 0)]

/-- The least distance and the number of further bits for each symbol of a distance. -/
def distanceCodes : Array (Nat × Nat) := #[
  (1, 0), (2, 0), (3, 0), (4, 0), (5, 1), (7, 1), (9, 2), (13, 2), (17, 3), (25, 3), (33, 4),
  (49, 4), (65, 5), (97, 5), (129, 6), (193, 6), (257, 7), (385, 7), (513, 8), (769, 8), (1025, 9),
  (1537, 9), (2049, 10), (3073, 10), (4097, 11), (6145, 11), (8193, 12), (12289, 12), (16385, 13),
  (24577, 13)]

/-- A number from a table of least values and further bits. -/
def coded (table : Array (Nat × Nat)) (symbol : Nat) : Inflater Nat := do
  match table[symbol]? with
  | some (least, extra) => return least + (← number extra)
  | none => throw .corrupt

/-- Writes again what stands `distance` bytes back, byte by byte, so that a copy may overlap
itself. -/
def copy (distance : Nat) : Nat → Inflater Unit
  | 0 => return ()
  | n + 1 => do
    let output := (← get).output
    if h : 0 < distance ∧ distance ≤ output.size then
      emit output[output.size - distance]
      copy distance n
    else throw .corrupt

/-! ### Blocks -/

/-- Reads symbols up to the end of a block. Each takes at least one bit, so the bits left bound the
turns. -/
def symbols (literals distances : PrefixCode) : (turns : Nat) → Inflater Unit
  | 0 => throw .truncated
  | turns + 1 => do
    let symbol ← literals.read
    if symbol < 256 then
      emit (UInt8.ofNat symbol)
      symbols literals distances turns
    else if symbol = endOfBlock then return ()
    else
      let length ← coded lengthCodes (symbol - 257)
      let distance ← coded distanceCodes (← distances.read)
      copy distance length
      symbols literals distances turns

def bitsLeft : Inflater Nat := do
  let s ← get
  return 8 * s.input.size - s.bits

/-- A block that is stored: a length, its complement, and that many bytes. -/
def storedBlock : Inflater Unit := do
  alignToByte
  let length ← number 16
  let complement ← number 16
  if length + complement ≠ 65535 then throw .corrupt
  else
    let s ← get
    let start := s.bits / 8
    set { s with
      bits := s.bits + 8 * length, output := s.output ++ s.input.extract start (start + length) }
    if s.input.size < start + length then throw .truncated else return ()

/-- The order in which the lengths of the code for code lengths are given. -/
def lengthOrder : List Nat := [16, 17, 18, 0, 8, 7, 9, 6, 10, 5, 11, 4, 12, 3, 13, 2, 14, 1, 15]

/-- Code lengths up to a given count, those read so far in reverse. Symbols from 16 on repeat the
last length or zero. -/
def codeLengths (code : PrefixCode) (count : Nat) : (turns : Nat) → List Nat → Inflater (List Nat)
  | 0, _ => throw .corrupt
  | turns + 1, done => do
    if done.length = count then return done.reverse
    else if count < done.length then throw .corrupt
    else
      let symbol ← code.read
      if symbol < 16 then codeLengths code count turns (symbol :: done)
      else if symbol = 16 then
        match done with
        | [] => throw .corrupt
        | last :: _ =>
          let times ← number 2
          codeLengths code count turns (List.replicate (times + 3) last ++ done)
      else if symbol = 17 then
        let times ← number 3
        codeLengths code count turns (List.replicate (times + 3) 0 ++ done)
      else
        let times ← number 7
        codeLengths code count turns (List.replicate (times + 11) 0 ++ done)

/-- The codes at the start of a block that gives its own. -/
def blockCodes : Inflater (PrefixCode × PrefixCode) := do
  let literalCount := (← number 5) + 257
  let distanceCount := (← number 5) + 1
  let orderCount := (← number 4) + 4
  let given ← (lengthOrder.take orderCount).mapM fun symbol => return (symbol, ← number 3)
  let code := PrefixCode.ofLengths ((List.range 19).map fun n => (given.lookup n).getD 0)
  if !code.isComplete || maxLiterals < literalCount || maxDistances < distanceCount then
    throw .corrupt
  else
    let count := literalCount + distanceCount
    let lengths ← codeLengths code count (count + 1) []
    let literals := PrefixCode.ofLengths (lengths.take literalCount)
    let distances := PrefixCode.ofLengths (lengths.drop literalCount)
    if literals.isUsable && distances.isUsable && lengths.getD endOfBlock 0 ≠ 0 then
      return (literals, distances)
    else throw .corrupt

/-- One block; the result says whether it is the last. -/
def block : Inflater Bool := do
  let last ← bit
  match ← number 2 with
  | 0 => storedBlock
  | 1 => symbols fixedLiterals fixedDistances ((← bitsLeft) + 1)
  | 2 => do
    let (literals, distances) ← blockCodes
    symbols literals distances ((← bitsLeft) + 1)
  | _ => throw .corrupt
  return last = 1

/-- Blocks up to the last. Each takes at least three bits. -/
def blocks : (turns : Nat) → Inflater Unit
  | 0 => throw .truncated
  | turns + 1 => do
    if ← block then return () else blocks turns

/-- What a stream decompresses to. A stream that is cut off gives what could be read of it; `none`
stands for a corrupt stream. -/
def run (input : ByteArray) : Option ByteArray :=
  match EStateM.run (blocks (8 * input.size + 1)) { input } with
  | .ok _ s => some s.output
  | .error .truncated s => some s.output
  | .error .corrupt _ => none

end ClassXref.Inflate
