import ClassXref.Bytecode.Layout
import ClassXref.Bytes.BigEndian

/-! Instructions with all their bytes, so that `encode` gives back what `decode` took. Where a switch
stands decides how much padding it has; nothing else depends on the offset. -/
namespace ClassXref

/-- One instruction. Numbers keep the width they have in the file, and operands that refer to nothing
are kept as bytes. -/
inductive Instruction where
  | plain (opcode : UInt8) (operands : List UInt8)
  | index8 (opcode : UInt8) (operand : PoolOperand) (index : UInt8)
  | index16 (opcode : UInt8) (operand : PoolOperand) (index : UInt16) (extra : List UInt8)
  | tableSwitch (padding : List UInt8) (default low high : Int32) (targets : List UInt8)
  | lookupSwitch (padding : List UInt8) (default pairs : Int32) (table : List UInt8)
  | wide (opcode : UInt8) (operands : List UInt8)
  deriving Repr, DecidableEq, Inhabited

/-- Why no instruction starts at an offset: its operands are cut off or contradict each other, or
the opcode is assigned to none. -/
inductive Undecodable where
  | misshapen
  | unassigned (opcode : UInt8)
  deriving Repr, DecidableEq, Inhabited

namespace Instruction

/-- The front `n` elements and the rest, if there are as many. Looks at no more than `n`. -/
def splitExact? (n : Nat) (xs : List α) : Option (List α × List α) :=
  if reaches n xs then some (xs.splitAt n) else none
where
  /-- Whether a list has at least `n` elements. -/
  reaches : Nat → List α → Bool
    | 0, _ => true
    | _ + 1, [] => false
    | n + 1, _ :: xs => reaches n xs

/-- The operand bytes of a numeral of `n` bytes, and the bytes behind it. -/
def operand (n : Nat) (bytes : List UInt8) : Except Undecodable (List UInt8 × List UInt8) :=
  match splitExact? n bytes with
  | some split => .ok split
  | none => .error .misshapen

def int32 (bytes : List UInt8) : Except Undecodable (Int32 × List UInt8) := do
  let (digits, rest) ← operand 4 bytes
  return ((UInt32.ofNat (BigEndian.value digits)).toInt32, rest)

/-- The instruction with this opcode at this offset, read from the bytes behind the opcode. -/
def decodeOperands (offset : Nat) (opcode : UInt8) (bytes : List UInt8) :
    Except Undecodable (Instruction × List UInt8) := do
  match Opcode.layout opcode with
  | .plain width =>
    let (operands, rest) ← operand width bytes
    return (.plain opcode operands, rest)
  | .index8 kind =>
    let (index, rest) ← operand 1 bytes
    return (.index8 opcode kind (UInt8.ofNat (BigEndian.value index)), rest)
  | .index16 kind extra =>
    let (index, rest) ← operand 2 bytes
    let (extra, rest) ← operand extra rest
    return (.index16 opcode kind (UInt16.ofNat (BigEndian.value index)) extra, rest)
  | .tableSwitch =>
    let (padding, rest) ← operand (Opcode.switchPadding offset) bytes
    let (default, rest) ← int32 rest
    let (low, rest) ← int32 rest
    let (high, rest) ← int32 rest
    if high < low then throw .misshapen
    else do
      let (targets, rest) ← operand ((high.toInt - low.toInt + 1).toNat * 4) rest
      return (.tableSwitch padding default low high targets, rest)
  | .lookupSwitch =>
    let (padding, rest) ← operand (Opcode.switchPadding offset) bytes
    let (default, rest) ← int32 rest
    let (pairs, rest) ← int32 rest
    if pairs < 0 then throw .misshapen
    else do
      let (table, rest) ← operand (pairs.toInt.toNat * 8) rest
      return (.lookupSwitch padding default pairs table, rest)
  | .wide =>
    let (widened, rest) ← operand 1 bytes
    let widened := UInt8.ofNat (BigEndian.value widened)
    if Opcode.isWidenable widened then
      let (operands, rest) ← operand (Opcode.wideWidth widened) rest
      return (.wide widened operands, rest)
    else throw .misshapen
  | .unassigned => throw (.unassigned opcode)

/-- The instruction at the front of the bytes that start at `offset`, and the bytes behind it. -/
def decode (offset : Nat) : List UInt8 → Except Undecodable (Instruction × List UInt8)
  | [] => .error .misshapen
  | opcode :: bytes => decodeOperands offset opcode bytes

/-- A number in two's complement in four bytes. -/
def int32Bytes (n : Int32) : List UInt8 :=
  BigEndian.digits 4 n.toUInt32.toNat

/-- The bytes of an instruction, opcode first. -/
def encode : Instruction → List UInt8
  | plain opcode operands => opcode :: operands
  | index8 opcode _ index => [opcode, index]
  | index16 opcode _ index extra => opcode :: (BigEndian.digits 2 index.toNat ++ extra)
  | tableSwitch padding default low high targets =>
    Opcode.tableSwitch ::
      (padding ++ int32Bytes default ++ int32Bytes low ++ int32Bytes high ++ targets)
  | lookupSwitch padding default pairs table =>
    Opcode.lookupSwitch :: (padding ++ int32Bytes default ++ int32Bytes pairs ++ table)
  | wide opcode operands => Opcode.wide :: opcode :: operands

/-- How many bytes an instruction takes, opcode included. -/
def size (instruction : Instruction) : Nat :=
  instruction.encode.length

/-! ### What decoding takes off the front -/

theorem reaches_iff {n : Nat} {xs : List α} : splitExact?.reaches n xs = true ↔ n ≤ xs.length := by
  induction n generalizing xs with
  | zero => simp [splitExact?.reaches]
  | succ n ih => cases xs <;> simp [splitExact?.reaches, ih]

theorem operand_eq_ok_iff {n : Nat} {bytes front rest : List UInt8} :
    operand n bytes = .ok (front, rest) ↔ bytes = front ++ rest ∧ front.length = n := by
  unfold operand splitExact?
  by_cases h : splitExact?.reaches n bytes = true
  · rw [if_pos h]
    rw [reaches_iff] at h
    simp only [List.splitAt_eq, Except.ok.injEq, Prod.mk.injEq]
    constructor
    · rintro ⟨rfl, rfl⟩
      exact ⟨(List.take_append_drop n bytes).symm, by simp [h]⟩
    · rintro ⟨rfl, rfl⟩
      simp
  · rw [if_neg h]
    rw [reaches_iff] at h
    simp only [reduceCtorEq, false_iff, not_and]
    rintro rfl hn
    simp [← hn] at h

private theorem bind_eq_ok {x : Except ε α} {f : α → Except ε β} {b : β} :
    (x >>= f) = .ok b ↔ ∃ a, x = .ok a ∧ f a = .ok b := by
  cases x <;> simp [bind, Except.bind]

private theorem suffix_of_operand {n : Nat} {bytes front rest : List UInt8}
    (h : operand n bytes = .ok (front, rest)) : rest <:+ bytes :=
  ⟨front, (operand_eq_ok_iff.1 h).1.symm⟩

private theorem suffix_of_int32 {bytes rest : List UInt8} {n : Int32}
    (h : int32 bytes = .ok (n, rest)) : rest <:+ bytes := by
  obtain ⟨⟨front, tail⟩, hop, h⟩ := bind_eq_ok.1 h
  cases h
  exact suffix_of_operand hop

theorem suffix_of_decodeOperands {offset : Nat} {opcode : UInt8} {bytes rest : List UInt8}
    {instruction : Instruction}
    (h : decodeOperands offset opcode bytes = .ok (instruction, rest)) : rest <:+ bytes := by
  unfold decodeOperands at h
  split at h
  · obtain ⟨⟨_, r⟩, h1, h⟩ := bind_eq_ok.1 h
    cases h
    exact suffix_of_operand h1
  · obtain ⟨⟨_, r⟩, h1, h⟩ := bind_eq_ok.1 h
    cases h
    exact suffix_of_operand h1
  · obtain ⟨⟨_, r⟩, h1, h⟩ := bind_eq_ok.1 h
    obtain ⟨⟨_, r⟩, h2, h⟩ := bind_eq_ok.1 h
    cases h
    exact (suffix_of_operand h2).trans (suffix_of_operand h1)
  · obtain ⟨⟨_, r⟩, h1, h⟩ := bind_eq_ok.1 h
    obtain ⟨⟨_, r⟩, h2, h⟩ := bind_eq_ok.1 h
    obtain ⟨⟨_, r⟩, h3, h⟩ := bind_eq_ok.1 h
    obtain ⟨⟨_, r⟩, h4, h⟩ := bind_eq_ok.1 h
    dsimp only at h
    split at h
    · cases h
    obtain ⟨⟨_, r⟩, h5, h⟩ := bind_eq_ok.1 h
    cases h
    exact (suffix_of_operand h5).trans <| (suffix_of_int32 h4).trans <| (suffix_of_int32 h3).trans <|
      (suffix_of_int32 h2).trans (suffix_of_operand h1)
  · obtain ⟨⟨_, r⟩, h1, h⟩ := bind_eq_ok.1 h
    obtain ⟨⟨_, r⟩, h2, h⟩ := bind_eq_ok.1 h
    obtain ⟨⟨_, r⟩, h3, h⟩ := bind_eq_ok.1 h
    dsimp only at h
    split at h
    · cases h
    obtain ⟨⟨_, r⟩, h4, h⟩ := bind_eq_ok.1 h
    cases h
    exact (suffix_of_operand h4).trans <| (suffix_of_int32 h3).trans <| (suffix_of_int32 h2).trans
      (suffix_of_operand h1)
  · obtain ⟨⟨_, r⟩, h1, h⟩ := bind_eq_ok.1 h
    dsimp only at h
    split at h
    · obtain ⟨⟨_, r⟩, h2, h⟩ := bind_eq_ok.1 h
      cases h
      exact (suffix_of_operand h2).trans (suffix_of_operand h1)
    · cases h
  · cases h

theorem length_lt_of_decode {offset : Nat} {bytes rest : List UInt8} {instruction : Instruction}
    (h : decode offset bytes = .ok (instruction, rest)) : rest.length < bytes.length := by
  cases bytes with
  | nil => cases h
  | cons opcode bytes => exact Nat.lt_succ_of_le (suffix_of_decodeOperands h).length_le

end Instruction
end ClassXref
