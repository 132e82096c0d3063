/-! How the bytes after an opcode are laid out, for every value of the opcode byte. -/
namespace ClassXref

/-- What an operand that indexes the constant pool must designate. -/
inductive PoolOperand where
  | loadable
  | field
  | method
  | invokeDynamic
  | classRef
  deriving Repr, DecidableEq, Inhabited

/-- The shape of an instruction after its opcode. -/
inductive Layout where
  /-- So many operand bytes that refer to nothing. -/
  | plain (width : Nat)
  /-- An index of one byte. -/
  | index8 (operand : PoolOperand)
  /-- An index of two bytes, then so many bytes that refer to nothing. -/
  | index16 (operand : PoolOperand) (extra : Nat)
  /-- Padding, a default target, a low and a high key, and a target for each key between. -/
  | tableSwitch
  /-- Padding, a default target, a count, and that many pairs of key and target. -/
  | lookupSwitch
  /-- Another opcode and its local variable in two bytes. -/
  | wide
  /-- No instruction has this opcode. -/
  | unassigned
  deriving Repr, DecidableEq, Inhabited

namespace Opcode

def iinc : UInt8 := 0x84

def tableSwitch : UInt8 := 0xaa

def lookupSwitch : UInt8 := 0xab

def wide : UInt8 := 0xc4

/-- The layout of every opcode. -/
def layout (opcode : UInt8) : Layout :=
  let op := opcode.toNat
  if op ≤ 0x0f then .plain 0                    -- constants
  else if op = 0x10 then .plain 1               -- bipush
  else if op = 0x11 then .plain 2               -- sipush
  else if op = 0x12 then .index8 .loadable      -- ldc
  else if op ≤ 0x14 then .index16 .loadable 0   -- ldc_w, ldc2_w
  else if op ≤ 0x19 then .plain 1               -- loads of a local variable
  else if op ≤ 0x35 then .plain 0               -- loads of a fixed local, of an array element
  else if op ≤ 0x3a then .plain 1               -- stores to a local variable
  else if op ≤ 0x83 then .plain 0               -- other stores, stack, arithmetic
  else if op = 0x84 then .plain 2               -- iinc
  else if op ≤ 0x98 then .plain 0               -- conversions, comparisons
  else if op ≤ 0xa8 then .plain 2               -- branches, goto, jsr
  else if op = 0xa9 then .plain 1               -- ret
  else if op = 0xaa then .tableSwitch
  else if op = 0xab then .lookupSwitch
  else if op ≤ 0xb1 then .plain 0               -- returns
  else if op ≤ 0xb5 then .index16 .field 0
  else if op ≤ 0xb8 then .index16 .method 0
  else if op = 0xb9 then .index16 .method 2     -- invokeinterface: a count and a zero
  else if op = 0xba then .index16 .invokeDynamic 2
  else if op = 0xbb then .index16 .classRef 0   -- new
  else if op = 0xbc then .plain 1               -- newarray
  else if op = 0xbd then .index16 .classRef 0   -- anewarray
  else if op ≤ 0xbf then .plain 0               -- arraylength, athrow
  else if op ≤ 0xc1 then .index16 .classRef 0   -- checkcast, instanceof
  else if op ≤ 0xc3 then .plain 0               -- monitors
  else if op = 0xc4 then .wide
  else if op = 0xc5 then .index16 .classRef 1   -- multianewarray: a dimension count
  else if op ≤ 0xc7 then .plain 2               -- ifnull, ifnonnull
  else if op ≤ 0xc9 then .plain 4               -- goto_w, jsr_w
  else if op = 0xca then .plain 0               -- breakpoint
  else if op ≤ 0xfd then .unassigned
  else .plain 0                                 -- reserved for debuggers

/-- Whether an opcode may follow `wide`: loads, stores, `ret` and `iinc`. -/
def isWidenable (opcode : UInt8) : Bool :=
  let op := opcode.toNat
  (0x15 ≤ op && op ≤ 0x19) || (0x36 ≤ op && op ≤ 0x3a) || op == 0xa9 || op == 0x84

/-- The operand bytes of a widened opcode: a local variable, for `iinc` also a constant. -/
def wideWidth (opcode : UInt8) : Nat :=
  if opcode = iinc then 4 else 2

/-- How many bytes after the opcode at `offset` bring a switch to a multiple of four. -/
def switchPadding (offset : Nat) : Nat :=
  (4 - (offset + 1) % 4) % 4

theorem switchPadding_lt (offset : Nat) : switchPadding offset < 4 :=
  Nat.mod_lt _ (by decide)

/-- Padding is what is missing to the next multiple of four. -/
theorem aligned_switchPadding (offset : Nat) : (offset + 1 + switchPadding offset) % 4 = 0 := by
  unfold switchPadding
  omega

end Opcode
end ClassXref
