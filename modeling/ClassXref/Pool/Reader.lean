import ClassXref.Bytes.Cursor
import ClassXref.Pool.Constant

/-! Reading a constant pool. The file gives a count that is one more than the number of slots, and
the constants follow without padding. -/
namespace ClassXref

/-- What follows the tag of a constant. -/
def Constant.readBody : ConstantKind → Scan Constant
  | .utf8 => do
    let length ← Scan.u16
    return .utf8 (← Scan.utf8 length.toNat)
  | .integer => return .integer (← Scan.i32)
  | .float => return .float (← Scan.u32)
  | .long => return .long (← Scan.u64).toInt64
  | .double => return .double (← Scan.u64)
  | .classRef => return .classRef (← Scan.u16)
  | .string => return .string (← Scan.u16)
  | .fieldRef => return .fieldRef (← Scan.u16) (← Scan.u16)
  | .methodRef => return .methodRef (← Scan.u16) (← Scan.u16)
  | .interfaceMethodRef => return .interfaceMethodRef (← Scan.u16) (← Scan.u16)
  | .nameAndType => return .nameAndType (← Scan.u16) (← Scan.u16)
  | .methodHandle => return .methodHandle (← Scan.u8) (← Scan.u16)
  | .methodType => return .methodType (← Scan.u16)
  | .dynamic => return .dynamic (← Scan.u16) (← Scan.u16)
  | .invokeDynamic => return .invokeDynamic (← Scan.u16) (← Scan.u16)
  | .module => return .module (← Scan.u16)
  | .package => return .package (← Scan.u16)

/-- A tag and what follows it; `index` is the slot that is being filled. -/
def Constant.read (index : Nat) : Scan Constant := do
  let tag ← Scan.u8
  match ConstantKind.ofTag? tag with
  | some kind => readBody kind
  | none => throw (.unknownTag tag (UInt16.ofNat index))

/-- Fills the slots from `slots.size` up to `count`. A wide constant whose second slot would not be
below `count` is refused. -/
def Pool.readSlots (count : Nat) (slots : Array (Option Constant)) :
    Scan (Array (Option Constant)) :=
  if slots.size < count then do
    let constant ← Constant.read slots.size
    if constant.isWide then
      if slots.size + 1 < count then
        readSlots count ((slots.push (some constant)).push none)
      else throw (.malformed (.wideOverrun (UInt16.ofNat slots.size)))
    else readSlots count (slots.push (some constant))
  else return slots
termination_by count - slots.size
decreasing_by all_goals simp only [Array.size_push]; omega

/-- Reads the pool of a class file whose declared count is `count`. -/
def Pool.read (count : UInt16) : Scan Pool := do
  if count = 0 then throw (.malformed .noPool)
  else return ⟨← readSlots count.toNat #[none]⟩

end ClassXref
