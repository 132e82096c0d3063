import ClassXref.Pool.Kind

/-! Constants as a class file stores them: references to other constants are still indices. A long
or double takes two slots of the pool, every other constant one. -/
namespace ClassXref

/-- One constant. Floating-point constants keep their bits. -/
inductive Constant where
  | utf8 (text : String)
  | integer (value : Int32)
  | float (bits : UInt32)
  | long (value : Int64)
  | double (bits : UInt64)
  | classRef (name : UInt16)
  | string (text : UInt16)
  | fieldRef (owner nameAndType : UInt16)
  | methodRef (owner nameAndType : UInt16)
  | interfaceMethodRef (owner nameAndType : UInt16)
  | nameAndType (name descriptor : UInt16)
  | methodHandle (kind : UInt8) (target : UInt16)
  | methodType (descriptor : UInt16)
  | dynamic (bootstrap nameAndType : UInt16)
  | invokeDynamic (bootstrap nameAndType : UInt16)
  | module (name : UInt16)
  | package (name : UInt16)
  deriving Repr, DecidableEq, Inhabited

namespace Constant

def kind : Constant → ConstantKind
  | utf8 _ => .utf8
  | integer _ => .integer
  | float _ => .float
  | long _ => .long
  | double _ => .double
  | classRef _ => .classRef
  | string _ => .string
  | fieldRef _ _ => .fieldRef
  | methodRef _ _ => .methodRef
  | interfaceMethodRef _ _ => .interfaceMethodRef
  | nameAndType _ _ => .nameAndType
  | methodHandle _ _ => .methodHandle
  | methodType _ => .methodType
  | dynamic _ _ => .dynamic
  | invokeDynamic _ _ => .invokeDynamic
  | module _ => .module
  | package _ => .package

/-- Whether the constant takes a second slot, which no index may designate. -/
def isWide : Constant → Bool
  | long _ | double _ => true
  | _ => false

/-- The slots a constant takes; `none` marks a slot that no index may designate. -/
def slots (c : Constant) : List (Option Constant) :=
  if c.isWide then [some c, none] else [some c]

end Constant

/-- The slots of a class file's constant pool, slot zero included. -/
structure Pool where
  slots : Array (Option Constant)
  deriving Repr, DecidableEq, Inhabited

/-- The pool that holds the given constants in order. -/
def Pool.ofConstants (constants : List Constant) : Pool :=
  ⟨(none :: constants.flatMap Constant.slots).toArray⟩

/-- The number of slots. -/
def Pool.size (pool : Pool) : Nat := pool.slots.size

end ClassXref
