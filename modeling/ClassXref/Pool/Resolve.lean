import ClassXref.Fault
import ClassXref.Pool.Constant

/-! Following the indices of a constant pool. Each function names the kind it requires; a bad link
is reported with the index that holds it, and links are followed in the order in which the constant
stores them. -/
namespace ClassXref

/-- What a method handle gives access to. -/
inductive HandleTarget where
  | field (member : MemberRef)
  | method (member : MemberRef)
  deriving Repr, DecidableEq, Inhabited

def HandleTarget.symbol : HandleTarget → Symbol
  | field member => .ofField member
  | method member => .ofMethod member

namespace Pool

/-- The constant at an index. Slot zero and the second slot of a wide constant hold none. -/
def constant (pool : Pool) (index : UInt16) : Except Fault Constant :=
  match pool.slots[index.toNat]? with
  | some (some c) => .ok c
  | _ => .error (.badIndex index)

/-- The text of a `Utf8` constant. -/
def utf8 (pool : Pool) (index : UInt16) : Except Fault String := do
  match ← pool.constant index with
  | .utf8 text => return text
  | other => throw (.wrongKind index (.kind .utf8) other.kind)

/-- The name of a `Class` constant, as it is stored: of an array type it is a descriptor. -/
def className (pool : Pool) (index : UInt16) : Except Fault String := do
  match ← pool.constant index with
  | .classRef name => pool.utf8 name
  | other => throw (.wrongKind index (.kind .classRef) other.kind)

/-- A name and a descriptor. -/
def nameAndType (pool : Pool) (index : UInt16) : Except Fault (String × String) := do
  match ← pool.constant index with
  | .nameAndType name descriptor => return (← pool.utf8 name, ← pool.utf8 descriptor)
  | other => throw (.wrongKind index (.kind .nameAndType) other.kind)

def member (pool : Pool) (owner nameAndType : UInt16) : Except Fault MemberRef := do
  let owner ← pool.className owner
  let (name, descriptor) ← pool.nameAndType nameAndType
  return { owner, name, descriptor }

def fieldRef (pool : Pool) (index : UInt16) : Except Fault MemberRef := do
  match ← pool.constant index with
  | .fieldRef owner nameAndType => pool.member owner nameAndType
  | other => throw (.wrongKind index (.kind .fieldRef) other.kind)

/-- A method of a class or of an interface. -/
def methodRef (pool : Pool) (index : UInt16) : Except Fault MemberRef := do
  match ← pool.constant index with
  | .methodRef owner nameAndType => pool.member owner nameAndType
  | .interfaceMethodRef owner nameAndType => pool.member owner nameAndType
  | other => throw (.wrongKind index (.kind .methodRef) other.kind)

/-- The target of a method handle: kinds 1 to 4 reach fields, 5 to 9 methods. -/
def methodHandle (pool : Pool) (index : UInt16) : Except Fault HandleTarget := do
  match ← pool.constant index with
  | .methodHandle kind target =>
    if 1 ≤ kind ∧ kind ≤ 4 then return .field (← pool.fieldRef target)
    else if 5 ≤ kind ∧ kind ≤ 9 then return .method (← pool.methodRef target)
    else throw (.malformed (.handleKind index kind))
  | other => throw (.wrongKind index (.kind .methodHandle) other.kind)

/-- The descriptor of a `MethodType` constant. -/
def methodType (pool : Pool) (index : UInt16) : Except Fault String := do
  match ← pool.constant index with
  | .methodType descriptor => pool.utf8 descriptor
  | other => throw (.wrongKind index (.kind .methodType) other.kind)

end Pool
end ClassXref
