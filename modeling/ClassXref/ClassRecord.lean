/-! The inheritance record of a class: its name, what it extends and implements, and its access
flags. -/
namespace ClassXref

/-- The class that everything else extends in the end; it alone needs no super class. -/
def rootClass : String := "java/lang/Object"

/-- The access flags of a class, one bit each. -/
structure ClassAccess where
  bits : UInt16
  deriving Repr, DecidableEq, Inhabited

namespace ClassAccess

def interfaceFlag : UInt16 := 0x0200

def moduleFlag : UInt16 := 0x8000

/-- Whether all the bits of `flags` are set. -/
def contains (access : ClassAccess) (flags : UInt16) : Bool :=
  access.bits &&& flags == flags

def isInterface (access : ClassAccess) : Bool :=
  access.contains interfaceFlag

def isModule (access : ClassAccess) : Bool :=
  access.contains moduleFlag

end ClassAccess

/-- What a class declares about itself. A class without a super class is the root class or describes
a module. -/
structure ClassRecord where
  name : String
  superName : Option String
  interfaces : List String
  access : ClassAccess
  deriving Repr, DecidableEq, Inhabited

namespace ClassRecord

/-- What the class extends and implements, the super class first. -/
def supertypes (r : ClassRecord) : List String :=
  r.superName.toList ++ r.interfaces

/-- Whether `name` is among the direct supertypes. -/
def extendsOrImplements (r : ClassRecord) (name : String) : Bool :=
  r.superName == some name || r.interfaces.any (· == name)

theorem extendsOrImplements_iff {r : ClassRecord} {name : String} :
    r.extendsOrImplements name = true ↔ name ∈ r.supertypes := by
  simp only [extendsOrImplements, supertypes, Bool.or_eq_true, beq_iff_eq, List.any_eq_true,
    List.mem_append, Option.mem_toList, exists_eq_right]

/-- One line: name, super class, flags in decimal, interfaces. The root class is left out as a super
class. -/
def tableRow (r : ClassRecord) : String :=
  let superText := match r.superName with
    | none => ""
    | some name => if name = rootClass then "" else name
  s!"{r.name}|{superText}|{r.access.bits}|" ++ ",".intercalate r.interfaces

end ClassRecord
end ClassXref
