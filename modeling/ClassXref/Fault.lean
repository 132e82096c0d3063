import ClassXref.Descriptor.Basic
import ClassXref.Pool.Kind
import ClassXref.Symbol

/-! Why a class file is refused. A `Fault` concerns one class file; its `message` is the one place
where the wording is chosen. -/
namespace ClassXref

/-- What an operand or bootstrap argument was required to be. -/
inductive Wanted where
  | kind (kind : ConstantKind)
  | loadable
  | bootstrapArgument
  deriving Repr, DecidableEq, Inhabited

def Wanted.text : Wanted → String
  | kind k => k.text
  | loadable => "loadable constant"
  | bootstrapArgument => "bootstrap argument"

/-- Why a text is no field descriptor: it cannot be read, or it is `void`. -/
inductive FieldDescriptorFlaw where
  | unreadable (flaw : DescriptorFlaw)
  | void
  deriving Repr, DecidableEq, Inhabited

/-- Breaches of the class file format other than truncation and bad references. -/
inductive Malformation where
  | noPool
  | wideOverrun (index : UInt16)
  | invalidUtf8 (offset : Nat)
  | handleKind (index : UInt16) (kind : UInt8)
  | magic (found : UInt32)
  | majorVersion (found : UInt16)
  | noSuperClass (name : String)
  | trailingBytes (count : Nat)
  | secondCode (name descriptor : String)
  | codeLength (length : UInt32)
  | attributeOverrun (name : String) (length : UInt32)
  | methodDescriptor (text : String) (flaw : DescriptorFlaw)
  | fieldDescriptor (text : String) (flaw : FieldDescriptorFlaw)
  | missingBootstrap (index : UInt16)
  deriving Repr, DecidableEq, Inhabited

/-- Why reading or walking one class file stopped. Offsets count bytes from the start of the file,
for `desync` and `unassignedOpcode` from the start of the method's code. -/
inductive Fault where
  | truncated (offset needed remaining : Nat)
  | badIndex (index : UInt16)
  | unknownTag (tag : UInt8) (index : UInt16)
  | wrongKind (index : UInt16) (expected : Wanted) (found : ConstantKind)
  | malformed (cause : Malformation)
  | desync (method : Referrer) (offset codeLength : Nat)
  | unassignedOpcode (method : Referrer) (opcode : UInt8) (offset : Nat)
  deriving Repr, DecidableEq, Inhabited

/-- A number in lower-case hexadecimal, with zeros in front up to the given width. -/
def hexText (width n : Nat) : String :=
  let digits := Nat.toDigits 16 n
  String.ofList (List.replicate (width - digits.length) '0' ++ digits)

def Malformation.message : Malformation → String
  | noPool => "constant_pool_count must be at least 1"
  | wideOverrun index => s!"two-slot constant at index {index} overruns the pool"
  | invalidUtf8 offset =>
      s!"invalid modified UTF-8 at offset {offset}: could not convert CESU-8 data to UTF-8"
  | handleKind index kind => s!"method handle {index} has invalid reference kind {kind}"
  | magic found => s!"bad magic 0x{hexText 8 found.toNat}"
  | majorVersion found => s!"unsupported major version {found}"
  | noSuperClass name => s!"{name} has no super class"
  | trailingBytes count => s!"{count} trailing bytes after class attributes"
  | secondCode name descriptor => s!"method {name}{descriptor} has more than one Code attribute"
  | codeLength length => s!"invalid code length {length}"
  | attributeOverrun name length =>
      s!"attribute {name} overran its declared length of {length} bytes"
  | methodDescriptor text flaw => s!"invalid method descriptor {text}: {flaw.message}"
  | fieldDescriptor text (.unreadable flaw) => s!"invalid field descriptor {text}: {flaw.message}"
  | fieldDescriptor text .void => s!"invalid field descriptor {text}"
  | missingBootstrap index => s!"bootstrap method {index} missing from BootstrapMethods"

def Fault.message : Fault → String
  | truncated offset needed remaining =>
      s!"truncated input: needed {needed} bytes at offset {offset}, {remaining} remaining"
  | badIndex index => s!"constant pool index {index} is out of range or a reserved slot"
  | unknownTag tag index => s!"unknown constant pool tag {tag} at index {index}"
  | wrongKind index expected found =>
      s!"constant pool index {index} is {found.text}, expected {expected.text}"
  | malformed cause => s!"malformed class file: {cause.message}"
  | desync method offset codeLength =>
      s!"instruction stream desynchronized in {method.text} at offset {offset} (code length {codeLength})"
  | unassignedOpcode method opcode offset =>
      s!"unassigned opcode 0x{hexText 2 opcode.toNat} in {method.text} at offset {offset}"

/-- A computation that may stop with a fault uses a verdict by going on with its value. -/
instance {σ : Type} : MonadLift (Except Fault) (EStateM Fault σ) where
  monadLift x := match x with
    | .ok a => pure a
    | .error e => throw e

end ClassXref
