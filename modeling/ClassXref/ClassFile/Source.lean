import ClassXref.ClassFile.Basic
import ClassXref.Pool.Resolve
import ClassXref.Pool.Writer

/-! Class files as they are written: every name is an index into the constant pool, and attributes
that nobody interprets keep their bytes. `encode` lays a source out in bytes, and `resolve` says
what it stands for. -/
namespace ClassXref

open BigEndian (digits)

/-- An attribute that is passed over. -/
structure RawAttribute where
  name : UInt16
  body : List UInt8
  deriving Repr, DecidableEq, Inhabited

/-- A handler whose catch type is an index; zero handles every exception. -/
structure HandlerSource where
  startPc : UInt16
  endPc : UInt16
  handlerPc : UInt16
  catchType : UInt16
  deriving Repr, DecidableEq, Inhabited

structure CodeSource where
  maxStack : UInt16
  maxLocals : UInt16
  bytes : List UInt8
  handlers : List HandlerSource
  attributes : List RawAttribute
  deriving Repr, DecidableEq, Inhabited

/-- An attribute of a method, under the index of its name. -/
inductive MethodAttribute where
  | code (name : UInt16) (code : CodeSource)
  | exceptions (name : UInt16) (classes : List UInt16)
  | other (raw : RawAttribute)
  deriving Repr, DecidableEq, Inhabited

/-- An attribute of a class, under the index of its name. -/
inductive ClassAttribute where
  | bootstrapMethods (name : UInt16) (methods : List BootstrapMethod)
  | other (raw : RawAttribute)
  deriving Repr, DecidableEq, Inhabited

structure FieldSource where
  access : UInt16
  name : UInt16
  descriptor : UInt16
  attributes : List RawAttribute
  deriving Repr, DecidableEq, Inhabited

structure MethodSource where
  access : UInt16
  name : UInt16
  descriptor : UInt16
  attributes : List MethodAttribute
  deriving Repr, DecidableEq, Inhabited

structure ClassSource where
  minorVersion : UInt16
  majorVersion : UInt16
  constants : List Constant
  access : UInt16
  thisClass : UInt16
  superClass : UInt16
  interfaces : List UInt16
  fields : List FieldSource
  methods : List MethodSource
  attributes : List ClassAttribute
  deriving Repr, DecidableEq, Inhabited

/-! ### Layout in bytes -/

def encodeIndex (index : UInt16) : List UInt8 := digits 2 index.toNat

/-- A count in two bytes and that many entries. -/
def encodeTable (entry : α → List UInt8) (entries : List α) : List UInt8 :=
  digits 2 entries.length ++ entries.flatMap entry

/-- The index of a name, a length in four bytes and a body of that length. -/
def encodeAttribute (name : UInt16) (body : List UInt8) : List UInt8 :=
  encodeIndex name ++ digits 4 body.length ++ body

def RawAttribute.encode (a : RawAttribute) : List UInt8 :=
  encodeAttribute a.name a.body

def HandlerSource.encode (h : HandlerSource) : List UInt8 :=
  encodeIndex h.startPc ++ encodeIndex h.endPc ++ encodeIndex h.handlerPc ++
    encodeIndex h.catchType

/-- The body of a `Code` attribute. -/
def CodeSource.encode (c : CodeSource) : List UInt8 :=
  encodeIndex c.maxStack ++ encodeIndex c.maxLocals ++ digits 4 c.bytes.length ++ c.bytes ++
    encodeTable HandlerSource.encode c.handlers ++ encodeTable RawAttribute.encode c.attributes

def MethodAttribute.encode : MethodAttribute → List UInt8
  | code name source => encodeAttribute name source.encode
  | exceptions name classes => encodeAttribute name (encodeTable encodeIndex classes)
  | other raw => raw.encode

def BootstrapMethod.encode (b : BootstrapMethod) : List UInt8 :=
  encodeIndex b.handle ++ encodeTable encodeIndex b.arguments

def ClassAttribute.encode : ClassAttribute → List UInt8
  | bootstrapMethods name methods =>
    encodeAttribute name (encodeTable BootstrapMethod.encode methods)
  | other raw => raw.encode

def FieldSource.encode (f : FieldSource) : List UInt8 :=
  encodeIndex f.access ++ encodeIndex f.name ++ encodeIndex f.descriptor ++
    encodeTable RawAttribute.encode f.attributes

def MethodSource.encode (m : MethodSource) : List UInt8 :=
  encodeIndex m.access ++ encodeIndex m.name ++ encodeIndex m.descriptor ++
    encodeTable MethodAttribute.encode m.attributes

namespace ClassSource

/-- The pool of the source. -/
def pool (s : ClassSource) : Pool := .ofConstants s.constants

def encode (s : ClassSource) : List UInt8 :=
  digits 4 ClassFile.magic.toNat ++ encodeIndex s.minorVersion ++ encodeIndex s.majorVersion ++
    digits 2 s.pool.size ++ Pool.encode s.constants ++
    encodeIndex s.access ++ encodeIndex s.thisClass ++ encodeIndex s.superClass ++
    encodeTable encodeIndex s.interfaces ++ encodeTable FieldSource.encode s.fields ++
    encodeTable MethodSource.encode s.methods ++ encodeTable ClassAttribute.encode s.attributes

end ClassSource

/-! ### Content -/

/-- The class at an index, where index zero stands for none. -/
def Pool.className? (pool : Pool) (index : UInt16) : Except Fault (Option String) :=
  if index = 0 then .ok none else some <$> pool.className index

def FieldSource.resolve (pool : Pool) (f : FieldSource) : Except Fault Field := do
  return { access := f.access, name := ← pool.utf8 f.name, descriptor := ← pool.utf8 f.descriptor }

def HandlerSource.resolve (pool : Pool) (h : HandlerSource) : Except Fault Handler := do
  return { startPc := h.startPc, endPc := h.endPc, handlerPc := h.handlerPc,
           catchType := ← pool.className? h.catchType }

def CodeSource.resolve (pool : Pool) (c : CodeSource) : Except Fault Code := do
  return { bytes := c.bytes, handlers := ← c.handlers.mapM (·.resolve pool) }

namespace MethodAttribute

def code? : MethodAttribute → Option CodeSource
  | code _ source => some source
  | _ => none

def classes : MethodAttribute → List UInt16
  | exceptions _ classes => classes
  | _ => []

end MethodAttribute

def ClassAttribute.methods? : ClassAttribute → Option (List BootstrapMethod)
  | bootstrapMethods _ methods => some methods
  | _ => none

namespace MethodSource

/-- The first code among the attributes; a method is meant to have no other. -/
def code? (m : MethodSource) : Option CodeSource :=
  m.attributes.findSome? MethodAttribute.code?

/-- The classes of all `Exceptions` attributes in order. -/
def exceptions (m : MethodSource) : List UInt16 :=
  m.attributes.flatMap MethodAttribute.classes

def resolve (pool : Pool) (m : MethodSource) : Except Fault Method := do
  return { access := m.access, name := ← pool.utf8 m.name, descriptor := ← pool.utf8 m.descriptor,
           exceptions := ← m.exceptions.mapM pool.className,
           code := ← m.code?.mapM (·.resolve pool) }

end MethodSource

namespace ClassSource

/-- The methods of the last `BootstrapMethods` attribute. -/
def bootstrapMethods (s : ClassSource) : List BootstrapMethod :=
  (s.attributes.reverse.findSome? ClassAttribute.methods?).getD []

/-- The inheritance record; index zero stands for no super class. -/
def record (s : ClassSource) : Except Fault ClassRecord := do
  return { name := ← s.pool.className s.thisClass, superName := ← s.pool.className? s.superClass,
           interfaces := ← s.interfaces.mapM s.pool.className, access := ⟨s.access⟩ }

/-- The class file that the source stands for, with all names looked up. -/
def resolve (s : ClassSource) : Except Fault ClassFile := do
  return { record := ← s.record, majorVersion := s.majorVersion, pool := s.pool,
           fields := ← s.fields.mapM (·.resolve s.pool),
           methods := ← s.methods.mapM (·.resolve s.pool),
           bootstrapMethods := s.bootstrapMethods }

end ClassSource
end ClassXref
