import ClassXref.ClassFile.Basic
import ClassXref.Pool.Reader
import ClassXref.Pool.Resolve

/-! Reading a class file. Tables are a count and that many entries. An attribute is a name, a length
and a body: bodies that are not interpreted are passed over by their length, and after an interpreted
one the reader goes on at the declared end, however much of the body it has looked at. -/
namespace ClassXref.ClassFile

/-- A count in two bytes and that many entries. -/
def table (entry : Scan α) : Scan (List α) := do
  let count ← Scan.u16
  Scan.times count.toNat entry

/-- An index in two bytes and the class name it designates. -/
def className (pool : Pool) : Scan String := do
  pool.className (← Scan.u16)

/-- An index in two bytes and the text it designates. -/
def text (pool : Pool) : Scan String := do
  pool.utf8 (← Scan.u16)

/-- One attribute. `body` reads what it knows of the body of the attribute named; it must not read
past the declared end. -/
def readAttribute (pool : Pool) (body : String → σ → Scan σ) (state : σ) : Scan σ := do
  let name ← text pool
  let length ← Scan.u32
  let start ← Scan.position
  let left ← Scan.remaining
  if left < length.toNat then throw (.truncated start length.toNat left)
  else do
    let state ← body name state
    let reached ← Scan.position
    if start + length.toNat < reached then throw (.malformed (.attributeOverrun name length))
    else do
      Scan.seek (start + length.toNat)
      return state

/-- A table of attributes, each of which may change what the earlier ones left. -/
def readAttributes (pool : Pool) (body : String → σ → Scan σ) (start : σ) : Scan σ := do
  let count ← Scan.u16
  Scan.iterate count.toNat (readAttribute pool body) start

/-- A table of attributes of which none is interpreted. -/
def skipAttributes (pool : Pool) : Scan Unit :=
  readAttributes pool (fun _ _ => return ()) ()

def field (pool : Pool) : Scan Field := do
  let access ← Scan.u16
  let name ← text pool
  let descriptor ← text pool
  skipAttributes pool
  return { access, name, descriptor }

def handler (pool : Pool) : Scan Handler := do
  let startPc ← Scan.u16
  let endPc ← Scan.u16
  let handlerPc ← Scan.u16
  let index ← Scan.u16
  if index = 0 then return { startPc, endPc, handlerPc, catchType := none }
  else return { startPc, endPc, handlerPc, catchType := some (← pool.className index) }

/-- The body of a `Code` attribute. -/
def code (pool : Pool) : Scan Code := do
  let _maxStack ← Scan.u16
  let _maxLocals ← Scan.u16
  let length ← Scan.u32
  if length = 0 ∨ maxCodeLength < length then throw (.malformed (.codeLength length))
  else do
    let bytes ← Scan.take length.toNat
    let handlers ← table (handler pool)
    skipAttributes pool
    return { bytes, handlers }

/-- What the attributes of a method have contributed so far. -/
structure MethodBody where
  exceptions : List String := []
  code : Option Code := none

/-- Reads a `Code` attribute, of which a method may have one, or adds an `Exceptions` table to the
earlier ones. -/
def methodAttribute (pool : Pool) (name descriptor found : String) (body : MethodBody) :
    Scan MethodBody :=
  if found = "Code" then
    if body.code.isSome then throw (.malformed (.secondCode name descriptor))
    else return { body with code := some (← code pool) }
  else if found = "Exceptions" then
    return { body with exceptions := body.exceptions ++ (← table (className pool)) }
  else return body

def method (pool : Pool) : Scan Method := do
  let access ← Scan.u16
  let name ← text pool
  let descriptor ← text pool
  let body ← readAttributes pool (methodAttribute pool name descriptor) {}
  return { access, name, descriptor, exceptions := body.exceptions, code := body.code }

def bootstrapMethod : Scan BootstrapMethod := do
  let handle ← Scan.u16
  let arguments ← table Scan.u16
  return { handle, arguments }

/-- Reads a `BootstrapMethods` attribute, which replaces an earlier one. -/
def classAttribute (found : String) (earlier : List BootstrapMethod) :
    Scan (List BootstrapMethod) :=
  if found = "BootstrapMethods" then table bootstrapMethod else return earlier

/-- The super class: index zero means none, which only the root class and modules may have. -/
def superName (pool : Pool) (name : String) (access : ClassAccess) : Scan (Option String) := do
  let index ← Scan.u16
  if index = 0 then
    if name = rootClass ∨ access.isModule then return none
    else throw (.malformed (.noSuperClass name))
  else return some (← pool.className index)

/-- What stands before the constant pool; the result is the major version. -/
def header : Scan UInt16 := do
  let found ← Scan.u32
  if found ≠ magic then throw (.malformed (.magic found))
  else do
    let _minor ← Scan.u16
    let major ← Scan.u16
    if major < minMajorVersion ∨ maxMajorVersion < major then
      throw (.malformed (.majorVersion major))
    else return major

/-- Fails unless the cursor is at the end. -/
def atEnd : Scan Unit := do
  let left ← Scan.remaining
  if left = 0 then return () else throw (.malformed (.trailingBytes left))

/-- A class file from its first byte to its last. -/
def scan : Scan ClassFile := do
  let majorVersion ← header
  let count ← Scan.u16
  let pool ← Pool.read count
  let access : ClassAccess := ⟨← Scan.u16⟩
  let name ← className pool
  let superName ← superName pool name access
  let interfaces ← table (className pool)
  let fields ← table (field pool)
  let methods ← table (method pool)
  let bootstrapMethods ← readAttributes pool classAttribute []
  atEnd
  return { record := { name, superName, interfaces, access }, majorVersion, pool, fields, methods,
           bootstrapMethods }

/-- The class file that a buffer holds. -/
def parse (data : ByteArray) : Except Fault ClassFile :=
  Scan.run scan data

end ClassXref.ClassFile
