import ClassXref.ClassRecord
import ClassXref.Pool.Constant

/-! The parts of a class file that the index looks at. Names are resolved, the bytes of a method's
code are not yet split into instructions, and bootstrap methods keep their indices. -/
namespace ClassXref

structure Field where
  access : UInt16
  name : String
  descriptor : String
  deriving Repr, DecidableEq, Inhabited

/-- A range of code, the code that handles exceptions there, and the class it handles; `none`
handles every exception. -/
structure Handler where
  startPc : UInt16
  endPc : UInt16
  handlerPc : UInt16
  catchType : Option String
  deriving Repr, DecidableEq, Inhabited

/-- The body of a method. -/
structure Code where
  bytes : List UInt8
  handlers : List Handler
  deriving Repr, DecidableEq, Inhabited

/-- A method. `exceptions` are the classes it declares to throw, and abstract and native methods
have no code. -/
structure Method where
  access : UInt16
  name : String
  descriptor : String
  exceptions : List String
  code : Option Code
  deriving Repr, DecidableEq, Inhabited

/-- A method handle and static arguments, both as indices of the constant pool. -/
structure BootstrapMethod where
  handle : UInt16
  arguments : List UInt16
  deriving Repr, DecidableEq, Inhabited

structure ClassFile where
  record : ClassRecord
  majorVersion : UInt16
  pool : Pool
  fields : List Field
  methods : List Method
  bootstrapMethods : List BootstrapMethod
  deriving Repr, DecidableEq, Inhabited

namespace ClassFile

def magic : UInt32 := 0xCAFEBABE

def minMajorVersion : UInt16 := 45

def maxMajorVersion : UInt16 := 70

/-- The length of code that a method may have is between one and this. -/
def maxCodeLength : UInt32 := 65535

end ClassFile
end ClassXref
