import ClassXref.Bytecode.Instruction
import ClassXref.ClassFile.Basic
import ClassXref.Descriptor.Reader
import ClassXref.Events
import ClassXref.Pool.Resolve

/-! The symbols that the instructions of a method refer to. An instruction is decoded as a whole
before its operand is followed, and a method's catch types come after all its instructions. -/
namespace ClassXref

/-- Where references are looked up and whose they are. -/
structure CodeContext where
  pool : Pool
  bootstrapMethods : List BootstrapMethod
  referrer : Referrer
  deriving Repr, DecidableEq, Inhabited

namespace CodeContext

variable {R : Type} [Recorder R]

/-- The class symbol of the stored name of a `Class` constant; primitive arrays have none. -/
def classSymbols (name : String) : List Symbol :=
  (Descriptor.classOfName name).toList.map Symbol.ofClass

/-- The symbols of a constant that is loaded or passed to a bootstrap method. A dynamic constant in
this place is not followed. -/
def argumentSymbols (pool : Pool) (expected : Wanted) (index : UInt16) :
    Except Fault (List Symbol) := do
  match ← pool.constant index with
  | .classRef _ => return classSymbols (← pool.className index)
  | .methodHandle _ _ => return [(← pool.methodHandle index).symbol]
  | .methodType _ =>
    return (← Descriptor.methodClasses (← pool.methodType index)).map Symbol.ofClass
  | .integer _ | .float _ | .long _ | .double _ | .string _ | .dynamic _ _ => return []
  | other => throw (.wrongKind index expected other.kind)

/-- Reports the handle of a bootstrap method, then its static arguments in order. -/
def useBootstrap (ctx : CodeContext) (index : UInt16) : Visit R Unit := do
  match ctx.bootstrapMethods[index.toNat]? with
  | none => throw (.malformed (.missingBootstrap index))
  | some bootstrap =>
    let target ← ctx.pool.methodHandle bootstrap.handle
    Visit.use ctx.referrer target.symbol
    bootstrap.arguments.forM fun argument => do
      Visit.useAll ctx.referrer (← argumentSymbols ctx.pool .bootstrapArgument argument)

/-- Reports what an operand refers to, or fails if it designates the wrong kind of constant. -/
def useOperand (ctx : CodeContext) (operand : PoolOperand) (index : UInt16) : Visit R Unit := do
  match operand with
  | .field => Visit.use ctx.referrer (.ofField (← ctx.pool.fieldRef index))
  | .method => Visit.use ctx.referrer (.ofMethod (← ctx.pool.methodRef index))
  | .classRef => Visit.useAll ctx.referrer (classSymbols (← ctx.pool.className index))
  | .invokeDynamic =>
    match ← ctx.pool.constant index with
    | .invokeDynamic bootstrap _ => ctx.useBootstrap bootstrap
    | other => throw (.wrongKind index (.kind .invokeDynamic) other.kind)
  | .loadable =>
    match ← ctx.pool.constant index with
    | .dynamic bootstrap _ => ctx.useBootstrap bootstrap
    | _ => Visit.useAll ctx.referrer (← argumentSymbols ctx.pool .loadable index)

/-- Reports what an instruction refers to. -/
def useInstruction (ctx : CodeContext) : Instruction → Visit R Unit
  | .index8 _ operand index => ctx.useOperand operand index.toUInt16
  | .index16 _ operand index _ => ctx.useOperand operand index
  | _ => return ()

/-- The fault of an offset at which no instruction can be decoded. -/
def undecodable (ctx : CodeContext) (offset codeLength : Nat) : Undecodable → Fault
  | .misshapen => .desync ctx.referrer offset codeLength
  | .unassigned opcode => .unassignedOpcode ctx.referrer opcode offset

/-- Walks the instructions from `offset` on, where `bytes` are the bytes of the code that are left. -/
def useInstructions (ctx : CodeContext) (codeLength offset : Nat) (bytes : List UInt8) :
    Visit R Unit :=
  match bytes with
  | [] => return ()
  | opcode :: operands =>
    match _h : Instruction.decode offset (opcode :: operands) with
    | .error reason => throw (ctx.undecodable offset codeLength reason)
    | .ok (instruction, rest) => do
      ctx.useInstruction instruction
      ctx.useInstructions codeLength (offset + instruction.size) rest
termination_by bytes.length
decreasing_by
  exact Instruction.length_lt_of_decode _h

/-- Reports the catch types of a method's handlers in order. -/
def useHandlers (ctx : CodeContext) (handlers : List Handler) : Visit R Unit :=
  Visit.useAll ctx.referrer (handlers.flatMap fun handler =>
    handler.catchType.toList.flatMap classSymbols)

/-- Walks the code of a method: all instructions, then the handlers. -/
def useCode (ctx : CodeContext) (code : Code) : Visit R Unit := do
  ctx.useInstructions code.bytes.length 0 code.bytes
  ctx.useHandlers code.handlers

end CodeContext
end ClassXref
