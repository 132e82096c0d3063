import ClassXref.Bytecode.References
import ClassXref.ClassFile.Reader

/-! Everything that a class file refers to, in the order of the file: header, fields, methods with
their declared exceptions and their code. The names in the header and in `Exceptions` tables are
reported as they are stored; those in code have their array brackets taken off. -/
namespace ClassXref.ClassFile

variable {R : Type} [Recorder R]

def useField (owner : String) (field : Field) : Visit R Unit := do
  let referrer := .ofField { owner, name := field.name, descriptor := field.descriptor }
  Visit.useClasses referrer (← Descriptor.fieldClasses field.descriptor)

def useMethod (file : ClassFile) (method : Method) : Visit R Unit := do
  let referrer := .ofMethod
    { owner := file.record.name, name := method.name, descriptor := method.descriptor }
  Visit.useClasses referrer (← Descriptor.methodClasses method.descriptor)
  Visit.useClasses referrer method.exceptions
  match method.code with
  | some code =>
    let ctx : CodeContext := { pool := file.pool, bootstrapMethods := file.bootstrapMethods, referrer }
    ctx.useCode code
  | none => return ()

/-- Reports the inheritance record of a class file and every symbol that it refers to. -/
def useAll (file : ClassFile) : Visit R Unit := do
  Visit.declare file.record
  Visit.useClasses (.ofClass file.record.name) file.record.supertypes
  file.fields.forM (useField file.record.name)
  file.methods.forM file.useMethod

/-- Visits the class file that a buffer holds. The result is the name of the class. -/
def visit (data : ByteArray) : Visit R String := do
  let file ← parse data
  file.useAll
  return file.record.name

end ClassXref.ClassFile
