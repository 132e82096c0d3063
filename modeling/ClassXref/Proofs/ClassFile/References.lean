import ClassXref.ClassFile.References
import ClassXref.Proofs.Bytecode.References

/-! What the visit of a class file reports. Each declaration has its uses, a list that is fixed by what
its names and indices designate; a visit succeeds just when all declarations have theirs, and reports
the inheritance record followed by these lists. -/
namespace ClassXref

open Recorder (replay)

/-- The symbols of a method's code; a method without code has none. -/
def CodeContext.Refers (ctx : CodeContext) : Option Code → List Symbol → Prop
  | none, symbols => symbols = []
  | some code, symbols => ∃ is refs, Instruction.Split 0 code.bytes is ∧
    List.Forall₂ ctx.RefersTo is refs ∧
      symbols = refs.flatMap Reference.symbols ++ CodeContext.catchSymbols code.handlers

namespace ClassFile

variable {R : Type} [Recorder R] {r t : R} {file : ClassFile}

def fieldReferrer (owner : String) (f : Field) : Referrer :=
  .ofField { owner, name := f.name, descriptor := f.descriptor }

/-- Where the code of a method looks up its references, and whose they are. -/
def methodContext (file : ClassFile) (m : Method) : CodeContext where
  pool := file.pool
  bootstrapMethods := file.bootstrapMethods
  referrer := .ofMethod { owner := file.record.name, name := m.name, descriptor := m.descriptor }

def FieldUses (owner : String) (f : Field) (usages : List Usage) : Prop :=
  ∃ names, Descriptor.fieldClasses f.descriptor = .ok names ∧
    usages = (fieldReferrer owner f).uses (names.map .ofClass)

/-- The classes of the descriptor, the declared exceptions, and what the code refers to. -/
def MethodUses (file : ClassFile) (m : Method) (usages : List Usage) : Prop :=
  ∃ names symbols, Descriptor.methodClasses m.descriptor = .ok names ∧
    (file.methodContext m).Refers m.code symbols ∧
      usages = (file.methodContext m).referrer.uses
        (names.map .ofClass ++ (m.exceptions.map .ofClass ++ symbols))

/-- What the header of a class uses. -/
def headerUses (record : ClassRecord) : List Usage :=
  (Referrer.ofClass record.name).uses (record.supertypes.map .ofClass)

theorem useField_eq_ok_iff (owner : String) (f : Field) (r t : R) :
    useField owner f r = .ok () t ↔ ∃ usages, FieldUses owner f usages ∧ t = replay r usages := by
  have hfound : useField owner f r = .ok () t ↔ ∃ names,
      Descriptor.fieldClasses f.descriptor = .ok names ∧
        t = replay r ((fieldReferrer owner f).uses (names.map .ofClass)) :=
    Visit.useFound_eq_ok_iff (List.map Symbol.ofClass)
  rw [hfound]
  constructor
  · rintro ⟨names, hnames, rfl⟩
    exact ⟨_, ⟨names, hnames, rfl⟩, rfl⟩
  · rintro ⟨_, ⟨names, hnames, rfl⟩, rfl⟩
    exact ⟨names, hnames, rfl⟩

theorem useBody_eq_ok_iff {ctx : CodeContext} {code : Option Code} :
    (match code with
      | some code => ctx.useCode code
      | none => return () : Visit R Unit) r = .ok () t ↔
      ∃ symbols, ctx.Refers code symbols ∧ t = replay r (ctx.referrer.uses symbols) := by
  cases code with
  | none =>
    rw [Stateful.pure_eq_ok_iff]
    constructor
    · rintro ⟨-, rfl⟩
      exact ⟨[], rfl, rfl⟩
    · rintro ⟨_, rfl, rfl⟩
      exact ⟨rfl, rfl⟩
  | some code =>
    constructor
    · intro h
      obtain ⟨is, refs, hsplit, hrefs, rfl⟩ := CodeContext.useCode_eq_ok_iff.mp h
      exact ⟨_, ⟨is, refs, hsplit, hrefs, rfl⟩, rfl⟩
    · rintro ⟨_, ⟨is, refs, hsplit, hrefs, rfl⟩, rfl⟩
      exact CodeContext.useCode_eq_ok_iff.mpr ⟨is, refs, hsplit, hrefs, rfl⟩

theorem useMethod_eq_ok_iff (file : ClassFile) (m : Method) (r t : R) :
    file.useMethod m r = .ok () t ↔ ∃ usages, file.MethodUses m usages ∧ t = replay r usages := by
  have hreplay (names : List String) (symbols : List Symbol) :
      replay (replay (replay r ((file.methodContext m).referrer.uses (names.map .ofClass)))
          ((file.methodContext m).referrer.uses (m.exceptions.map .ofClass)))
        ((file.methodContext m).referrer.uses symbols) =
      replay r ((file.methodContext m).referrer.uses
        (names.map .ofClass ++ (m.exceptions.map .ofClass ++ symbols))) := by
    rw [Referrer.uses_append, Referrer.uses_append, Recorder.replay_append, Recorder.replay_append]
  unfold useMethod Visit.useClasses MethodUses
  simp only [Stateful.bind_eq_ok_iff, Stateful.liftM_eq_ok_iff, Visit.useAll_eq_ok_iff]
  constructor
  · rintro ⟨names, _, ⟨hnames, rfl⟩, _, _, rfl, _, _, rfl, hbody⟩
    obtain ⟨symbols, hsymbols, rfl⟩ := useBody_eq_ok_iff.mp hbody
    exact ⟨_, ⟨names, symbols, hnames, hsymbols, rfl⟩, hreplay names symbols⟩
  · rintro ⟨_, ⟨names, symbols, hnames, hsymbols, rfl⟩, rfl⟩
    exact ⟨names, r, ⟨hnames, rfl⟩, (), _, rfl, (), _, rfl,
      useBody_eq_ok_iff.mpr ⟨symbols, hsymbols, (hreplay names symbols).symm⟩⟩

/-- The visit of a class file succeeds just when all its declarations have their uses. -/
theorem useAll_eq_ok_iff :
    file.useAll r = .ok () t ↔
      ∃ fs ms, List.Forall₂ (FieldUses file.record.name) file.fields fs ∧
        List.Forall₂ file.MethodUses file.methods ms ∧
          t = replay (Recorder.record r (.declared file.record))
            (headerUses file.record ++ (fs.flatten ++ ms.flatten)) := by
  unfold useAll Visit.useClasses
  have hdeclare : (Visit.declare file.record : Visit R Unit) r =
      .ok () (Recorder.record r (.declared file.record)) := rfl
  rw [Stateful.bind_ok hdeclare]
  simp only [Stateful.bind_eq_ok_iff, Visit.useAll_eq_ok_iff, headerUses]
  constructor
  · rintro ⟨_, _, rfl, _, s, hfields, hmethods⟩
    obtain ⟨fs, hfs, rfl⟩ := (Visit.forM_eq_ok_iff (useField_eq_ok_iff _)).mp hfields
    obtain ⟨ms, hms, rfl⟩ := (Visit.forM_eq_ok_iff (useMethod_eq_ok_iff file)).mp hmethods
    refine ⟨fs, ms, hfs, hms, ?_⟩
    rw [List.flatMap_id', List.flatMap_id', Recorder.replay_append, Recorder.replay_append]
  · rintro ⟨fs, ms, hfs, hms, rfl⟩
    refine ⟨(), _, rfl, (), _, (Visit.forM_eq_ok_iff (useField_eq_ok_iff _)).mpr ⟨fs, hfs, rfl⟩,
      (Visit.forM_eq_ok_iff (useMethod_eq_ok_iff file)).mpr ⟨ms, hms, ?_⟩⟩
    rw [List.flatMap_id', List.flatMap_id', Recorder.replay_append, Recorder.replay_append]

/-- The visit of a buffer is that of the class file in it. -/
theorem visit_eq_ok_iff {data : ByteArray} {name : String} :
    visit data r = .ok name t ↔
      ∃ file, parse data = .ok file ∧ file.useAll r = .ok () t ∧ name = file.record.name := by
  unfold visit
  simp only [Stateful.bind_eq_ok_iff, Stateful.liftM_eq_ok_iff, Stateful.pure_eq_ok_iff]
  constructor
  · rintro ⟨file, _, ⟨hfile, rfl⟩, _, _, huses, rfl, rfl⟩
    exact ⟨file, hfile, huses, rfl⟩
  · rintro ⟨file, hfile, huses, rfl⟩
    exact ⟨file, r, ⟨hfile, rfl⟩, (), t, huses, rfl, rfl⟩

/-- A visit that comes to its end has declared one class, the one whose name it returns. -/
theorem visit_declares {data : ByteArray} {name : String} {events : Events}
    (h : visit data ({} : Events) = .ok name events) :
    ∃ record, events.record = some record ∧ record.name = name := by
  obtain ⟨file, -, huses, rfl⟩ := visit_eq_ok_iff.mp h
  obtain ⟨fs, ms, -, -, rfl⟩ := useAll_eq_ok_iff.mp huses
  refine ⟨file.record, ?_, rfl⟩
  rw [Recorder.replay_events]
  rfl

end ClassFile
end ClassXref
