import ClassXref.Bytecode.References
import ClassXref.Proofs.Bytecode.Grammar
import ClassXref.Proofs.Descriptor.RoundTrip
import ClassXref.Proofs.Events
import ClassXref.Proofs.Pool.Resolve

/-! What the instructions of a method refer to. A reference is the operand of an instruction with every
index replaced by what it designates, and `RefersTo` says when an instruction has it; neither mentions
the walk. The walk of a method succeeds just when its bytes split into instructions that all refer to
something, and it reports the symbols of these references in order, then the catch types. -/
namespace ClassXref

open Recorder (replay)

/-- A constant that is loaded or handed to a bootstrap method. -/
inductive Argument where
  | literal
  | dynamic
  | classRef (name : String)
  | handle (target : HandleTarget)
  | methodType (descriptor : MethodDescriptor)
  deriving Repr, DecidableEq, Inhabited

/-- What an instruction refers to. An instruction that links a call site or loads a dynamic constant
refers to a bootstrap method and its static arguments. -/
inductive Reference where
  | nothing
  | field (member : MemberRef)
  | method (member : MemberRef)
  | classRef (name : String)
  | constant (argument : Argument)
  | bootstrap (target : HandleTarget) (arguments : List Argument)
  deriving Repr, DecidableEq, Inhabited

def Argument.symbols : Argument → List Symbol
  | literal | dynamic => []
  | classRef name => CodeContext.classSymbols name
  | handle target => [target.symbol]
  | methodType descriptor => descriptor.classNames.map Symbol.ofClass

def Reference.symbols : Reference → List Symbol
  | nothing => []
  | field member => [.ofField member]
  | method member => [.ofMethod member]
  | classRef name => CodeContext.classSymbols name
  | constant argument => argument.symbols
  | bootstrap target arguments => target.symbol :: arguments.flatMap Argument.symbols

/-- Constants that stand for a value and refer to nothing. -/
def Constant.IsLiteral (c : Constant) : Prop :=
  c.kind ∈ [.integer, .float, .long, .double, .string]

instance (c : Constant) : Decidable c.IsLiteral := inferInstanceAs (Decidable (_ ∈ _))

/-- The constant at an index is this argument. -/
inductive Pool.IsArgument (pool : Pool) (index : UInt16) : Argument → Prop
  | literal {c : Constant} : pool.Holds index c → c.IsLiteral → IsArgument pool index .literal
  | dynamic {i j : UInt16} : pool.Holds index (.dynamic i j) → IsArgument pool index .dynamic
  | classRef {name : String} : pool.IsClass index name → IsArgument pool index (.classRef name)
  | handle {target : HandleTarget} : pool.IsHandle index target →
    IsArgument pool index (.handle target)
  | methodType {text : String} {descriptor : MethodDescriptor} : pool.IsMethodType index text →
    MethodDescriptor.read text.toList = .ok descriptor →
      IsArgument pool index (.methodType descriptor)

theorem Pool.IsArgument.holds {pool : Pool} {index : UInt16} {a : Argument}
    (h : pool.IsArgument index a) (hne : a ≠ .dynamic) :
    ∃ c, pool.Holds index c ∧ ∀ i j, c ≠ .dynamic i j := by
  cases h with
  | @literal c hc hliteral =>
    refine ⟨c, hc, ?_⟩
    rintro i j rfl
    simp [Constant.IsLiteral, Constant.kind] at hliteral
  | dynamic hc => exact False.elim (hne rfl)
  | classRef hname =>
    obtain ⟨i, hc, -⟩ := hname
    exact ⟨_, hc, by simp⟩
  | handle htarget =>
    obtain ⟨kind, i, hc⟩ := htarget.holds
    exact ⟨_, hc, by simp⟩
  | methodType htext _ =>
    obtain ⟨i, hc, -⟩ := htext
    exact ⟨_, hc, by simp⟩

namespace CodeContext

variable {R : Type} [Recorder R] {ctx : CodeContext} {index : UInt16} {r t : R}

/-- The bootstrap method with this number has this target and these arguments. -/
def Bootstraps (ctx : CodeContext) (number : UInt16) (target : HandleTarget)
    (arguments : List Argument) : Prop :=
  ∃ b, ctx.bootstrapMethods[number.toNat]? = some b ∧ ctx.pool.IsHandle b.handle target ∧
    List.Forall₂ ctx.pool.IsArgument b.arguments arguments

/-- The index designates what an operand of this kind must designate. -/
inductive Designates (ctx : CodeContext) (index : UInt16) : PoolOperand → Reference → Prop
  | field {m : MemberRef} : ctx.pool.IsField index m → Designates ctx index .field (.field m)
  | method {m : MemberRef} : ctx.pool.IsMethod index m → Designates ctx index .method (.method m)
  | classRef {name : String} : ctx.pool.IsClass index name →
    Designates ctx index .classRef (.classRef name)
  | callSite {i j : UInt16} {target : HandleTarget} {arguments : List Argument} :
    ctx.pool.Holds index (.invokeDynamic i j) → ctx.Bootstraps i target arguments →
      Designates ctx index .invokeDynamic (.bootstrap target arguments)
  | dynamic {i j : UInt16} {target : HandleTarget} {arguments : List Argument} :
    ctx.pool.Holds index (.dynamic i j) → ctx.Bootstraps i target arguments →
      Designates ctx index .loadable (.bootstrap target arguments)
  | constant {a : Argument} : ctx.pool.IsArgument index a → a ≠ .dynamic →
    Designates ctx index .loadable (.constant a)

def RefersTo (ctx : CodeContext) : Instruction → Reference → Prop
  | .index8 _ operand index, ref => ctx.Designates index.toUInt16 operand ref
  | .index16 _ operand index _, ref => ctx.Designates index operand ref
  | _, ref => ref = .nothing

/-! ### Operands -/

theorem argumentSymbols_eq_ok_iff {pool : Pool} {expected : Wanted} {symbols : List Symbol} :
    argumentSymbols pool expected index = .ok symbols ↔
      ∃ a, pool.IsArgument index a ∧ symbols = a.symbols := by
  rw [argumentSymbols, Pool.bind_constant_eq_ok_iff]
  constructor
  · rintro ⟨c, hc, h⟩
    cases c with
    | classRef i =>
      obtain ⟨name, hname, h⟩ := Stateful.verdict_bind_eq_ok_iff.mp h
      cases h
      exact ⟨.classRef name, .classRef (Pool.className_eq_ok_iff.mp hname), rfl⟩
    | methodHandle kind i =>
      obtain ⟨target, htarget, h⟩ := Stateful.verdict_bind_eq_ok_iff.mp h
      cases h
      exact ⟨.handle target, .handle (Pool.methodHandle_eq_ok_iff.mp htarget), rfl⟩
    | methodType i =>
      obtain ⟨text, htext, h⟩ := Stateful.verdict_bind_eq_ok_iff.mp h
      obtain ⟨names, hnames, h⟩ := Stateful.verdict_bind_eq_ok_iff.mp h
      cases h
      obtain ⟨d, hd, rfl⟩ := Descriptor.methodClasses_eq_ok_iff.mp hnames
      exact ⟨.methodType d, .methodType (Pool.methodType_eq_ok_iff.mp htext) hd, rfl⟩
    | integer _ | float _ | long _ | double _ | string _ =>
      cases h
      exact ⟨.literal, .literal hc (by simp [Constant.IsLiteral, Constant.kind]), rfl⟩
    | dynamic i j =>
      cases h
      exact ⟨.dynamic, .dynamic hc, rfl⟩
    | _ => cases h
  · rintro ⟨a, ha, rfl⟩
    cases ha with
    | @literal c hc hliteral =>
      refine ⟨c, hc, ?_⟩
      unfold Constant.IsLiteral at hliteral
      cases c with
      | integer _ | float _ | long _ | double _ | string _ => rfl
      | _ => simp [Constant.kind] at hliteral
    | @dynamic i j hc => exact ⟨.dynamic i j, hc, rfl⟩
    | @classRef name hname =>
      have hlookup := Pool.className_eq_ok_iff.mpr hname
      obtain ⟨i, hc, -⟩ := hname
      refine ⟨.classRef i, hc, ?_⟩
      dsimp only
      rw [hlookup]
      rfl
    | @handle target htarget =>
      have hlookup := Pool.methodHandle_eq_ok_iff.mpr htarget
      obtain ⟨kind, i, hc⟩ := htarget.holds
      refine ⟨.methodHandle kind i, hc, ?_⟩
      dsimp only
      rw [hlookup]
      rfl
    | @methodType text d htext hd =>
      have hlookup := Pool.methodType_eq_ok_iff.mpr htext
      obtain ⟨i, hc, -⟩ := htext
      refine ⟨.methodType i, hc, ?_⟩
      have hnames := Descriptor.methodClasses_eq_ok_iff.mpr ⟨d, hd, rfl⟩
      exact Stateful.verdict_bind_eq_ok_iff.mpr
        ⟨text, hlookup, Stateful.verdict_bind_eq_ok_iff.mpr ⟨d.classNames, hnames, rfl⟩⟩

theorem useArgument_eq_ok_iff (expected : Wanted) (index : UInt16) (r t : R) :
    (do Visit.useAll ctx.referrer (← argumentSymbols ctx.pool expected index) : Visit R Unit) r =
        .ok () t ↔
      ∃ a, ctx.pool.IsArgument index a ∧ t = replay r (ctx.referrer.uses a.symbols) := by
  have hfound : (do Visit.useAll ctx.referrer (← argumentSymbols ctx.pool expected index) :
      Visit R Unit) r = .ok () t ↔ ∃ symbols, argumentSymbols ctx.pool expected index = .ok symbols ∧
        t = replay r (ctx.referrer.uses symbols) :=
    Visit.useFound_eq_ok_iff id
  simp only [hfound, argumentSymbols_eq_ok_iff]
  constructor
  · rintro ⟨_, ⟨a, ha, rfl⟩, rfl⟩
    exact ⟨a, ha, rfl⟩
  · rintro ⟨a, ha, rfl⟩
    exact ⟨a.symbols, ⟨a, ha, rfl⟩, rfl⟩

theorem replay_bootstrap (referrer : Referrer) (target : HandleTarget) (arguments : List Argument)
    (r : R) :
    replay (replay r (referrer.uses [target.symbol]))
        (arguments.flatMap fun a => referrer.uses a.symbols) =
      replay r (referrer.uses (Reference.bootstrap target arguments).symbols) := by
  rw [← Recorder.replay_append, ← Referrer.uses_flatMap, ← Referrer.uses_append]
  rfl

theorem useBootstrap_eq_ok_iff :
    ctx.useBootstrap index r = .ok () t ↔
      ∃ target arguments, ctx.Bootstraps index target arguments ∧
        t = replay r (ctx.referrer.uses (Reference.bootstrap target arguments).symbols) := by
  unfold useBootstrap Bootstraps
  cases hb : ctx.bootstrapMethods[index.toNat]? with
  | none => simp
  | some b =>
    simp only [Stateful.bind_eq_ok_iff, Stateful.liftM_eq_ok_iff, Visit.use_run,
      Visit.forM_eq_ok_iff (useArgument_eq_ok_iff .bootstrapArgument),
      Pool.methodHandle_eq_ok_iff, EStateM.Result.ok.injEq]
    constructor
    · rintro ⟨target, _, ⟨htarget, rfl⟩, _, _, ⟨-, rfl⟩, arguments, harguments, rfl⟩
      exact ⟨target, arguments, ⟨b, rfl, htarget, harguments⟩, replay_bootstrap _ _ _ _⟩
    · rintro ⟨target, arguments, ⟨_, hsome, htarget, harguments⟩, rfl⟩
      cases hsome
      exact ⟨target, r, ⟨htarget, rfl⟩, (), _, ⟨trivial, rfl⟩, arguments, harguments,
        (replay_bootstrap _ _ _ _).symm⟩

theorem useOperand_field_iff :
    ctx.useOperand .field index r = .ok () t ↔
      ∃ m, ctx.pool.IsField index m ∧ t = replay r (ctx.referrer.uses [.ofField m]) := by
  simp only [← Pool.fieldRef_eq_ok_iff]
  exact Visit.useFound_eq_ok_iff fun m => [.ofField m]

theorem useOperand_method_iff :
    ctx.useOperand .method index r = .ok () t ↔
      ∃ m, ctx.pool.IsMethod index m ∧ t = replay r (ctx.referrer.uses [.ofMethod m]) := by
  simp only [← Pool.methodRef_eq_ok_iff]
  exact Visit.useFound_eq_ok_iff fun m => [.ofMethod m]

theorem useOperand_classRef_iff :
    ctx.useOperand .classRef index r = .ok () t ↔
      ∃ name, ctx.pool.IsClass index name ∧
        t = replay r (ctx.referrer.uses (classSymbols name)) := by
  simp only [← Pool.className_eq_ok_iff]
  exact Visit.useFound_eq_ok_iff classSymbols

/-- A call site is followed to its bootstrap method and no further. -/
theorem useOperand_invokeDynamic_iff :
    ctx.useOperand .invokeDynamic index r = .ok () t ↔
      ∃ i j, ctx.pool.Holds index (.invokeDynamic i j) ∧ ctx.useBootstrap i r = .ok () t := by
  unfold useOperand
  simp only [Stateful.bind_eq_ok_iff, Stateful.liftM_eq_ok_iff, Pool.constant_eq_ok_iff]
  constructor
  · rintro ⟨c, _, ⟨hc, rfl⟩, h⟩
    cases c with
    | invokeDynamic i j => exact ⟨i, j, hc, h⟩
    | _ => exact False.elim (Stateful.throw_ne_ok h)
  · rintro ⟨i, j, hc, h⟩
    exact ⟨.invokeDynamic i j, r, ⟨hc, rfl⟩, h⟩

/-- A dynamic constant that is loaded is followed like a call site; any other is an argument. -/
theorem useOperand_loadable_iff :
    ctx.useOperand .loadable index r = .ok () t ↔
      (∃ i j, ctx.pool.Holds index (.dynamic i j) ∧ ctx.useBootstrap i r = .ok () t) ∨
        ∃ a, ctx.pool.IsArgument index a ∧ a ≠ .dynamic ∧
          t = replay r (ctx.referrer.uses a.symbols) := by
  unfold useOperand
  simp only [Stateful.bind_eq_ok_iff, Stateful.liftM_eq_ok_iff, Pool.constant_eq_ok_iff]
  constructor
  · rintro ⟨c, _, ⟨hc, rfl⟩, h⟩
    split at h
    · next i j => exact Or.inl ⟨i, j, hc, h⟩
    · next hother =>
      obtain ⟨a, ha, rfl⟩ := (useArgument_eq_ok_iff .loadable index r t).mp h
      refine Or.inr ⟨a, ha, ?_, rfl⟩
      rintro rfl
      cases ha with
      | @dynamic i j hdynamic => exact hother i j (Pool.holds_unique hc hdynamic)
  · rintro (⟨i, j, hc, h⟩ | ⟨a, ha, hne, rfl⟩)
    · exact ⟨.dynamic i j, r, ⟨hc, rfl⟩, h⟩
    · obtain ⟨c, hc, hother⟩ := ha.holds hne
      refine ⟨c, r, ⟨hc, rfl⟩, ?_⟩
      split
      · next i j => exact False.elim (hother i j rfl)
      · exact (useArgument_eq_ok_iff .loadable index r _).mpr ⟨a, ha, rfl⟩

theorem useOperand_eq_ok_iff {operand : PoolOperand} :
    ctx.useOperand operand index r = .ok () t ↔
      ∃ ref, ctx.Designates index operand ref ∧ t = replay r (ctx.referrer.uses ref.symbols) := by
  constructor
  · intro h
    cases operand with
    | field =>
      obtain ⟨m, hm, rfl⟩ := useOperand_field_iff.mp h
      exact ⟨.field m, .field hm, rfl⟩
    | method =>
      obtain ⟨m, hm, rfl⟩ := useOperand_method_iff.mp h
      exact ⟨.method m, .method hm, rfl⟩
    | classRef =>
      obtain ⟨name, hname, rfl⟩ := useOperand_classRef_iff.mp h
      exact ⟨.classRef name, .classRef hname, rfl⟩
    | invokeDynamic =>
      obtain ⟨i, j, hc, h⟩ := useOperand_invokeDynamic_iff.mp h
      obtain ⟨target, arguments, hb, rfl⟩ := useBootstrap_eq_ok_iff.mp h
      exact ⟨.bootstrap target arguments, .callSite hc hb, rfl⟩
    | loadable =>
      rcases useOperand_loadable_iff.mp h with ⟨i, j, hc, h⟩ | ⟨a, ha, hne, rfl⟩
      · obtain ⟨target, arguments, hb, rfl⟩ := useBootstrap_eq_ok_iff.mp h
        exact ⟨.bootstrap target arguments, .dynamic hc hb, rfl⟩
      · exact ⟨.constant a, .constant ha hne, rfl⟩
  · rintro ⟨ref, hd, rfl⟩
    cases hd with
    | @field m hm => exact useOperand_field_iff.mpr ⟨m, hm, rfl⟩
    | @method m hm => exact useOperand_method_iff.mpr ⟨m, hm, rfl⟩
    | @classRef name hname => exact useOperand_classRef_iff.mpr ⟨name, hname, rfl⟩
    | @callSite i j target arguments hc hb =>
      have hbootstrap := (useBootstrap_eq_ok_iff (r := r)).mpr ⟨target, arguments, hb, rfl⟩
      exact useOperand_invokeDynamic_iff.mpr ⟨i, j, hc, hbootstrap⟩
    | @dynamic i j target arguments hc hb =>
      have hbootstrap := (useBootstrap_eq_ok_iff (r := r)).mpr ⟨target, arguments, hb, rfl⟩
      exact useOperand_loadable_iff.mpr (Or.inl ⟨i, j, hc, hbootstrap⟩)
    | @constant a ha hne =>
      exact useOperand_loadable_iff.mpr (Or.inr ⟨a, ha, hne, rfl⟩)

theorem useInstruction_eq_ok_iff {i : Instruction} :
    ctx.useInstruction i r = .ok () t ↔
      ∃ ref, ctx.RefersTo i ref ∧ t = replay r (ctx.referrer.uses ref.symbols) := by
  have hnothing : (pure () : Visit R Unit) r = .ok () t ↔
      ∃ ref : Reference, ref = .nothing ∧ t = replay r (ctx.referrer.uses ref.symbols) := by
    rw [Stateful.pure_eq_ok_iff]
    constructor
    · rintro ⟨-, rfl⟩
      exact ⟨.nothing, rfl, rfl⟩
    · rintro ⟨_, rfl, rfl⟩
      exact ⟨rfl, rfl⟩
  cases i with
  | index8 _ operand index => exact useOperand_eq_ok_iff
  | index16 _ operand index _ => exact useOperand_eq_ok_iff
  | plain _ _ | tableSwitch _ _ _ _ _ | lookupSwitch _ _ _ _ | wide _ _ => exact hnothing

/-! ### Walks -/

theorem useInstructions_eq_ok_iff {codeLength offset : Nat} {bytes : List UInt8} :
    ctx.useInstructions codeLength offset bytes r = .ok () t ↔
      ∃ is refs, Instruction.Split offset bytes is ∧ List.Forall₂ ctx.RefersTo is refs ∧
        t = replay r (ctx.referrer.uses (refs.flatMap Reference.symbols)) := by
  fun_induction useInstructions (R := R) ctx codeLength offset bytes generalizing r with
  | case1 offset =>
    rw [Stateful.pure_eq_ok_iff]
    constructor
    · rintro ⟨-, rfl⟩
      exact ⟨[], [], .nil offset, .nil, rfl⟩
    · rintro ⟨is, refs, hsplit, hrefs, rfl⟩
      cases is with
      | nil => cases hrefs; exact ⟨rfl, rfl⟩
      | cons i is =>
        obtain ⟨rest, hdecode, -⟩ := Instruction.split_cons_iff.mp hsplit
        cases hdecode
  | case2 offset opcode operands reason hdecode =>
    constructor
    · intro h
      exact False.elim (Stateful.throw_ne_ok h)
    · rintro ⟨is, refs, hsplit, -, -⟩
      cases is with
      | nil => cases Instruction.split_nil_iff.mp hsplit
      | cons i is =>
        obtain ⟨rest, hdecode', -⟩ := Instruction.split_cons_iff.mp hsplit
        rw [hdecode] at hdecode'
        cases hdecode'
  | case3 offset opcode operands i rest hdecode ih =>
    rw [Stateful.bind_eq_ok_iff]
    constructor
    · rintro ⟨_, s, hi, hrest⟩
      obtain ⟨ref, href, rfl⟩ := useInstruction_eq_ok_iff.mp hi
      obtain ⟨is, refs, hsplit, hrefs, rfl⟩ := ih.mp hrest
      refine ⟨i :: is, ref :: refs, Instruction.split_cons_iff.mpr ⟨rest, hdecode, hsplit⟩,
        .cons href hrefs, ?_⟩
      rw [List.flatMap_cons, Referrer.uses_append, Recorder.replay_append]
    · rintro ⟨is, refs, hsplit, hrefs, rfl⟩
      cases is with
      | nil => cases Instruction.split_nil_iff.mp hsplit
      | cons j is =>
        obtain ⟨rest', hdecode', hsplit⟩ := Instruction.split_cons_iff.mp hsplit
        rw [hdecode] at hdecode'
        cases hdecode'
        cases hrefs with
        | @cons _ ref _ refs href hrefs =>
          refine ⟨(), _, useInstruction_eq_ok_iff.mpr ⟨ref, href, rfl⟩,
            ih.mpr ⟨is, refs, hsplit, hrefs, ?_⟩⟩
          rw [List.flatMap_cons, Referrer.uses_append, Recorder.replay_append]

/-- The symbols of the catch types of a method's handlers, in the order of the table. -/
def catchSymbols (handlers : List Handler) : List Symbol :=
  handlers.flatMap fun handler => handler.catchType.toList.flatMap classSymbols

/-- A walk reports the symbols of a method's references in order, then its catch types. -/
theorem useCode_eq_ok_iff {code : Code} :
    ctx.useCode code r = .ok () t ↔
      ∃ is refs, Instruction.Split 0 code.bytes is ∧ List.Forall₂ ctx.RefersTo is refs ∧
        t = replay r (ctx.referrer.uses
          (refs.flatMap Reference.symbols ++ catchSymbols code.handlers)) := by
  unfold useCode useHandlers
  simp only [Stateful.bind_eq_ok_iff, Visit.useAll_eq_ok_iff]
  constructor
  · rintro ⟨_, s, hwalk, rfl⟩
    obtain ⟨is, refs, hsplit, hrefs, rfl⟩ := useInstructions_eq_ok_iff.mp hwalk
    refine ⟨is, refs, hsplit, hrefs, ?_⟩
    rw [Referrer.uses_append, Recorder.replay_append]
    rfl
  · rintro ⟨is, refs, hsplit, hrefs, rfl⟩
    refine ⟨(), _, useInstructions_eq_ok_iff.mpr ⟨is, refs, hsplit, hrefs, rfl⟩, ?_⟩
    rw [Referrer.uses_append, Recorder.replay_append]
    rfl

/-- A walk succeeds just when the bytes split into instructions that all refer to something. The split
is the only one, and the walk reports the symbols of what the instructions refer to, in their order,
and after them the catch types in the order of the table. -/
theorem useCode_exact (ctx : CodeContext) (code : Code) (r : R) :
    ((∃ t, ctx.useCode code r = .ok () t) ↔
      ∃ is refs, Instruction.Split 0 code.bytes is ∧ List.Forall₂ ctx.RefersTo is refs) ∧
    (∀ is js, Instruction.Split 0 code.bytes is → Instruction.Split 0 code.bytes js → is = js) ∧
    (∀ t is refs, ctx.useCode code r = .ok () t → Instruction.Split 0 code.bytes is →
      List.Forall₂ ctx.RefersTo is refs →
        t = replay r (ctx.referrer.uses
          (refs.flatMap Reference.symbols ++ catchSymbols code.handlers))) := by
  refine ⟨⟨?_, ?_⟩, fun is js h h' => Instruction.split_unique h h', ?_⟩
  · rintro ⟨t, hwalk⟩
    obtain ⟨is, refs, hsplit, hrefs, -⟩ := useCode_eq_ok_iff.mp hwalk
    exact ⟨is, refs, hsplit, hrefs⟩
  · rintro ⟨is, refs, hsplit, hrefs⟩
    exact ⟨_, useCode_eq_ok_iff.mpr ⟨is, refs, hsplit, hrefs, rfl⟩⟩
  · intro t is refs hwalk hsplit hrefs
    have hrun := (useCode_eq_ok_iff (r := r)).mpr ⟨is, refs, hsplit, hrefs, rfl⟩
    rw [hwalk] at hrun
    cases hrun
    rfl

end CodeContext
end ClassXref
