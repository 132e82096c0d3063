import Mathlib
import ClassXref.Proofs.Bytecode.References
import ClassXref.Proofs.Pool.Failure

/-! Where the walk of a method's code stops when it fails. Everything in front of the place is whole
instructions, and their references have been reported; `Stop` says what stands at the place, with which
fault the walk stops there and what it has still reported. Code that is cut inside an instruction is the
special case in which the place is the start of that instruction. Which of several bad references a fault
names is not said here. -/
namespace ClassXref

open Recorder (replay)

/-! ### Descriptors that fail -/

theorem Descriptor.failsWith_methodClasses (text : String) :
    Stateful.FailsWith Fault.OfReference (Descriptor.methodClasses text) := by
  intro e h
  obtain ⟨flaw, -, rfl⟩ := Descriptor.methodClasses_eq_error_iff.mp h
  exact trivial

theorem Descriptor.failsWith_fieldClasses (text : String) :
    Stateful.FailsWith Fault.OfReference (Descriptor.fieldClasses text) := by
  intro e h
  unfold fieldClasses at h
  split at h
  · split at h
    · cases h
      exact trivial
    · cases h
  · cases h
    exact trivial

/-! ### Instructions that cannot be decoded -/

namespace Instruction

open Stateful (FailsWith failsWith_bind failsWith_error failsWith_ite failsWith_ok)

variable {offset : Nat} {opcode : UInt8} {operands front missing : List UInt8} {i : Instruction}
  {reason : Undecodable}

theorem failsWith_operand (n : Nat) (bytes : List UInt8) :
    FailsWith (· = .misshapen) (operand n bytes) := by
  intro reason h
  unfold operand at h
  split at h
  · cases h
  · cases h
    rfl

theorem failsWith_int32 (bytes : List UInt8) : FailsWith (· = .misshapen) (int32 bytes) :=
  failsWith_bind (failsWith_operand 4 bytes) fun _ => failsWith_ok _

/-- The opcodes that no instruction has. -/
theorem layout_eq_unassigned_iff (opcode : UInt8) :
    Opcode.layout opcode = .unassigned ↔ 0xcb ≤ opcode ∧ opcode ≤ 0xfd :=
  Opcode.forall_opcode (P := fun opcode =>
    Opcode.layout opcode = .unassigned ↔ 0xcb ≤ opcode ∧ opcode ≤ 0xfd) (by decide +kernel) opcode

/-- An assigned opcode is undecodable only for want of the operands that it needs. -/
theorem failsWith_decodeOperands (h : Opcode.layout opcode ≠ .unassigned) :
    FailsWith (· = .misshapen) (decodeOperands offset opcode operands) := by
  unfold decodeOperands
  cases hlayout : Opcode.layout opcode with
  | plain width | index8 kind =>
    exact failsWith_bind (failsWith_operand _ _) fun _ => failsWith_ok _
  | index16 kind extra =>
    exact failsWith_bind (failsWith_operand _ _) fun _ =>
      failsWith_bind (failsWith_operand _ _) fun _ => failsWith_ok _
  | tableSwitch =>
    refine failsWith_bind (failsWith_operand _ _) fun _ => failsWith_bind (failsWith_int32 _) fun _ =>
      failsWith_bind (failsWith_int32 _) fun _ => failsWith_bind (failsWith_int32 _) fun _ =>
        failsWith_ite (failsWith_error rfl) ?_
    exact failsWith_bind (failsWith_operand _ _) fun _ => failsWith_ok _
  | lookupSwitch =>
    refine failsWith_bind (failsWith_operand _ _) fun _ => failsWith_bind (failsWith_int32 _) fun _ =>
      failsWith_bind (failsWith_int32 _) fun _ => failsWith_ite (failsWith_error rfl) ?_
    exact failsWith_bind (failsWith_operand _ _) fun _ => failsWith_ok _
  | wide =>
    refine failsWith_bind (failsWith_operand _ _) fun _ => failsWith_ite ?_ (failsWith_error rfl)
    exact failsWith_bind (failsWith_operand _ _) fun _ => failsWith_ok _
  | unassigned => exact absurd hlayout h

theorem decode_of_unassigned (h : Opcode.layout opcode = .unassigned) :
    decode offset (opcode :: operands) = .error (.unassigned opcode) := by
  have hdecode : decodeOperands offset opcode operands = .error (.unassigned opcode) := by
    unfold decodeOperands
    rw [h]
    rfl
  exact hdecode

/-- An instruction of the grammar of which only a front part is left cannot be decoded: the decoder
would take another instruction off the same bytes when they are all there. -/
theorem decode_of_cut (hformed : i.FormedAt offset) (hcut : i.encode = front ++ missing)
    (hfront : front ≠ []) (hmissing : missing ≠ []) : decode offset front = .error .misshapen := by
  obtain ⟨opcode, operands, rfl⟩ := List.exists_cons_of_ne_nil hfront
  have hwhole : decode offset (opcode :: operands ++ missing) = .ok (i, []) := by
    have hdecode := decode_of_formed hformed []
    rwa [List.append_nil, hcut] at hdecode
  have hassigned : Opcode.layout opcode ≠ .unassigned := by
    intro h
    have hrefused : decode offset (opcode :: operands ++ missing) = .error (.unassigned opcode) :=
      decode_of_unassigned h
    rw [hwhole] at hrefused
    cases hrefused
  cases hdecode : decode offset (opcode :: operands) with
  | error reason => rw [failsWith_decodeOperands hassigned reason hdecode]
  | ok found =>
    obtain ⟨j, rest⟩ := found
    obtain ⟨hbytes, hj⟩ := decode_eq_ok_iff.mp hdecode
    have hlonger := decode_of_formed hj (rest ++ missing)
    rw [← List.append_assoc, ← hbytes, hwhole] at hlonger
    have hnil : [] = rest ++ missing := (Prod.mk.inj (Except.ok.inj hlonger)).2
    exact absurd (List.append_eq_nil_iff.mp hnil.symm).2 hmissing

/-- The offset at which the instruction with this number starts, counted from the first one. -/
def start (is : List Instruction) (k : Nat) : Nat :=
  ((is.take k).map size).sum

theorem start_succ {is : List Instruction} {k : Nat} (hk : k < is.length) :
    start is (k + 1) = start is k + is[k].size := by
  rw [start, start, List.take_succ_eq_append_getElem hk, List.map_append, List.sum_append]
  simp

theorem length_of_split {bytes : List UInt8} {is : List Instruction} (h : Split offset bytes is) :
    bytes.length = (is.map size).sum := by
  obtain ⟨-, rfl⟩ := split_iff.mp h
  rw [List.length_flatMap]
  rfl

theorem split_append_iff {bytes : List UInt8} {is js : List Instruction} :
    Split offset bytes (is ++ js) ↔
      ∃ front back, bytes = front ++ back ∧ Split offset front is ∧
        Split (offset + front.length) back js := by
  induction is generalizing offset bytes with
  | nil =>
    constructor
    · intro h
      exact ⟨[], bytes, rfl, .nil offset, h⟩
    · rintro ⟨front, back, rfl, hfront, hback⟩
      obtain rfl := split_nil_iff.mp hfront
      exact hback
  | cons i is ih =>
    constructor
    · intro h
      cases h with
      | @cons _ _ rest _ hformed hrest =>
        obtain ⟨front, back, rfl, hfront, hback⟩ := ih.mp hrest
        refine ⟨i.encode ++ front, back, (List.append_assoc _ _ _).symm, .cons hformed hfront, ?_⟩
        rw [List.length_append, ← Nat.add_assoc]
        exact hback
    · rintro ⟨_, back, rfl, hfront, hback⟩
      cases hfront with
      | @cons _ _ rest _ hformed hrest =>
        rw [List.length_append, ← Nat.add_assoc] at hback
        rw [List.append_assoc]
        exact .cons hformed (ih.mpr ⟨rest, back, rfl, hrest, hback⟩)

/-- The instruction with number `k` stands at its start, behind those before it. -/
theorem split_at {bytes : List UInt8} {is : List Instruction} {k : Nat} (h : Split offset bytes is)
    (hk : k < is.length) :
    ∃ front rest, bytes = front ++ (is[k].encode ++ rest) ∧ Split offset front (is.take k) ∧
      front.length = start is k ∧ is[k].FormedAt (offset + front.length) := by
  rw [← List.take_append_drop k is, List.drop_eq_getElem_cons hk] at h
  obtain ⟨front, back, rfl, hfront, hback⟩ := split_append_iff.mp h
  cases hback with
  | @cons _ _ rest _ hformed _ =>
    exact ⟨front, rest, rfl, hfront, length_of_split hfront, hformed⟩

end Instruction

/-! ### References that cannot be followed -/

namespace CodeContext

open Stateful (FailsWith failsWith_bind failsWith_error failsWith_ok)

variable {R : Type} [Recorder R] {ctx : CodeContext} {index number : UInt16} {r t : R} {e : Fault}
  {i : Instruction} {offset codeLength : Nat} {front back bytes : List UInt8} {is : List Instruction}
  {refs : List Reference}

/-- An operand of this kind at this index leads to the bootstrap method with this number. -/
inductive LeadsTo (ctx : CodeContext) (index : UInt16) : PoolOperand → UInt16 → Prop
  | callSite {i j : UInt16} : ctx.pool.Holds index (.invokeDynamic i j) →
    LeadsTo ctx index .invokeDynamic i
  | dynamic {i j : UInt16} : ctx.pool.Holds index (.dynamic i j) → LeadsTo ctx index .loadable i

/-- The instruction is followed to the bootstrap method with this number. -/
def Follows (ctx : CodeContext) : Instruction → UInt16 → Prop
  | .index8 _ operand index, number => ctx.LeadsTo index.toUInt16 operand number
  | .index16 _ operand index _, number => ctx.LeadsTo index operand number
  | _, _ => False

/-- The handle of the bootstrap method and some of its arguments designate something, these symbols,
and the argument after them designates nothing. -/
def BreaksOff (ctx : CodeContext) (number : UInt16) (symbols : List Symbol) : Prop :=
  ∃ b target good bad rest arguments, ctx.bootstrapMethods[number.toNat]? = some b ∧
    ctx.pool.IsHandle b.handle target ∧ b.arguments = good ++ bad :: rest ∧
      List.Forall₂ ctx.pool.IsArgument good arguments ∧ (∀ a, ¬ ctx.pool.IsArgument bad a) ∧
        symbols = (Reference.bootstrap target arguments).symbols

/-- What stands at `offset` where a walk stops, with which fault the walk of code of this length stops
there, and which symbols it has reported of the instruction at that place. -/
inductive Stop (ctx : CodeContext) (codeLength offset : Nat) :
    List UInt8 → Fault → List Symbol → Prop
  /-- No instruction of the grammar stands there, though its opcode is assigned. -/
  | misshapen {opcode : UInt8} {operands : List UInt8} : ¬ (0xcb ≤ opcode ∧ opcode ≤ 0xfd) →
    (∀ (i : Instruction) rest, i.FormedAt offset → opcode :: operands ≠ i.encode ++ rest) →
      Stop ctx codeLength offset (opcode :: operands) (.desync ctx.referrer offset codeLength) []
  | unassigned {opcode : UInt8} {operands : List UInt8} : 0xcb ≤ opcode → opcode ≤ 0xfd →
    Stop ctx codeLength offset (opcode :: operands) (.unassignedOpcode ctx.referrer opcode offset) []
  /-- The instruction refers to nothing. -/
  | unresolved {i : Instruction} {rest : List UInt8} {e : Fault} : i.FormedAt offset →
    (∀ ref, ¬ ctx.RefersTo i ref) → e.OfReference → Stop ctx codeLength offset (i.encode ++ rest) e []
  /-- The instruction refers to nothing because an argument of its bootstrap method does not. -/
  | brokenOff {i : Instruction} {rest : List UInt8} {e : Fault} {number : UInt16}
    {symbols : List Symbol} : i.FormedAt offset → (∀ ref, ¬ ctx.RefersTo i ref) → e.OfReference →
      ctx.Follows i number → ctx.BreaksOff number symbols →
        Stop ctx codeLength offset (i.encode ++ rest) e symbols

theorem failsWith_argumentSymbols (pool : Pool) (expected : Wanted) (index : UInt16) :
    FailsWith Fault.OfReference (argumentSymbols pool expected index) := by
  refine failsWith_bind (pool.failsWith_constant index) fun c => ?_
  cases c with
  | classRef i => exact failsWith_bind (pool.failsWith_className index) fun _ => failsWith_ok _
  | methodHandle kind i =>
    exact failsWith_bind (pool.failsWith_methodHandle index) fun _ => failsWith_ok _
  | methodType i =>
    exact failsWith_bind (pool.failsWith_methodType index) fun text =>
      failsWith_bind (Descriptor.failsWith_methodClasses text) fun _ => failsWith_ok _
  | integer _ | float _ | long _ | double _ | string _ | dynamic _ _ => exact failsWith_ok _
  | _ => exact failsWith_error trivial

theorem useArgument_eq_error {expected : Wanted}
    (h : (do Visit.useAll ctx.referrer (← argumentSymbols ctx.pool expected index) : Visit R Unit) r =
      .error e t) : e.OfReference ∧ t = r ∧ ∀ a, ¬ ctx.pool.IsArgument index a := by
  have hfound : argumentSymbols ctx.pool expected index = .error e ∧ t = r :=
    (Visit.useFound_eq_error_iff id).mp h
  refine ⟨failsWith_argumentSymbols _ _ _ e hfound.1, hfound.2, fun a ha => ?_⟩
  have hok : argumentSymbols ctx.pool expected index = .ok a.symbols :=
    argumentSymbols_eq_ok_iff.mpr ⟨a, ha, rfl⟩
  rw [hfound.1] at hok
  cases hok

/-- A bootstrap method that cannot be followed is missing or has a bad handle, and then nothing is
reported of it, or it breaks off at an argument. -/
theorem useBootstrap_eq_error (h : ctx.useBootstrap number r = .error e t) :
    e.OfReference ∧ (t = r ∨ ∃ symbols, ctx.BreaksOff number symbols ∧
      t = replay r (ctx.referrer.uses symbols)) := by
  unfold useBootstrap at h
  cases hb : ctx.bootstrapMethods[number.toNat]? with
  | none =>
    rw [hb] at h
    cases h
    exact ⟨trivial, Or.inl rfl⟩
  | some b =>
    rw [hb] at h
    rcases Stateful.bind_eq_error_iff.mp h with hlookup | ⟨target, s, hlookup, harguments⟩
    · obtain ⟨hhandle, rfl⟩ := Stateful.liftM_eq_error_iff.mp hlookup
      exact ⟨ctx.pool.failsWith_methodHandle b.handle e hhandle, Or.inl rfl⟩
    · obtain ⟨hhandle, rfl⟩ := Stateful.liftM_eq_ok_iff.mp hlookup
      rw [Stateful.bind_ok (Visit.use_run _ _ _)] at harguments
      obtain ⟨good, bad, rest, arguments, hsplit, hgood, hbad⟩ :=
        Visit.forM_eq_error (useArgument_eq_ok_iff .bootstrapArgument) harguments
      obtain ⟨he, rfl, hnone⟩ := useArgument_eq_error hbad
      refine ⟨he, Or.inr ⟨_, ⟨b, target, good, bad, rest, arguments, hb,
        Pool.methodHandle_eq_ok_iff.mp hhandle, hsplit, hgood, hnone, rfl⟩, ?_⟩⟩
      exact replay_bootstrap ctx.referrer target arguments r

/-- What an operand that designates nothing leaves behind. -/
theorem useOperand_eq_error {operand : PoolOperand} (h : ctx.useOperand operand index r = .error e t) :
    e.OfReference ∧ (t = r ∨ ∃ number symbols, ctx.LeadsTo index operand number ∧
      ctx.BreaksOff number symbols ∧ t = replay r (ctx.referrer.uses symbols)) := by
  cases operand with
  | field =>
    obtain ⟨he, rfl⟩ := (Visit.useFound_eq_error_iff fun m => [.ofField m]).mp h
    exact ⟨ctx.pool.failsWith_fieldRef index e he, Or.inl rfl⟩
  | method =>
    obtain ⟨he, rfl⟩ := (Visit.useFound_eq_error_iff fun m => [.ofMethod m]).mp h
    exact ⟨ctx.pool.failsWith_methodRef index e he, Or.inl rfl⟩
  | classRef =>
    obtain ⟨he, rfl⟩ := (Visit.useFound_eq_error_iff classSymbols).mp h
    exact ⟨ctx.pool.failsWith_className index e he, Or.inl rfl⟩
  | invokeDynamic =>
    rcases Stateful.bind_eq_error_iff.mp h with hlookup | ⟨c, s, hlookup, h⟩
    · obtain ⟨hc, rfl⟩ := Stateful.liftM_eq_error_iff.mp hlookup
      exact ⟨ctx.pool.failsWith_constant index e hc, Or.inl rfl⟩
    · obtain ⟨hc, rfl⟩ := Stateful.liftM_eq_ok_iff.mp hlookup
      cases c with
      | invokeDynamic i j =>
        obtain ⟨he, rfl | ⟨symbols, hbreaks, rfl⟩⟩ := useBootstrap_eq_error h
        · exact ⟨he, Or.inl rfl⟩
        · exact ⟨he, Or.inr ⟨i, symbols, .callSite (Pool.constant_eq_ok_iff.mp hc), hbreaks, rfl⟩⟩
      | _ =>
        cases h
        exact ⟨trivial, Or.inl rfl⟩
  | loadable =>
    rcases Stateful.bind_eq_error_iff.mp h with hlookup | ⟨c, s, hlookup, h⟩
    · obtain ⟨hc, rfl⟩ := Stateful.liftM_eq_error_iff.mp hlookup
      exact ⟨ctx.pool.failsWith_constant index e hc, Or.inl rfl⟩
    · obtain ⟨hc, rfl⟩ := Stateful.liftM_eq_ok_iff.mp hlookup
      cases c with
      | dynamic i j =>
        obtain ⟨he, rfl | ⟨symbols, hbreaks, rfl⟩⟩ := useBootstrap_eq_error h
        · exact ⟨he, Or.inl rfl⟩
        · exact ⟨he, Or.inr ⟨i, symbols, .dynamic (Pool.constant_eq_ok_iff.mp hc), hbreaks, rfl⟩⟩
      | _ =>
        obtain ⟨he, rfl, -⟩ := useArgument_eq_error h
        exact ⟨he, Or.inl rfl⟩

/-- An instruction that fails refers to nothing, and is a stop of the walk. -/
theorem stop_of_useInstruction (hformed : i.FormedAt offset) (rest : List UInt8)
    (h : ctx.useInstruction i r = .error e t) :
    ∃ symbols, ctx.Stop codeLength offset (i.encode ++ rest) e symbols ∧
      t = replay r (ctx.referrer.uses symbols) := by
  have hnone : ∀ ref, ¬ ctx.RefersTo i ref := by
    intro ref href
    have hok := (useInstruction_eq_ok_iff (r := r)).mpr ⟨ref, href, rfl⟩
    rw [h] at hok
    cases hok
  have hoperand : e.OfReference ∧ (t = r ∨ ∃ number symbols, ctx.Follows i number ∧
      ctx.BreaksOff number symbols ∧ t = replay r (ctx.referrer.uses symbols)) := by
    cases i with
    | index8 _ operand index => exact useOperand_eq_error h
    | index16 _ operand index _ => exact useOperand_eq_error h
    | plain _ _ | tableSwitch _ _ _ _ _ | lookupSwitch _ _ _ _ | wide _ _ => cases h
  obtain ⟨he, rfl | ⟨number, symbols, hfollows, hbreaks, rfl⟩⟩ := hoperand
  · exact ⟨[], .unresolved hformed hnone he, rfl⟩
  · exact ⟨symbols, .brokenOff hformed hnone he hfollows hbreaks, rfl⟩

/-! ### Walks that fail -/

/-- An offset at which nothing can be decoded is a stop of the walk. -/
theorem stop_of_decode {opcode : UInt8} {operands : List UInt8} {reason : Undecodable}
    (h : Instruction.decode offset (opcode :: operands) = .error reason) :
    ctx.Stop codeLength offset (opcode :: operands) (ctx.undecodable offset codeLength reason) [] := by
  by_cases hlayout : Opcode.layout opcode = .unassigned
  · have hrange := (Instruction.layout_eq_unassigned_iff opcode).mp hlayout
    rw [Instruction.decode_of_unassigned hlayout] at h
    cases h
    exact .unassigned hrange.1 hrange.2
  · have hmisshapen : reason = .misshapen :=
      Instruction.failsWith_decodeOperands hlayout reason h
    subst hmisshapen
    refine .misshapen (fun hrange => ?_) fun i rest hformed hbytes => ?_
    · exact hlayout ((Instruction.layout_eq_unassigned_iff opcode).mpr hrange)
    · rw [hbytes, Instruction.decode_of_formed hformed rest] at h
      cases h

theorem Stop.ne_nil {symbols : List Symbol} (h : ctx.Stop codeLength offset back e symbols) :
    back ≠ [] := by
  have hencode (i : Instruction) (rest : List UInt8) : i.encode ++ rest ≠ [] := by
    cases i <;> simp [Instruction.encode]
  cases h with
  | misshapen _ _ | unassigned _ _ => exact List.cons_ne_nil _ _
  | unresolved _ _ _ | brokenOff _ _ _ _ _ => exact hencode _ _

/-- No walk stops for want of bytes in the buffer. -/
theorem Stop.ne_truncated {symbols : List Symbol} (h : ctx.Stop codeLength offset back e symbols)
    (start needed remaining : Nat) : e ≠ .truncated start needed remaining := by
  rintro rfl
  cases h with
  | unresolved _ _ he | brokenOff _ _ he _ _ => exact he

theorem useInstructions_eq_error
    (h : ctx.useInstructions codeLength offset bytes r = .error e t) :
    ∃ front back is refs symbols, bytes = front ++ back ∧ Instruction.Split offset front is ∧
      List.Forall₂ ctx.RefersTo is refs ∧
        ctx.Stop codeLength (offset + front.length) back e symbols ∧
          t = replay r (ctx.referrer.uses (refs.flatMap Reference.symbols ++ symbols)) := by
  fun_induction useInstructions (R := R) ctx codeLength offset bytes generalizing r with
  | case1 offset => cases h
  | case2 offset opcode operands reason hdecode =>
    cases h
    exact ⟨[], opcode :: operands, [], [], [], rfl, .nil offset, .nil, stop_of_decode hdecode, rfl⟩
  | case3 offset opcode operands i rest hdecode ih =>
    obtain ⟨hbytes, hformed⟩ := Instruction.decode_eq_ok_iff.mp hdecode
    rw [hbytes]
    rcases Stateful.bind_eq_error_iff.mp h with hi | ⟨_, s, hi, hrest⟩
    · obtain ⟨symbols, hstop, rfl⟩ := stop_of_useInstruction hformed rest hi
      exact ⟨[], i.encode ++ rest, [], [], symbols, rfl, .nil offset, .nil, hstop, rfl⟩
    · obtain ⟨ref, href, rfl⟩ := useInstruction_eq_ok_iff.mp hi
      obtain ⟨front, back, is, refs, symbols, rfl, hsplit, hrefs, hstop, rfl⟩ := ih hrest
      refine ⟨i.encode ++ front, back, i :: is, ref :: refs, symbols,
        (List.append_assoc _ _ _).symm, .cons hformed hsplit, .cons href hrefs, ?_, ?_⟩
      · rw [List.length_append, ← Nat.add_assoc]
        exact hstop
      · rw [← Recorder.replay_append, ← Referrer.uses_append, List.flatMap_cons, List.append_assoc]

/-! ### Walks of code that is cut -/

theorem useInstructions_of_decode {rest : List UInt8}
    (h : Instruction.decode offset bytes = .ok (i, rest)) :
    (ctx.useInstructions codeLength offset bytes : Visit R Unit) =
      ctx.useInstruction i >>= fun _ => ctx.useInstructions codeLength (offset + i.size) rest := by
  cases bytes with
  | nil => cases h
  | cons opcode operands =>
    rw [useInstructions]
    split
    · next reason hdecode =>
      rw [h] at hdecode
      cases hdecode
    · next j tail hdecode =>
      rw [h] at hdecode
      cases hdecode
      rfl

theorem useInstructions_of_undecodable {reason : Undecodable} (hbytes : bytes ≠ [])
    (h : Instruction.decode offset bytes = .error reason) :
    (ctx.useInstructions codeLength offset bytes : Visit R Unit) =
      throw (ctx.undecodable offset codeLength reason) := by
  obtain ⟨opcode, operands, rfl⟩ := List.exists_cons_of_ne_nil hbytes
  rw [useInstructions]
  split
  · next reason' hdecode =>
    rw [h] at hdecode
    cases hdecode
    rfl
  · next j tail hdecode =>
    rw [h] at hdecode
    cases hdecode

/-- A walk goes over whole instructions that refer to something and then on with what is behind. -/
theorem useInstructions_append (hsplit : Instruction.Split offset front is)
    (hrefs : List.Forall₂ ctx.RefersTo is refs) (r : R) :
    ctx.useInstructions codeLength offset (front ++ back) r =
      ctx.useInstructions codeLength (offset + front.length) back
        (replay r (ctx.referrer.uses (refs.flatMap Reference.symbols))) := by
  induction hsplit generalizing refs r with
  | nil offset =>
    cases hrefs
    rfl
  | @cons offset i rest is hformed hsplit ih =>
    cases hrefs with
    | @cons _ ref _ refs href hrefs =>
      have hi := (useInstruction_eq_ok_iff (r := r)).mpr ⟨ref, href, rfl⟩
      have hdecode := Instruction.decode_of_formed hformed (rest ++ back)
      rw [List.append_assoc, useInstructions_of_decode hdecode, Stateful.bind_ok hi, ih hrefs,
        List.length_append, ← Nat.add_assoc, ← Recorder.replay_append, ← Referrer.uses_append]
      rfl

/-- Behind whole instructions, an instruction that is cut is where the walk stops. -/
theorem useInstructions_of_cut {n : Nat} (hsplit : Instruction.Split offset front is)
    (hrefs : List.Forall₂ ctx.RefersTo is refs) (hformed : i.FormedAt (offset + front.length))
    (hpos : 0 < n) (hshort : n < i.size) (r : R) :
    ctx.useInstructions codeLength offset (front ++ i.encode.take n) r =
      .error (.desync ctx.referrer (offset + front.length) codeLength)
        (replay r (ctx.referrer.uses (refs.flatMap Reference.symbols))) := by
  have hfront : i.encode.take n ≠ [] := by
    intro hnil
    have hzero := congrArg List.length hnil
    rw [List.length_take, List.length_nil] at hzero
    unfold Instruction.size at hshort
    omega
  have hmissing : i.encode.drop n ≠ [] := by
    intro hnil
    exact Nat.not_le.mpr hshort (List.drop_eq_nil_iff.mp hnil)
  have hdecode := Instruction.decode_of_cut hformed (List.take_append_drop n i.encode).symm hfront
    hmissing
  rw [useInstructions_append hsplit hrefs, useInstructions_of_undecodable hfront hdecode]
  rfl

theorem useCode_eq_error_iff {code : Code} :
    ctx.useCode code r = .error e t ↔
      ctx.useInstructions code.bytes.length 0 code.bytes r = .error e t := by
  unfold useCode useHandlers
  rw [Stateful.bind_eq_error_iff]
  constructor
  · rintro (h | ⟨_, s, -, h⟩)
    · exact h
    · rw [Visit.useAll_run] at h
      cases h
  · exact Or.inl

/-- A `new` of `a/B`, a `tableswitch` over one key and a `return`. -/
def switchInstructions : List Instruction :=
  [.index16 0xbb .classRef 2 [], .tableSwitch [] 0 5 5 [0, 0, 0, 9], .plain 0xb1 []]

def switchContext : CodeContext where
  pool := .ofConstants [.utf8 "a/B", .classRef 1]
  bootstrapMethods := []
  referrer := .ofClass "a/A"

end CodeContext
end ClassXref
