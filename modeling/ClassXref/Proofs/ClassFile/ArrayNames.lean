import ClassXref.Proofs.ClassFile.Acceptance
import ClassXref.Proofs.ClassFile.References
import ClassXref.Proofs.Descriptor.RoundTrip

/-! Array types among the class symbols of a visit. Descriptors, and the class constants that code refers
to, are reduced to the class of the elements. The names in the header of a class and in `Exceptions`
tables are reported as they are stored, also where they are array types; and what stands between `L` and
the semicolon is taken for a class as it is, so that `L[x;` mentions the class `[x`. The main statement
says that no other class symbol is an array type, for every buffer and however the visit of it ends. -/
namespace ClassXref

namespace Descriptor

/-- A name that is written like an array type. -/
def IsArrayName (name : String) : Prop := name.toList.head? = some '['

instance (name : String) : Decidable (IsArrayName name) :=
  inferInstanceAs (Decidable (name.toList.head? = some '['))

/-- The name stands between an `L` and a semicolon of the text. -/
def Mentions (text name : String) : Prop := (BaseType.object name).render <:+: text.toList

end Descriptor

open Descriptor (IsArrayName Mentions)

/-- Some text of the pool mentions the name. -/
def Pool.Spells (pool : Pool) (name : String) : Prop :=
  ∃ index text, pool.IsText index text ∧ Mentions text name

/-- The symbol is no array type, unless the pool spells the array type like a class. -/
def Pool.Reduces (pool : Pool) (s : Symbol) : Prop :=
  ∀ name, s = .ofClass name → IsArrayName name → pool.Spells name

namespace ClassFile

/-- The name is reported for this referrer as the class file stores it: a super class or an interface in
the header, or an exception that a method declares. -/
inductive StoresName (file : ClassFile) : Referrer → String → Prop
  | header {name : String} : name ∈ file.record.supertypes →
    StoresName file (.ofClass file.record.name) name
  | exception {m : Method} {name : String} : m ∈ file.methods → name ∈ m.exceptions →
    StoresName file (file.methodContext m).referrer name

/-- What the visit of a buffer has reported when it ends or fails. -/
def logged (data : ByteArray) : Events := Visit.final (visit data) {}

end ClassFile

theorem Symbol.ofClass_mem_map_iff {name : String} {names : List String} :
    ofClass name ∈ names.map ofClass ↔ name ∈ names := by
  simp

/-! ### Names that descriptors mention -/

namespace Descriptor

variable {text name : String} {names : List String}

theorem mentions_of_className? {t : TypeDescriptor} (hname : t.className? = some name)
    (ht : t.render <:+: text.toList) : Mentions text name := by
  obtain ⟨dimensions, base⟩ := t
  cases base with
  | object found =>
    cases hname
    exact (List.suffix_append _ _).isInfix.trans ht
  | primitive p => cases hname
  | void => cases hname

theorem mentions_of_methodClasses (h : methodClasses text = .ok names) (hname : name ∈ names) :
    Mentions text name := by
  obtain ⟨d, hread, rfl⟩ := methodClasses_eq_ok_iff.mp h
  obtain ⟨-, hprefix⟩ := MethodDescriptor.read_eq_ok_iff.mp hread
  obtain ⟨t, ht, hname⟩ := List.mem_filterMap.mp hname
  refine mentions_of_className? hname (List.IsInfix.trans ?_ hprefix.isInfix)
  rcases List.mem_append.mp ht with hparameter | hresult
  · obtain ⟨front, back, hsplit⟩ := List.append_of_mem hparameter
    refine ⟨'(' :: front.flatMap TypeDescriptor.render,
      back.flatMap TypeDescriptor.render ++ ')' :: d.result.render, ?_⟩
    simp [MethodDescriptor.render, hsplit]
  · rw [List.mem_singleton.mp hresult]
    exact ⟨'(' :: (d.parameters.flatMap TypeDescriptor.render ++ [')']), [], by
      simp [MethodDescriptor.render]⟩

theorem mentions_of_fieldClasses (h : fieldClasses text = .ok names) (hname : name ∈ names) :
    Mentions text name := by
  obtain ⟨t, hread, -, rfl⟩ := fieldClasses_eq_ok_iff.mp h
  obtain ⟨-, hprefix⟩ := TypeDescriptor.read_eq_ok_iff.mp hread
  exact mentions_of_className? (Option.mem_toList.mp hname) hprefix.isInfix

/-- The class of a stored name is that name, or the name is an array type that mentions it. -/
theorem classOfName_eq_some (h : classOfName text = some name) :
    (text = name ∧ ¬ IsArrayName text) ∨ Mentions text name := by
  unfold classOfName at h
  split at h
  · next rest htext =>
    split at h
    · next element helement =>
      by_cases hend : element.getLast? = some ';'
      · rw [if_pos hend, Option.some.injEq] at h
        have hobject : (BaseType.object name).render = 'L' :: element := by
          rw [← h, BaseType.render, String.toList_ofList, List.dropLast_append_getLast? _ hend]
        refine Or.inr ?_
        rw [Mentions, hobject, htext, ← helement]
        exact ((List.dropWhile_suffix _).trans (List.suffix_cons _ _)).isInfix
      · rw [if_neg hend] at h
        cases h
    · cases h
  · next hplain =>
    cases h
    refine Or.inl ⟨rfl, fun harray => ?_⟩
    obtain ⟨rest, hrest⟩ := List.head?_eq_some_iff.mp harray
    exact hplain rest hrest

/-- An array type stands for the class of its elements, and for none if they are primitive. -/
theorem classOfName_render (t : TypeDescriptor) (harray : 1 ≤ t.dimensions) :
    classOfName (String.ofList t.render) = t.className? := by
  obtain ⟨dimensions, base⟩ := t
  obtain ⟨n, rfl⟩ := Nat.exists_eq_add_of_le' harray
  obtain ⟨c, text, hbase, hc⟩ := base.render_head []
  have hbrackets : ∀ b ∈ List.replicate n '[', (b == '[') = true := by
    intro b hb
    rw [List.eq_of_mem_replicate hb]
    rfl
  have hdrop : (List.replicate n '[' ++ base.render).dropWhile (· == '[') = base.render := by
    rw [List.append_nil] at hbase
    rw [List.dropWhile_append_of_pos hbrackets, hbase, List.dropWhile_cons_of_neg (by simpa using hc)]
  rw [classOfName, String.toList_ofList, TypeDescriptor.render, List.replicate_succ, List.cons_append]
  split
  · next rest hrest =>
    cases hrest
    rw [hdrop]
    cases base with
    | object name => simp [BaseType.render, TypeDescriptor.className?, BaseType.className?]
    | primitive p => cases p <;> rfl
    | void => rfl
  · next hplain => exact absurd rfl (hplain _)

end Descriptor

/-! ### Symbols that code refers to -/

namespace Pool

variable {pool : Pool} {index : UInt16} {text : String}

theorem reduces_classSymbols (h : pool.IsText index text) :
    ∀ s ∈ CodeContext.classSymbols text, pool.Reduces s := by
  rintro _ hs name rfl harray
  have hname := Option.mem_toList.mp (Symbol.ofClass_mem_map_iff.mp hs)
  rcases Descriptor.classOfName_eq_some hname with ⟨rfl, hplain⟩ | hmentions
  · exact absurd harray hplain
  · exact ⟨index, text, h, hmentions⟩

theorem reduces_methodClasses {names : List String} (h : pool.IsText index text)
    (hnames : Descriptor.methodClasses text = .ok names) :
    ∀ s ∈ names.map Symbol.ofClass, pool.Reduces s := by
  rintro _ hs name rfl -
  have hname := Symbol.ofClass_mem_map_iff.mp hs
  exact ⟨index, text, h, Descriptor.mentions_of_methodClasses hnames hname⟩

theorem reduces_handle (target : HandleTarget) : pool.Reduces target.symbol := by
  intro name hname
  cases target <;> cases hname

end Pool

namespace CodeContext

open Visit (Reports reports_pure reports_throw reports_report reports_bind reports_lookup reports_forM
  reports_useAll)

variable {R : Type} [Recorder R] {ctx : CodeContext} {P : Event → Prop}

theorem reduces_argumentSymbols {pool : Pool} {expected : Wanted} {index : UInt16}
    {symbols : List Symbol} (h : argumentSymbols pool expected index = .ok symbols) :
    ∀ s ∈ symbols, pool.Reduces s := by
  obtain ⟨a, ha, rfl⟩ := argumentSymbols_eq_ok_iff.mp h
  cases ha with
  | literal => exact fun s hs => absurd hs List.not_mem_nil
  | dynamic => exact fun s hs => absurd hs List.not_mem_nil
  | classRef hclass =>
    obtain ⟨i, -, htext⟩ := hclass
    exact Pool.reduces_classSymbols htext
  | handle => exact List.forall_mem_singleton.mpr (Pool.reduces_handle _)
  | methodType htype hd =>
    obtain ⟨i, -, htext⟩ := htype
    exact Pool.reduces_methodClasses htext (by rw [Descriptor.methodClasses, hd])

section

variable (hP : ∀ s, ctx.pool.Reduces s → P (.used ⟨s, ctx.referrer⟩))
include hP

theorem reports_useBootstrap (index : UInt16) :
    Reports P (ctx.useBootstrap index : Visit R Unit) := by
  unfold useBootstrap
  split
  · exact reports_throw _
  · refine reports_lookup fun target _ => ?_
    refine reports_bind (reports_report (hP _ (Pool.reduces_handle target))) fun _ _ _ _ => ?_
    refine reports_forM fun argument _ => reports_lookup fun symbols hsymbols => ?_
    exact reports_useAll fun s hs => hP s (reduces_argumentSymbols hsymbols s hs)

theorem reports_useOperand (operand : PoolOperand) (index : UInt16) :
    Reports P (ctx.useOperand operand index : Visit R Unit) := by
  cases operand with
  | field => exact reports_lookup fun m _ => reports_report (hP _ (Pool.reduces_handle (.field m)))
  | method => exact reports_lookup fun m _ => reports_report (hP _ (Pool.reduces_handle (.method m)))
  | classRef =>
    refine reports_lookup fun name hname => reports_useAll fun s hs => hP s ?_
    obtain ⟨i, -, htext⟩ := Pool.className_eq_ok_iff.mp hname
    exact Pool.reduces_classSymbols htext s hs
  | invokeDynamic =>
    refine reports_lookup fun c _ => ?_
    split
    · exact reports_useBootstrap hP _
    · exact reports_throw _
  | loadable =>
    refine reports_lookup fun c _ => ?_
    split
    · exact reports_useBootstrap hP _
    · refine reports_lookup fun symbols hsymbols => reports_useAll fun s hs => hP s ?_
      exact reduces_argumentSymbols hsymbols s hs

theorem reports_useInstruction (i : Instruction) :
    Reports P (ctx.useInstruction i : Visit R Unit) := by
  cases i with
  | index8 _ operand index => exact reports_useOperand hP operand _
  | index16 _ operand index _ => exact reports_useOperand hP operand index
  | _ => exact reports_pure ()

theorem reports_useInstructions (codeLength offset : Nat) (bytes : List UInt8) :
    Reports P (ctx.useInstructions codeLength offset bytes : Visit R Unit) := by
  fun_induction useInstructions (R := R) ctx codeLength offset bytes with
  | case1 offset => exact reports_pure ()
  | case2 offset opcode operands reason hdecode => exact reports_throw _
  | case3 offset opcode operands i rest hdecode ih =>
    exact reports_bind (reports_useInstruction hP i) fun _ _ _ _ => ih

/-- The code of a method reports reduced symbols if its catch types are texts of the pool. -/
theorem reports_useCode {code : Code}
    (hcatch : ∀ h ∈ code.handlers, ∀ name, h.catchType = some name →
      ∃ index, ctx.pool.IsText index name) :
    Reports P (ctx.useCode code : Visit R Unit) := by
  refine reports_bind (reports_useInstructions hP _ _ _) fun _ _ _ _ => ?_
  refine reports_useAll fun s hs => hP s ?_
  obtain ⟨h, hh, hs⟩ := List.mem_flatMap.mp hs
  obtain ⟨name, hname, hs⟩ := List.mem_flatMap.mp hs
  obtain ⟨index, htext⟩ := hcatch h hh name (Option.mem_toList.mp hname)
  exact Pool.reduces_classSymbols htext s hs

end

end CodeContext

/-! ### Texts of an accepted class file -/

namespace ClassFile

open Visit (Reports reports_pure reports_report reports_bind reports_lookup reports_forM
  reports_useAll)

variable {α β R : Type} [Recorder R] {file : ClassFile}

theorem exists_of_mem_left {holds : α → β → Prop} {xs : List α} {ys : List β} {x : α}
    (h : List.Forall₂ holds xs ys) (hx : x ∈ xs) : ∃ y ∈ ys, holds x y := by
  induction h with
  | nil => cases hx
  | cons hxy hrest ih =>
    rcases List.mem_cons.mp hx with rfl | hx
    · exact ⟨_, List.mem_cons_self, hxy⟩
    · obtain ⟨y, hy, hholds⟩ := ih hx
      exact ⟨y, List.mem_cons_of_mem _ hy, hholds⟩

theorem exists_of_mem_mapM {resolve : β → Except Fault α} {xs : List β} {ys : List α} {y : α}
    (h : xs.mapM resolve = .ok ys) (hy : y ∈ ys) : ∃ x ∈ xs, resolve x = .ok y :=
  exists_of_mem_left (forall₂_of_mapM h).flip hy

/-- The descriptors and the catch types of a class file are texts of its pool. -/
structure TextsInPool (file : ClassFile) : Prop where
  fields : ∀ f ∈ file.fields, ∃ index, file.pool.IsText index f.descriptor
  methods : ∀ m ∈ file.methods, ∃ index, file.pool.IsText index m.descriptor
  catchTypes : ∀ m ∈ file.methods, ∀ code, m.code = some code → ∀ h ∈ code.handlers, ∀ name,
    h.catchType = some name → ∃ index, file.pool.IsText index name

theorem isText_of_resolve_field {pool : Pool} {s : FieldSource} {f : Field}
    (h : s.resolve pool = .ok f) : pool.IsText s.descriptor f.descriptor := by
  obtain ⟨name, -, h⟩ := Stateful.verdict_bind_eq_ok_iff.mp h
  obtain ⟨descriptor, hdescriptor, h⟩ := Stateful.verdict_bind_eq_ok_iff.mp h
  cases h
  exact Pool.utf8_eq_ok_iff.mp hdescriptor

theorem isText_of_resolve_handler {pool : Pool} {s : HandlerSource} {h : Handler} {name : String}
    (hok : s.resolve pool = .ok h) (hname : h.catchType = some name) :
    ∃ index, pool.IsText index name := by
  obtain ⟨found, hfound, hok⟩ := Stateful.verdict_bind_eq_ok_iff.mp hok
  cases hok
  cases hname
  rcases className?_eq_ok_iff.mp hfound with ⟨-, hnone⟩ | ⟨-, name', hclass, hsome⟩
  · cases hnone
  · cases hsome
    obtain ⟨index, -, htext⟩ := Pool.className_eq_ok_iff.mp hclass
    exact ⟨index, htext⟩

theorem isText_of_resolve_method {pool : Pool} {s : MethodSource} {m : Method}
    (h : s.resolve pool = .ok m) : pool.IsText s.descriptor m.descriptor ∧
      ∀ code, m.code = some code → ∀ h ∈ code.handlers, ∀ name, h.catchType = some name →
        ∃ index, pool.IsText index name := by
  obtain ⟨name, -, h⟩ := Stateful.verdict_bind_eq_ok_iff.mp h
  obtain ⟨descriptor, hdescriptor, h⟩ := Stateful.verdict_bind_eq_ok_iff.mp h
  obtain ⟨exceptions, -, h⟩ := Stateful.verdict_bind_eq_ok_iff.mp h
  obtain ⟨found, hfound, h⟩ := Stateful.verdict_bind_eq_ok_iff.mp h
  cases h
  refine ⟨Pool.utf8_eq_ok_iff.mp hdescriptor, fun code hcode handler hhandler name hname => ?_⟩
  cases hcode
  cases hsource : s.code? with
  | none =>
    rw [hsource] at hfound
    cases hfound
  | some source =>
    rw [hsource, Option.mapM_some] at hfound
    obtain ⟨code', hcode', hsame⟩ := Stateful.verdict_map_eq_ok_iff.mp hfound
    cases hsame
    obtain ⟨handlers, hhandlers, hcode'⟩ := Stateful.verdict_bind_eq_ok_iff.mp hcode'
    cases hcode'
    obtain ⟨x, -, hx⟩ := exists_of_mem_mapM hhandlers hhandler
    exact isText_of_resolve_handler hx hname

theorem textsInPool_of_parse {data : ByteArray} (h : parse data = .ok file) : file.TextsInPool := by
  obtain ⟨d, hscan⟩ := scan_of_parse h
  obtain ⟨layout, -, -, hresolve⟩ := layout_of_scan hscan
  obtain ⟨-, -, hpool, hfields, hmethods, -⟩ := resolve_eq_ok_iff.mp hresolve
  refine ⟨fun f hf => ?_, fun m hm => ?_, fun m hm => ?_⟩
  · obtain ⟨s, -, hs⟩ := exists_of_mem_mapM hfields hf
    exact ⟨s.descriptor, hpool ▸ isText_of_resolve_field hs⟩
  · obtain ⟨s, -, hs⟩ := exists_of_mem_mapM hmethods hm
    exact ⟨s.descriptor, hpool ▸ (isText_of_resolve_method hs).1⟩
  · obtain ⟨s, -, hs⟩ := exists_of_mem_mapM hmethods hm
    exact hpool ▸ (isText_of_resolve_method hs).2

/-! ### Symbols of a class file -/

/-- An array type that is used is stored under its referrer, or spelled in the pool like a class. -/
def Accounts (file : ClassFile) : Event → Prop
  | .declared _ => True
  | .used u => ∀ name, u.symbol = .ofClass name → IsArrayName name →
    file.StoresName u.referrer name ∨ file.pool.Spells name

theorem accounts_of_reduces {referrer : Referrer} {s : Symbol} (h : file.pool.Reduces s) :
    file.Accounts (.used ⟨s, referrer⟩) :=
  fun name hname harray => Or.inr (h name hname harray)

theorem reports_useStored {referrer : Referrer} {names : List String}
    (h : ∀ name ∈ names, file.StoresName referrer name) :
    Reports file.Accounts (Visit.useClasses referrer names : Visit R Unit) := by
  refine reports_useAll ?_
  rintro _ hs name rfl -
  exact Or.inl (h name (Symbol.ofClass_mem_map_iff.mp hs))

theorem reports_useField {f : Field} {index : UInt16} (owner : String)
    (h : file.pool.IsText index f.descriptor) :
    Reports file.Accounts (useField owner f : Visit R Unit) := by
  refine reports_lookup fun names hnames => reports_useAll fun s hs => accounts_of_reduces ?_
  rintro name rfl -
  have hname := Symbol.ofClass_mem_map_iff.mp hs
  exact ⟨index, f.descriptor, h, Descriptor.mentions_of_fieldClasses hnames hname⟩

theorem reports_useMethod (htexts : file.TextsInPool) {m : Method} (hm : m ∈ file.methods) :
    Reports file.Accounts (file.useMethod m : Visit R Unit) := by
  obtain ⟨index, htext⟩ := htexts.methods m hm
  refine reports_lookup fun names hnames => ?_
  refine reports_bind ?_ fun _ _ _ _ => reports_bind ?_ fun _ _ _ _ => ?_
  · exact reports_useAll fun s hs =>
      accounts_of_reduces (Pool.reduces_methodClasses htext hnames s hs)
  · exact reports_useStored fun name hname => .exception hm hname
  · split
    · next code hcode =>
      exact CodeContext.reports_useCode (fun s hs => accounts_of_reduces hs)
        (htexts.catchTypes m hm code hcode)
    · exact reports_pure ()

theorem reports_members (htexts : file.TextsInPool) :
    Reports file.Accounts (do
      file.fields.forM (useField file.record.name)
      file.methods.forM file.useMethod : Visit R Unit) := by
  refine reports_bind (reports_forM fun f hf => ?_) fun _ _ _ _ => ?_
  · obtain ⟨index, htext⟩ := htexts.fields f hf
    exact reports_useField _ htext
  · exact reports_forM fun m hm => reports_useMethod htexts hm

theorem reports_visit (data : ByteArray) :
    Reports (fun e => ∃ file, parse data = .ok file ∧ file.Accounts e)
      (visit data : Visit R String) := by
  refine reports_lookup fun file hfile => ?_
  have hmono : ∀ v : Visit R Unit, Reports file.Accounts v →
      Reports (fun e => ∃ file, parse data = .ok file ∧ file.Accounts e) v :=
    fun v h => h.mono fun e he => ⟨file, hfile, he⟩
  refine reports_bind (hmono _ ?_) fun _ _ _ _ => reports_pure _
  refine reports_bind (reports_report trivial) fun _ _ _ _ => ?_
  refine reports_bind (reports_useStored fun name hname => .header hname) fun _ _ _ _ => ?_
  exact reports_members (textsInPool_of_parse hfile)

/-! ### Whole buffers -/

theorem mem_uses_stored {referrer : Referrer} {name : String} {names : List String}
    (h : name ∈ names) : ⟨.ofClass name, referrer⟩ ∈ referrer.uses (names.map .ofClass) :=
  List.mem_map_of_mem (Symbol.ofClass_mem_map_iff.mpr h)

/-- The header is reported before anything that can fail. -/
theorem mem_logged_of_supertypes {data : ByteArray} (hfile : parse data = .ok file) {name : String}
    (hname : name ∈ file.record.supertypes) :
    ⟨.ofClass name, .ofClass file.record.name⟩ ∈ (logged data).usages := by
  have hparse : (liftM (parse data) : Visit Events ClassFile) {} = .ok file {} :=
    Stateful.liftM_eq_ok_iff.mpr ⟨hfile, rfl⟩
  have hdeclare : (Visit.declare file.record : Visit Events Unit) {} =
      .ok () { record := some file.record } := rfl
  have hheader := Visit.useAll_run (.ofClass file.record.name)
    (file.record.supertypes.map .ofClass) ({ record := some file.record } : Events)
  obtain ⟨events, -, hmembers⟩ := reports_members (textsInPool_of_parse hfile)
    (Recorder.replay ({ record := some file.record } : Events) (headerUses file.record))
  have hlogged : logged data = events.foldl Recorder.record
      (Recorder.replay { record := some file.record } (headerUses file.record)) := by
    rw [← hmembers, logged, visit, Visit.final_bind_of_ok hparse, Visit.final_bind_pure, useAll,
      Visit.final_bind_of_ok hdeclare]
    exact Visit.final_bind_of_ok hheader
  rw [hlogged, Visit.mem_usages_record, Recorder.replay_events]
  refine Or.inl ?_
  simp only [Array.mem_append, List.mem_toArray]
  exact Or.inr (mem_uses_stored hname)

/-- A visit that comes to its end has reported every stored name as it is. -/
theorem mem_usages_of_storesName {data : ByteArray} {name stored : String} {events : Events}
    {referrer : Referrer} (hfile : parse data = .ok file)
    (hvisit : visit data ({} : Events) = .ok name events) (h : file.StoresName referrer stored) :
    ⟨.ofClass stored, referrer⟩ ∈ events.usages := by
  obtain ⟨found, hfound, huses, -⟩ := visit_eq_ok_iff.mp hvisit
  cases hfile.symm.trans hfound
  obtain ⟨fs, ms, -, hms, rfl⟩ := useAll_eq_ok_iff.mp huses
  rw [Recorder.replay_events]
  simp only [Array.mem_append, List.mem_toArray, List.mem_append, headerUses]
  cases h with
  | header hname => exact Or.inr (Or.inl (mem_uses_stored hname))
  | @exception m _ hm hname =>
    obtain ⟨usages, husages, names, symbols, -, -, rfl⟩ := exists_of_mem_left hms hm
    refine Or.inr (Or.inr (Or.inr (List.mem_flatten_of_mem husages ?_)))
    rw [Referrer.uses_append, Referrer.uses_append]
    exact List.mem_append_right _ (List.mem_append_left _ (mem_uses_stored hname))

/-- For every buffer, and however the visit ends, a class symbol that is an array type is a name that
the class file stores for its referrer, in the header or in an `Exceptions` table, or one that its pool
spells like a class. Names in the header are reported as they are stored whenever the class file can be
read, and all stored names when the visit comes to its end. Array types in code stand for the class of
their elements, and for none if these are primitive. -/
theorem array_symbols_stored_or_spelled (data : ByteArray) :
    (∀ u ∈ (logged data).usages, ∀ name, u.symbol = .ofClass name → IsArrayName name →
      ∃ file, parse data = .ok file ∧
        (file.StoresName u.referrer name ∨ file.pool.Spells name)) ∧
    (∀ file, parse data = .ok file → ∀ name ∈ file.record.supertypes,
      ⟨.ofClass name, .ofClass file.record.name⟩ ∈ (logged data).usages) ∧
    (∀ file name events, parse data = .ok file → visit data ({} : Events) = .ok name events →
      ∀ referrer stored, file.StoresName referrer stored →
        ⟨.ofClass stored, referrer⟩ ∈ events.usages) ∧
    ∀ t : TypeDescriptor, 1 ≤ t.dimensions →
      CodeContext.classSymbols (String.ofList t.render) = t.className?.toList.map .ofClass := by
  refine ⟨?_, fun file hfile name hname => mem_logged_of_supertypes hfile hname,
    fun file name events hfile hvisit referrer stored h => mem_usages_of_storesName hfile hvisit h,
    fun t ht => ?_⟩
  · intro u hu name hname harray
    obtain ⟨events, hevents, hlogged⟩ := reports_visit data ({} : Events)
    rw [logged, hlogged, Visit.mem_usages_record] at hu
    rcases hu with hnone | hu
    · exact absurd hnone (Array.not_mem_empty u)
    · obtain ⟨file, hfile, haccounts⟩ := hevents _ hu
      exact ⟨file, hfile, haccounts name hname harray⟩
  · rw [CodeContext.classSymbols, Descriptor.classOfName_render t ht]

/-- A class whose super class, interface and declared exception are array types. -/
def arrayParent : ClassSource where
  minorVersion := 0
  majorVersion := 52
  constants :=
    [.utf8 "a/Foo", .classRef 1, .utf8 "[La/B;", .classRef 3, .utf8 "[I", .classRef 5, .utf8 "run",
     .utf8 "()V", .utf8 "Exceptions", .utf8 "[La/E;", .classRef 10]
  access := 0x0421
  thisClass := 2
  superClass := 4
  interfaces := [6]
  fields := []
  methods := [⟨0x0401, 7, 8, [.exceptions 9 [11]]⟩]
  attributes := []

/-- What `arrayParent` stands for. -/
def arrayParentContent : ClassFile where
  record := ⟨"a/Foo", some "[La/B;", ["[I"], ⟨0x0421⟩⟩
  majorVersion := 52
  pool := arrayParent.pool
  fields := []
  methods := [⟨0x0401, "run", "()V", ["[La/E;"], none⟩]
  bootstrapMethods := []

def arrayParentEvents : Events where
  record := some arrayParentContent.record
  usages := #[⟨.ofClass "[La/B;", .ofClass "a/Foo"⟩, ⟨.ofClass "[I", .ofClass "a/Foo"⟩,
    ⟨.ofClass "[La/E;", .ofMethod ⟨"a/Foo", "run", "()V"⟩⟩]

theorem parse_arrayParent : parse arrayParent.encode.toByteArray = .ok arrayParentContent := by
  have hfits : arrayParent.Fits := by decide
  have hresolve : arrayParent.resolve = .ok arrayParentContent := rfl
  exact Scan.run_eq_ok (readsToEnd_scan hfits hresolve)

theorem visit_arrayParent :
    visit arrayParent.encode.toByteArray ({} : Events) = .ok "a/Foo" arrayParentEvents := by
  have hnone : Descriptor.methodClasses "()V" = .ok [] :=
    Descriptor.methodClasses_render (d := ⟨[], ⟨0, .void⟩⟩) (by decide)
  refine visit_eq_ok_iff.mpr ⟨arrayParentContent, parse_arrayParent, ?_, rfl⟩
  exact useAll_eq_ok_iff.mpr ⟨[], [_], .nil, .cons ⟨[], [], hnone, rfl, rfl⟩ .nil, rfl⟩

theorem logged_arrayParent : logged arrayParent.encode.toByteArray = arrayParentEvents := by
  rw [logged, Visit.final, visit_arrayParent]

/-- The parts of the statement, each at a name that `arrayParent` stores, and an array type in code. -/
theorem array_symbols_stored_or_spelled_arrayParent :
    let data := arrayParent.encode.toByteArray
    (∃ file, parse data = .ok file ∧
      (file.StoresName (.ofMethod ⟨"a/Foo", "run", "()V"⟩) "[La/E;" ∨
        file.pool.Spells "[La/E;")) ∧
    ⟨.ofClass "[I", .ofClass "a/Foo"⟩ ∈ (logged data).usages ∧
    ⟨.ofClass "[La/E;", .ofMethod ⟨"a/Foo", "run", "()V"⟩⟩ ∈ arrayParentEvents.usages ∧
    CodeContext.classSymbols (String.ofList (TypeDescriptor.mk 2 (.object "a/B")).render) =
      [.ofClass "a/B"] := by
  intro data
  obtain ⟨hsources, hheader, hstored, harrays⟩ := array_symbols_stored_or_spelled data
  have hexception : ⟨.ofClass "[La/E;", .ofMethod ⟨"a/Foo", "run", "()V"⟩⟩ ∈
      (logged data).usages := by
    rw [logged_arrayParent]
    simp [arrayParentEvents]
  have hstores : arrayParentContent.StoresName (arrayParentContent.methodContext
      ⟨0x0401, "run", "()V", ["[La/E;"], none⟩).referrer "[La/E;" :=
    .exception List.mem_cons_self List.mem_cons_self
  exact ⟨hsources _ hexception "[La/E;" rfl (by decide),
    hheader _ parse_arrayParent "[I" (by decide),
    hstored _ _ _ parse_arrayParent visit_arrayParent _ _ hstores,
    harrays ⟨2, .object "a/B"⟩ (by decide)⟩

/-- `arrayParent` is visited to its end, and its class symbols are array types. -/
theorem array_symbols_arrayParent :
    visit arrayParent.encode.toByteArray ({} : Events) = .ok "a/Foo" arrayParentEvents ∧
      ¬ ∀ data, ∀ u ∈ (logged data).usages, ∀ name, u.symbol = .ofClass name →
        ¬ IsArrayName name := by
  refine ⟨visit_arrayParent, fun hnone => ?_⟩
  have hsuper : ⟨.ofClass "[La/B;", .ofClass "a/Foo"⟩ ∈
      (logged arrayParent.encode.toByteArray).usages := by
    rw [logged_arrayParent]
    simp [arrayParentEvents]
  exact hnone _ _ hsuper "[La/B;" rfl (by decide)

end ClassFile
end ClassXref
