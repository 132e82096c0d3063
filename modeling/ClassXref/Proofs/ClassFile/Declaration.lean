import ClassXref.Proofs.ClassFile.References
import ClassXref.Proofs.ClassFile.RoundTrip
import ClassXref.Proofs.Descriptor.RoundTrip

/-! Classes as they are declared, by names and types alone, with what they use. A source encodes such a
class when its indices designate the names and its code splits into instructions with the references;
which constants and attributes it has besides is left open. The main statement says that the visit of
an encoding reports the record of the class and exactly its uses. -/
namespace ClassXref

open Recorder (replay)

structure FieldDecl where
  access : UInt16
  name : String
  type : TypeDescriptor
  deriving Repr, DecidableEq, Inhabited

/-- The body of a method: what its instructions refer to, one by one, and what its handlers catch. -/
structure Body where
  references : List Reference
  catchTypes : List (Option String)
  deriving Repr, DecidableEq, Inhabited

structure MethodDecl where
  access : UInt16
  name : String
  signature : MethodDescriptor
  exceptions : List String
  body : Option Body
  deriving Repr, DecidableEq, Inhabited

structure ClassDecl where
  record : ClassRecord
  fields : List FieldDecl
  methods : List MethodDecl
  deriving Repr, DecidableEq, Inhabited

/-! ### Uses -/

namespace FieldDecl

def descriptor (f : FieldDecl) : String := String.ofList f.type.render

def referrer (owner : String) (f : FieldDecl) : Referrer :=
  .ofField { owner, name := f.name, descriptor := f.descriptor }

def usages (owner : String) (f : FieldDecl) : List Usage :=
  (f.referrer owner).uses (f.type.className?.toList.map .ofClass)

end FieldDecl

/-- The symbols of the references in order, then those of the catch types. -/
def Body.symbols (b : Body) : List Symbol :=
  b.references.flatMap Reference.symbols ++
    b.catchTypes.flatMap fun c => c.toList.flatMap CodeContext.classSymbols

namespace MethodDecl

def descriptor (m : MethodDecl) : String := String.ofList m.signature.render

def referrer (owner : String) (m : MethodDecl) : Referrer :=
  .ofMethod { owner, name := m.name, descriptor := m.descriptor }

def bodySymbols (m : MethodDecl) : List Symbol := m.body.elim [] Body.symbols

def usages (owner : String) (m : MethodDecl) : List Usage :=
  (m.referrer owner).uses
    (m.signature.classNames.map .ofClass ++ (m.exceptions.map .ofClass ++ m.bodySymbols))

end MethodDecl

/-- The uses of a class: header, fields and methods, each in the order of declaration. -/
def ClassDecl.usages (d : ClassDecl) : List Usage :=
  ClassFile.headerUses d.record ++
    (d.fields.flatMap (FieldDecl.usages d.record.name) ++
      d.methods.flatMap (MethodDecl.usages d.record.name))

/-- The descriptors of a class can be written, and no field is `void`. -/
structure ClassDecl.Writable (d : ClassDecl) : Prop where
  fields : ∀ f ∈ d.fields, f.type.Writable ∧ f.type ≠ ⟨0, .void⟩
  methods : ∀ m ∈ d.methods, m.signature.Writable

/-! ### Encodings -/

/-- The class at an index, where index zero stands for none. -/
def Pool.IsOptionalClass (pool : Pool) (index : UInt16) : Option String → Prop
  | none => index = 0
  | some name => index ≠ 0 ∧ pool.IsClass index name

structure FieldSource.Encodes (pool : Pool) (s : FieldSource) (f : FieldDecl) : Prop where
  access : s.access = f.access
  name : pool.IsText s.name f.name
  descriptor : pool.IsText s.descriptor f.descriptor

/-- The bytes are instructions that have the references of the body, in order. -/
structure CodeSource.Encodes (ctx : CodeContext) (s : CodeSource) (b : Body) : Prop where
  references : ∃ is, Instruction.Split 0 s.bytes is ∧ List.Forall₂ ctx.RefersTo is b.references
  catchTypes : List.Forall₂ (fun h => ctx.pool.IsOptionalClass h.catchType) s.handlers b.catchTypes

structure MethodSource.Encodes (ctx : CodeContext) (s : MethodSource) (m : MethodDecl) : Prop where
  access : s.access = m.access
  name : ctx.pool.IsText s.name m.name
  descriptor : ctx.pool.IsText s.descriptor m.descriptor
  exceptions : List.Forall₂ ctx.pool.IsClass s.exceptions m.exceptions
  body : Option.Rel (CodeSource.Encodes ctx) s.code? m.body

/-- Where the code of a method of the source looks up its references. -/
def ClassSource.methodContext (s : ClassSource) (owner : String) (m : MethodDecl) : CodeContext where
  pool := s.pool
  bootstrapMethods := s.bootstrapMethods
  referrer := m.referrer owner

structure ClassSource.Encodes (s : ClassSource) (d : ClassDecl) : Prop where
  access : s.access = d.record.access.bits
  name : s.pool.IsClass s.thisClass d.record.name
  superName : s.pool.IsOptionalClass s.superClass d.record.superName
  interfaces : List.Forall₂ s.pool.IsClass s.interfaces d.record.interfaces
  fields : List.Forall₂ (FieldSource.Encodes s.pool) s.fields d.fields
  methods : List.Forall₂ (fun m n => m.Encodes (s.methodContext d.record.name n) n) s.methods d.methods

/-! ### What an encoding stands for -/

section Lists

variable {α β γ : Type} {P : α → β → Prop}

theorem mapM_of_forall₂ {g : α → Except Fault γ} {f : β → γ} {xs : List α} {ys : List β}
    (h : List.Forall₂ P xs ys) (hg : ∀ x y, P x y → g x = .ok (f y)) :
    xs.mapM g = .ok (ys.map f) := by
  induction h with
  | nil => rfl
  | @cons x y xs ys hx _ ih =>
    exact Stateful.mapM_cons_eq_ok_iff.mpr ⟨f y, ys.map f, hg x y hx, ih, rfl⟩

/-- Where each entry can be looked up with a result that fits, all of them can. -/
theorem exists_mapM_of_forall₂ {g : α → Except Fault γ} {Q : γ → β → Prop} {xs : List α}
    {ys : List β} (h : List.Forall₂ P xs ys)
    (hg : ∀ x y, P x y → ∃ z, g x = .ok z ∧ Q z y) :
    ∃ zs, xs.mapM g = .ok zs ∧ List.Forall₂ Q zs ys := by
  induction h with
  | nil => exact ⟨[], rfl, .nil⟩
  | @cons x y xs ys hx _ ih =>
    obtain ⟨z, hz, hfits⟩ := hg x y hx
    obtain ⟨zs, hzs, hrest⟩ := ih
    exact ⟨z :: zs, Stateful.mapM_cons_eq_ok_iff.mpr ⟨z, zs, hz, hzs, rfl⟩, .cons hfits hrest⟩

end Lists

theorem Pool.className?_of_isOptionalClass {pool : Pool} {index : UInt16} {name : Option String}
    (h : pool.IsOptionalClass index name) : pool.className? index = .ok name := by
  rw [ClassFile.className?_eq_ok_iff]
  cases name with
  | none => exact Or.inl ⟨h, rfl⟩
  | some name => exact Or.inr ⟨h.1, name, Pool.className_eq_ok_iff.mpr h.2, rfl⟩

theorem Pool.mapM_className {pool : Pool} {indices : List UInt16} {names : List String}
    (h : List.Forall₂ pool.IsClass indices names) : indices.mapM pool.className = .ok names := by
  have hnames := mapM_of_forall₂ (f := id) h fun _ _ hname => Pool.className_eq_ok_iff.mpr hname
  rwa [List.map_id] at hnames

/-- The field that the declaration is read as. -/
def FieldDecl.field (f : FieldDecl) : Field where
  access := f.access
  name := f.name
  descriptor := f.descriptor

theorem FieldSource.Encodes.resolve {pool : Pool} {s : FieldSource} {f : FieldDecl}
    (h : s.Encodes pool f) : s.resolve pool = .ok f.field := by
  rw [FieldSource.resolve, Pool.utf8_eq_ok_iff.mpr h.name, Pool.utf8_eq_ok_iff.mpr h.descriptor,
    h.access]
  rfl

theorem FieldDecl.uses {f : FieldDecl} (h : f.type.Writable) (hvoid : f.type ≠ ⟨0, .void⟩)
    (owner : String) : ClassFile.FieldUses owner f.field (f.usages owner) :=
  ⟨f.type.className?.toList, Descriptor.fieldClasses_render h hvoid, rfl⟩

theorem HandlerSource.resolve_catchType {pool : Pool} {h : HandlerSource} {c : Option String}
    (hc : pool.IsOptionalClass h.catchType c) :
    ∃ handler, h.resolve pool = .ok handler ∧ handler.catchType = c := by
  rw [HandlerSource.resolve, Pool.className?_of_isOptionalClass hc]
  exact ⟨_, rfl, rfl⟩

theorem CodeSource.Encodes.resolve {ctx : CodeContext} {s : CodeSource} {b : Body}
    (h : s.Encodes ctx b) :
    ∃ code, s.resolve ctx.pool = .ok code ∧ ctx.Refers (some code) b.symbols := by
  obtain ⟨is, hsplit, hrefs⟩ := h.references
  obtain ⟨handlers, hresolve, hcatch⟩ := exists_mapM_of_forall₂ (g := (·.resolve ctx.pool))
    h.catchTypes fun _ _ hc => HandlerSource.resolve_catchType hc
  have hequal : List.Forall₂ (· = ·) (handlers.map Handler.catchType) b.catchTypes :=
    List.forall₂_map_left_iff.mpr hcatch
  rw [List.forall₂_eq_eq_eq] at hequal
  refine ⟨⟨s.bytes, handlers⟩, ?_, is, b.references, hsplit, hrefs, ?_⟩
  · rw [CodeSource.resolve, hresolve]
    rfl
  · rw [Body.symbols, ← hequal, List.flatMap_map]
    rfl

/-- The method is read as declared, and its code has the references of the body. -/
structure MethodDecl.Describes (ctx : CodeContext) (m : Method) (d : MethodDecl) : Prop where
  name : m.name = d.name
  descriptor : m.descriptor = d.descriptor
  exceptions : m.exceptions = d.exceptions
  code : ctx.Refers m.code d.bodySymbols

theorem MethodSource.Encodes.resolve {ctx : CodeContext} {s : MethodSource} {m : MethodDecl}
    (h : s.Encodes ctx m) : ∃ method, s.resolve ctx.pool = .ok method ∧ m.Describes ctx method := by
  have hcode : ∃ code, s.code?.mapM (CodeSource.resolve ctx.pool) = .ok code ∧
      ctx.Refers code m.bodySymbols := by
    have hbody := h.body
    unfold MethodDecl.bodySymbols
    generalize s.code? = source at hbody ⊢
    generalize m.body = body at hbody ⊢
    cases hbody with
    | none => exact ⟨none, rfl, rfl⟩
    | some hbody =>
      obtain ⟨code, hresolve, hrefers⟩ := hbody.resolve
      exact ⟨some code, by rw [Option.mapM_some, hresolve]; rfl, hrefers⟩
  obtain ⟨code, hcode, hrefers⟩ := hcode
  refine ⟨⟨s.access, m.name, m.descriptor, m.exceptions, code⟩, ?_, rfl, rfl, rfl, hrefers⟩
  rw [MethodSource.resolve, Pool.utf8_eq_ok_iff.mpr h.name, Pool.utf8_eq_ok_iff.mpr h.descriptor,
    Pool.mapM_className h.exceptions]
  dsimp only [bind, Except.bind]
  rw [hcode]
  rfl

theorem ClassSource.Encodes.record {s : ClassSource} {d : ClassDecl} (h : s.Encodes d) :
    s.record = .ok d.record := by
  rw [ClassSource.record, Pool.className_eq_ok_iff.mpr h.name,
    Pool.className?_of_isOptionalClass h.superName, Pool.mapM_className h.interfaces, h.access]
  rfl

theorem ClassSource.Encodes.resolve {s : ClassSource} {d : ClassDecl} (h : s.Encodes d) :
    ∃ methods, s.resolve = .ok
        { record := d.record, majorVersion := s.majorVersion, pool := s.pool,
          fields := d.fields.map FieldDecl.field, methods, bootstrapMethods := s.bootstrapMethods } ∧
      List.Forall₂ (fun m n => n.Describes (s.methodContext d.record.name n) m) methods d.methods := by
  have hfields : s.fields.mapM (·.resolve s.pool) = .ok (d.fields.map FieldDecl.field) :=
    mapM_of_forall₂ h.fields fun _ _ hf => hf.resolve
  obtain ⟨methods, hmethods, hdescribes⟩ := exists_mapM_of_forall₂ (g := (·.resolve s.pool))
    (Q := fun m n => n.Describes (s.methodContext d.record.name n) m) h.methods
    fun _ _ hm => hm.resolve
  refine ⟨methods, ?_, hdescribes⟩
  rw [ClassSource.resolve, h.record, hfields, hmethods]
  rfl

theorem MethodDecl.Describes.uses {file : ClassFile} {s : ClassSource} {m : Method}
    {d : MethodDecl} (h : d.Describes (s.methodContext file.record.name d) m)
    (hpool : file.pool = s.pool) (hbootstrap : file.bootstrapMethods = s.bootstrapMethods)
    (hwritable : d.signature.Writable) : file.MethodUses m (d.usages file.record.name) := by
  have hctx : file.methodContext m = s.methodContext file.record.name d := by
    rw [ClassFile.methodContext, hpool, hbootstrap, h.name, h.descriptor]
    rfl
  refine ⟨d.signature.classNames, d.bodySymbols, ?_, ?_, ?_⟩
  · rw [h.descriptor]
    exact Descriptor.methodClasses_render hwritable
  · rw [hctx]
    exact h.code
  · rw [hctx, h.exceptions]
    rfl

/-- The visit of an encoding of a class succeeds with its name, and reports its inheritance record
once and then exactly its uses in the order of declaration. -/
theorem ClassFile.visit_encode {R : Type} [Recorder R] {s : ClassSource} {d : ClassDecl}
    (fits : s.Fits) (writable : d.Writable) (encodes : s.Encodes d) (r : R) :
    ClassFile.visit s.encode.toByteArray r =
      .ok d.record.name (replay (Recorder.record r (.declared d.record)) d.usages) := by
  obtain ⟨methods, hresolve, hdescribes⟩ := encodes.resolve
  have hparse := Scan.run_eq_ok (ClassFile.readsToEnd_scan fits hresolve)
  refine ClassFile.visit_eq_ok_iff.mpr ⟨_, hparse, ClassFile.useAll_eq_ok_iff.mpr
    ⟨d.fields.map (FieldDecl.usages d.record.name), d.methods.map (MethodDecl.usages d.record.name),
      ?_, ?_, ?_⟩, rfl⟩
  · refine List.forall₂_map_left_iff.mpr (List.forall₂_map_right_iff.mpr (List.forall₂_same.mpr ?_))
    intro f hf
    exact FieldDecl.uses (writable.fields f hf).1 (writable.fields f hf).2 d.record.name
  · refine List.forall₂_map_right_iff.mpr (List.Forall₂.flip ?_)
    have hwritable := (List.forall₂_and_left _ _).mpr ⟨writable.methods, hdescribes.flip⟩
    exact hwritable.imp fun _ _ h => h.2.uses rfl rfl h.1
  · rw [ClassDecl.usages, List.flatMap_def, List.flatMap_def]

namespace ClassFile

/-- The instructions of `sampleBytes`. -/
def sampleInstructions : List Instruction :=
  [.tableSwitch [1, 2, 3] 0 5 5 [9, 9, 9, 9], .index16 0xb2 .field 10 [],
   .index16 0xba .invokeDynamic 16 [0, 0], .wide 0x15 [0, 7], .index8 0x12 .loadable 2,
   .lookupSwitch [0] 0 1 [0, 0, 0, 4, 0, 0, 0, 0xff], .plain 0xb1 []]

def sampleBody : Body where
  references :=
    [.nothing, .field ⟨"a/Sample", "item", "[La/Item;"⟩,
     .bootstrap (.method ⟨"a/Base", "run", "(La/Item;I)V"⟩) [.classRef "a/Failure", .literal],
     .nothing, .constant (.classRef "a/Sample"), .nothing, .nothing]
  catchTypes := [some "a/Failure", none]

def sampleSignature : MethodDescriptor :=
  ⟨[⟨0, .object "a/Item"⟩, ⟨0, .primitive .int⟩], ⟨0, .void⟩⟩

/-- The class that `sample` encodes. -/
def sampleDecl : ClassDecl where
  record := sampleContent.record
  fields := [⟨2, "item", ⟨1, .object "a/Item"⟩⟩]
  methods :=
    [⟨1, "run", sampleSignature, ["a/Failure", "a/Base", "a/Sample"], some sampleBody⟩,
     ⟨0x0401, "run", sampleSignature, [], none⟩]

theorem sampleDecl_writable : sampleDecl.Writable where
  fields := by decide
  methods := by decide

theorem sample_isClass : sample.pool.IsClass 2 "a/Sample" ∧ sample.pool.IsClass 4 "a/Base" ∧
    sample.pool.IsClass 18 "a/Failure" :=
  ⟨⟨1, rfl, rfl⟩, ⟨3, rfl, rfl⟩, ⟨17, rfl, rfl⟩⟩

theorem sample_isMember : sample.pool.IsField 10 ⟨"a/Sample", "item", "[La/Item;"⟩ ∧
    sample.pool.IsMethod 14 ⟨"a/Base", "run", "(La/Item;I)V"⟩ :=
  ⟨⟨2, 9, rfl, sample_isClass.1, 7, 8, rfl, rfl, rfl⟩,
    ⟨4, 13, Or.inl rfl, sample_isClass.2.1, 11, 12, rfl, rfl, rfl⟩⟩

theorem sample_encodes_body {ctx : CodeContext} (hpool : ctx.pool = sample.pool)
    (hbootstrap : ctx.bootstrapMethods = sample.bootstrapMethods) {source : CodeSource}
    (hbytes : source.bytes = sampleBytes)
    (hhandlers : source.handlers = [⟨0, 5, 8, 18⟩, ⟨0, 6, 8, 0⟩]) :
    source.Encodes ctx sampleBody := by
  obtain ⟨pool, bootstrapMethods, referrer⟩ := ctx
  subst hpool hbootstrap
  have hsite : CodeContext.Bootstraps ⟨sample.pool, sample.bootstrapMethods, referrer⟩ 0
      (.method ⟨"a/Base", "run", "(La/Item;I)V"⟩) [.classRef "a/Failure", .literal] :=
    ⟨⟨15, [18, 5]⟩, rfl, .method rfl (by decide) sample_isMember.2,
      .cons (.classRef sample_isClass.2.2) (.cons (.literal (c := .long 7) rfl (by decide)) .nil)⟩
  refine ⟨⟨sampleInstructions, ?_, ?_⟩, ?_⟩
  · rw [hbytes, Instruction.split_iff]
    exact ⟨by decide, by decide⟩
  · exact .cons rfl (.cons (.field sample_isMember.1) (.cons (.callSite rfl hsite)
      (.cons rfl (.cons (.constant (.classRef sample_isClass.1) (by decide))
        (.cons rfl (.cons rfl .nil))))))
  · rw [hhandlers]
    exact .cons ⟨by decide, sample_isClass.2.2⟩ (.cons rfl .nil)

theorem sample_encodes : sample.Encodes sampleDecl where
  access := rfl
  name := sample_isClass.1
  superName := ⟨by decide, sample_isClass.2.1⟩
  interfaces := .cons sample_isClass.2.1 .nil
  fields := .cons ⟨rfl, rfl, rfl⟩ .nil
  methods :=
    .cons ⟨rfl, rfl, rfl, .cons sample_isClass.2.2 (.cons sample_isClass.2.1
        (.cons sample_isClass.1 .nil)), .some (sample_encodes_body rfl rfl rfl rfl)⟩
      (.cons ⟨rfl, rfl, rfl, .nil, .none⟩ .nil)

theorem visit_encode_sample : sample.Fits ∧ sampleDecl.Writable ∧ sample.Encodes sampleDecl ∧
    visit sample.encode.toByteArray ({} : Events) =
      .ok sampleDecl.record.name
        (replay (Recorder.record {} (.declared sampleDecl.record)) sampleDecl.usages) := by
  have hvisit := visit_encode sample_fits sampleDecl_writable sample_encodes ({} : Events)
  exact ⟨sample_fits, sampleDecl_writable, sample_encodes, hvisit⟩

end ClassFile
end ClassXref
