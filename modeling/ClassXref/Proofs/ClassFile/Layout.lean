import ClassXref.ClassFile.Reader
import ClassXref.Proofs.ClassFile.Limits

/-! How a class file lies in a buffer. A layout is a class file part by part, together with the bytes
that nobody has looked at: the bodies of attributes that are not interpreted, and what is left of an
interpreted one behind its content. `encode` puts the parts one after the other, so an attribute ends
where its declared length ends and lies within the one around it. -/
namespace ClassXref

open BigEndian (digits)
open Scan (Reads)

/-! ### Layouts -/

/-- Something that was decoded, and the bytes behind it that nobody looks at. -/
structure Padded (α : Type) where
  content : α
  slack : List UInt8
  deriving Repr, DecidableEq, Inhabited

namespace MethodAttribute

/-- The index of the name. -/
def name : MethodAttribute → UInt16
  | code name _ | exceptions name _ => name
  | other raw => raw.name

def body : MethodAttribute → List UInt8
  | code _ source => source.encode
  | exceptions _ classes => encodeTable encodeIndex classes
  | other raw => raw.body

/-- The length that is declared covers the content and the slack behind it. -/
def encodePadded (a : Padded MethodAttribute) : List UInt8 :=
  encodeAttribute a.content.name (a.content.body ++ a.slack)

end MethodAttribute

namespace ClassAttribute

def name : ClassAttribute → UInt16
  | bootstrapMethods name _ => name
  | other raw => raw.name

def body : ClassAttribute → List UInt8
  | bootstrapMethods _ methods => encodeTable BootstrapMethod.encode methods
  | other raw => raw.body

def encodePadded (a : Padded ClassAttribute) : List UInt8 :=
  encodeAttribute a.content.name (a.content.body ++ a.slack)

end ClassAttribute

structure MethodLayout where
  access : UInt16
  name : UInt16
  descriptor : UInt16
  attributes : List (Padded MethodAttribute)
  deriving Repr, DecidableEq, Inhabited

/-- The constants of the pool are kept beside its bytes, as a text has more than one encoding. -/
structure ClassLayout where
  minorVersion : UInt16
  majorVersion : UInt16
  constants : List Constant
  poolBytes : List UInt8
  access : UInt16
  thisClass : UInt16
  superClass : UInt16
  interfaces : List UInt16
  fields : List FieldSource
  methods : List MethodLayout
  attributes : List (Padded ClassAttribute)
  deriving Repr, DecidableEq, Inhabited

namespace MethodLayout

def encode (m : MethodLayout) : List UInt8 :=
  encodeIndex m.access ++ encodeIndex m.name ++ encodeIndex m.descriptor ++
    encodeTable MethodAttribute.encodePadded m.attributes

/-- The method without the bytes that nobody looks at. -/
def source (m : MethodLayout) : MethodSource where
  access := m.access
  name := m.name
  descriptor := m.descriptor
  attributes := m.attributes.map Padded.content

end MethodLayout

namespace ClassLayout

/-- The class without the bytes that nobody looks at. -/
def source (l : ClassLayout) : ClassSource where
  minorVersion := l.minorVersion
  majorVersion := l.majorVersion
  constants := l.constants
  access := l.access
  thisClass := l.thisClass
  superClass := l.superClass
  interfaces := l.interfaces
  fields := l.fields
  methods := l.methods.map MethodLayout.source
  attributes := l.attributes.map Padded.content

/-- Everything in front of the constants: magic number, versions and the count of the pool. -/
def header (l : ClassLayout) : List UInt8 :=
  digits 4 ClassFile.magic.toNat ++ encodeIndex l.minorVersion ++ encodeIndex l.majorVersion ++
    digits 2 l.source.pool.size

/-- The access flags, the class and its super class. -/
def declaration (l : ClassLayout) : List UInt8 :=
  encodeIndex l.access ++ encodeIndex l.thisClass ++ encodeIndex l.superClass

def encode (l : ClassLayout) : List UInt8 :=
  l.header ++ l.poolBytes ++ l.declaration ++ encodeTable encodeIndex l.interfaces ++
    encodeTable FieldSource.encode l.fields ++ encodeTable MethodLayout.encode l.methods ++
      encodeTable ClassAttribute.encodePadded l.attributes

end ClassLayout

/-! ### Limits -/

structure MethodLayout.Fits (pool : Pool) (m : MethodLayout) : Prop where
  attributeCount : FitsCount m.attributes.length
  attributesFit : ∀ a ∈ m.attributes, a.content.Fits pool ∧
    FitsLength (a.content.body ++ a.slack).length
  atMostOneCode : m.source.attributes.countP MethodAttribute.isCode ≤ 1

/-- The limits of the format on a laid out class file. -/
structure ClassLayout.Fits (l : ClassLayout) : Prop where
  minMajor : ClassFile.minMajorVersion ≤ l.majorVersion
  maxMajor : l.majorVersion ≤ ClassFile.maxMajorVersion
  poolSize : FitsCount l.source.pool.size
  poolReads : Reads (Pool.read (UInt16.ofNat l.source.pool.size)) l.poolBytes l.source.pool
  superClass : l.superClass = 0 →
    l.source.pool.className l.thisClass = .ok rootClass ∨
      (⟨l.access⟩ : ClassAccess).isModule = true
  interfaceCount : FitsCount l.interfaces.length
  fieldCount : FitsCount l.fields.length
  fieldsFit : ∀ f ∈ l.fields, f.Fits l.source.pool
  methodCount : FitsCount l.methods.length
  methodsFit : ∀ m ∈ l.methods, m.Fits l.source.pool
  attributeCount : FitsCount l.attributes.length
  attributesFit : ∀ a ∈ l.attributes, a.content.Fits l.source.pool ∧
    FitsLength (a.content.body ++ a.slack).length

/-! ### Where the code of a method lies -/

theorem infix_encodeTable {α : Type} {encode : α → List UInt8} {x : α} {xs : List α} (h : x ∈ xs) :
    encode x <:+: encodeTable encode xs := by
  obtain ⟨before, after, rfl⟩ := List.append_of_mem h
  refine ⟨digits 2 (before ++ x :: after).length ++ before.flatMap encode, after.flatMap encode, ?_⟩
  simp only [encodeTable, List.flatMap_append, List.flatMap_cons, List.append_assoc]

theorem MethodLayout.infix_encode {m : MethodLayout} {a : Padded MethodAttribute}
    (h : a ∈ m.attributes) : MethodAttribute.encodePadded a <:+: m.encode :=
  (infix_encodeTable h).trans (List.suffix_append _ _).isInfix

theorem ClassLayout.infix_encode {l : ClassLayout} {m : MethodLayout} (h : m ∈ l.methods) :
    m.encode <:+: l.encode :=
  (infix_encodeTable h).trans ⟨l.header ++ l.poolBytes ++ l.declaration ++
    encodeTable encodeIndex l.interfaces ++ encodeTable FieldSource.encode l.fields,
    encodeTable ClassAttribute.encodePadded l.attributes, rfl⟩

/-- The method has one attribute that is named `Code`, it lies in `whole`, and its body has the code
behind the declared length of the code. -/
def MethodLayout.HoldsCode (pool : Pool) (whole : List UInt8) (m : MethodLayout) (code : Code) :
    Prop :=
  ∃ before a after name maxStack maxLocals behind,
    m.attributes = before ++ a :: after ∧
    (∀ other ∈ before ++ after, pool.utf8 other.content.name ≠ .ok "Code") ∧
    pool.utf8 name = .ok "Code" ∧
    MethodAttribute.encodePadded a = encodeAttribute name (encodeIndex maxStack ++
      encodeIndex maxLocals ++ digits 4 code.bytes.length ++ code.bytes ++ behind) ∧
    MethodAttribute.encodePadded a <:+: whole

namespace MethodAttribute

/-- An attribute that is not read as code is not named so either. -/
theorem Fits.name_ne_code {pool : Pool} {a : MethodAttribute} (hfits : a.Fits pool)
    (h : ¬ a.isCode = true) : pool.utf8 a.name ≠ .ok "Code" := by
  intro hname
  cases a with
  | code index source => exact h rfl
  | exceptions index classes =>
    obtain ⟨hfound, -⟩ := hfits
    have heq : "Exceptions" = "Code" := Except.ok.inj (hfound.symm.trans hname)
    exact absurd heq (by decide)
  | other raw =>
    obtain ⟨found, hfound, hnot⟩ := hfits.name
    have heq : found = "Code" := Except.ok.inj (hfound.symm.trans hname)
    exact hnot (heq ▸ List.mem_cons_self)

theorem eq_code_of_code? {a : MethodAttribute} {source : CodeSource} (h : a.code? = some source) :
    ∃ name, a = .code name source := by
  cases a with
  | code name found =>
    cases h
    exact ⟨name, rfl⟩
  | exceptions name classes => cases h
  | other raw => cases h

end MethodAttribute

/-- The code that a method is read with is that of one of its attributes. -/
theorem MethodSource.code_of_resolve {pool : Pool} {m : MethodSource} {method : Method} {code : Code}
    (hresolve : m.resolve pool = .ok method) (hcode : method.code = some code) :
    ∃ source, m.code? = some source ∧ source.bytes = code.bytes := by
  obtain ⟨_, -, h⟩ := Stateful.verdict_bind_eq_ok_iff.mp hresolve
  obtain ⟨_, -, h⟩ := Stateful.verdict_bind_eq_ok_iff.mp h
  obtain ⟨_, -, h⟩ := Stateful.verdict_bind_eq_ok_iff.mp h
  obtain ⟨found, hfound, h⟩ := Stateful.verdict_bind_eq_ok_iff.mp h
  cases h
  cases hcode
  cases hsource : m.code? with
  | none =>
    rw [hsource] at hfound
    cases hfound
  | some source =>
    rw [hsource, Option.mapM_some] at hfound
    obtain ⟨found, hresolve, hsame⟩ := Stateful.verdict_map_eq_ok_iff.mp hfound
    cases hsame
    obtain ⟨handlers, -, hresolve⟩ := Stateful.verdict_bind_eq_ok_iff.mp hresolve
    cases hresolve
    exact ⟨source, rfl, rfl⟩

/-- An accepted method has its code in its only `Code` attribute, and the code is within the limits. -/
theorem MethodLayout.holdsCode_of_resolve {pool : Pool} {whole : List UInt8} {m : MethodLayout}
    {method : Method} {code : Code} (hfits : m.Fits pool) (hwhole : m.encode <:+: whole)
    (hresolve : m.source.resolve pool = .ok method) (hcode : method.code = some code) :
    m.HoldsCode pool whole code ∧ 1 ≤ code.bytes.length ∧ code.bytes.length ≤ 65535 := by
  obtain ⟨source, hsource, hbytes⟩ := MethodSource.code_of_resolve hresolve hcode
  have hsource : (m.attributes.map Padded.content).findSome? MethodAttribute.code? = some source :=
    hsource
  rw [List.findSome?_map] at hsource
  obtain ⟨before, ⟨content, slack⟩, after, hsplit, hhere, hbefore⟩ :=
    List.findSome?_eq_some_iff.mp hsource
  obtain ⟨name, rfl⟩ := MethodAttribute.eq_code_of_code? hhere
  have hmem : ⟨.code name source, slack⟩ ∈ m.attributes := by
    rw [hsplit]
    exact List.mem_append_right before List.mem_cons_self
  obtain ⟨⟨hname, hlimits⟩, -⟩ := hfits.attributesFit _ hmem
  -- Only one attribute counts as code, and it is not among the others.
  have hothers : ∀ other ∈ before ++ after, ¬ other.content.isCode = true := by
    have hcount : (m.attributes.map Padded.content).countP MethodAttribute.isCode ≤ 1 :=
      hfits.atMostOneCode
    rw [List.countP_map, hsplit, List.countP_append, List.countP_cons_of_pos rfl] at hcount
    have hnone : (before ++ after).countP (MethodAttribute.isCode ∘ Padded.content) = 0 := by
      rw [List.countP_append]
      omega
    exact List.countP_eq_zero.mp hnone
  refine ⟨⟨before, ⟨.code name source, slack⟩, after, name, source.maxStack, source.maxLocals,
    encodeTable HandlerSource.encode source.handlers ++
      encodeTable RawAttribute.encode source.attributes ++ slack, hsplit, ?_, hname, ?_, ?_⟩, ?_, ?_⟩
  · intro other hother
    have hmember : other ∈ m.attributes := by
      rw [hsplit]
      rcases List.mem_append.mp hother with h | h
      · exact List.mem_append_left _ h
      · exact List.mem_append_right _ (List.mem_cons_of_mem _ h)
    exact (hfits.attributesFit other hmember).1.name_ne_code (hothers other hother)
  · simp only [MethodAttribute.encodePadded, MethodAttribute.name, MethodAttribute.body,
      CodeSource.encode, hbytes, List.append_assoc]
  · exact (MethodLayout.infix_encode hmem).trans hwhole
  · rw [← hbytes]
    exact hlimits.nonempty
  · rw [← hbytes]
    exact Nat.le_of_lt_succ hlimits.byteCount

end ClassXref
