import ClassXref.ClassFile.Source
import ClassXref.Proofs.Pool.RoundTrip

/-! What a source must obey to have an encoding: counts fit in two bytes and lengths in four, an
attribute bears the name of its content, a method has at most one body, and only the root class and
modules go without a super class. That names resolve is a separate matter, `ClassSource.resolve`. -/
namespace ClassXref

/-! ### Parts of a class file -/

/-- A count that fits in two bytes. -/
def FitsCount (n : Nat) : Prop := n < 65536

/-- A length that fits in four bytes. -/
def FitsLength (n : Nat) : Prop := n < 4294967296

instance (n : Nat) : Decidable (FitsCount n) := inferInstanceAs (Decidable (n < 65536))

instance (n : Nat) : Decidable (FitsLength n) := inferInstanceAs (Decidable (n < 4294967296))

/-- An attribute that nobody interprets has any name outside `interpreted`, and any body. -/
structure RawAttribute.Fits (pool : Pool) (interpreted : List String) (a : RawAttribute) : Prop where
  name : ∃ text, pool.utf8 a.name = .ok text ∧ text ∉ interpreted
  length : FitsLength a.body.length

structure CodeSource.Fits (pool : Pool) (c : CodeSource) : Prop where
  nonempty : 0 < c.bytes.length
  byteCount : FitsCount c.bytes.length
  handlerCount : FitsCount c.handlers.length
  attributeCount : FitsCount c.attributes.length
  attributesFit : ∀ a ∈ c.attributes, a.Fits pool []
  length : FitsLength c.encode.length

/-- The names of the attributes that a method's reader interprets. -/
def MethodAttribute.interpreted : List String := ["Code", "Exceptions"]

/-- The names of the attributes that a class's reader interprets. -/
def ClassAttribute.interpreted : List String := ["BootstrapMethods"]

def MethodAttribute.Fits (pool : Pool) : MethodAttribute → Prop
  | code name source => pool.utf8 name = .ok "Code" ∧ source.Fits pool
  | exceptions name classes => pool.utf8 name = .ok "Exceptions" ∧ FitsCount classes.length
  | other raw => raw.Fits pool interpreted

def ClassAttribute.Fits (pool : Pool) : ClassAttribute → Prop
  | bootstrapMethods name methods =>
    pool.utf8 name = .ok "BootstrapMethods" ∧ FitsCount methods.length ∧
      (∀ m ∈ methods, FitsCount m.arguments.length) ∧
      FitsLength (encodeTable BootstrapMethod.encode methods).length
  | other raw => raw.Fits pool interpreted

def MethodAttribute.isCode (a : MethodAttribute) : Bool := a.code?.isSome

structure FieldSource.Fits (pool : Pool) (f : FieldSource) : Prop where
  attributeCount : FitsCount f.attributes.length
  attributesFit : ∀ a ∈ f.attributes, a.Fits pool []

structure MethodSource.Fits (pool : Pool) (m : MethodSource) : Prop where
  attributeCount : FitsCount m.attributes.length
  attributesFit : ∀ a ∈ m.attributes, a.Fits pool
  atMostOneCode : m.attributes.countP MethodAttribute.isCode ≤ 1

/-- The limits of the format on a whole class file. -/
structure ClassSource.Fits (s : ClassSource) : Prop where
  minMajor : ClassFile.minMajorVersion ≤ s.majorVersion
  maxMajor : s.majorVersion ≤ ClassFile.maxMajorVersion
  poolSize : FitsCount s.pool.size
  constantsFit : ∀ c ∈ s.constants, c.Fits
  superClass : s.superClass = 0 →
    s.pool.className s.thisClass = .ok rootClass ∨ (⟨s.access⟩ : ClassAccess).isModule = true
  interfaceCount : FitsCount s.interfaces.length
  fieldCount : FitsCount s.fields.length
  fieldsFit : ∀ f ∈ s.fields, f.Fits s.pool
  methodCount : FitsCount s.methods.length
  methodsFit : ∀ m ∈ s.methods, m.Fits s.pool
  attributeCount : FitsCount s.attributes.length
  attributesFit : ∀ a ∈ s.attributes, a.Fits s.pool

/-! ### The limits can be checked -/

instance decidableEqOk {ε α : Type} [DecidableEq α] (v : Except ε α) (a : α) :
    Decidable (v = .ok a) :=
  match v with
  | .ok b => decidable_of_iff (b = a) (by rw [Except.ok.injEq])
  | .error _ => .isFalse (by simp)

instance decidableExistsOk {ε α : Type} (v : Except ε α) (P : α → Prop) [DecidablePred P] :
    Decidable (∃ a, v = .ok a ∧ P a) :=
  match v with
  | .ok b => decidable_of_iff (P b) (by simp)
  | .error _ => .isFalse (by simp)

instance (pool : Pool) (interpreted : List String) (a : RawAttribute) :
    Decidable (a.Fits pool interpreted) :=
  decidable_of_iff (_ ∧ _) ⟨fun ⟨h₁, h₂⟩ => ⟨h₁, h₂⟩, fun ⟨h₁, h₂⟩ => ⟨h₁, h₂⟩⟩

instance (pool : Pool) (c : CodeSource) : Decidable (c.Fits pool) :=
  decidable_of_iff (_ ∧ _ ∧ _ ∧ _ ∧ _ ∧ _)
    ⟨fun ⟨h₁, h₂, h₃, h₄, h₅, h₆⟩ => ⟨h₁, h₂, h₃, h₄, h₅, h₆⟩,
      fun ⟨h₁, h₂, h₃, h₄, h₅, h₆⟩ => ⟨h₁, h₂, h₃, h₄, h₅, h₆⟩⟩

instance (pool : Pool) : (a : MethodAttribute) → Decidable (a.Fits pool)
  | .code name source =>
    inferInstanceAs (Decidable (pool.utf8 name = .ok "Code" ∧ source.Fits pool))
  | .exceptions name classes =>
    inferInstanceAs (Decidable (pool.utf8 name = .ok "Exceptions" ∧ FitsCount classes.length))
  | .other raw => inferInstanceAs (Decidable (raw.Fits pool MethodAttribute.interpreted))

instance (pool : Pool) : (a : ClassAttribute) → Decidable (a.Fits pool)
  | .bootstrapMethods name methods =>
    inferInstanceAs (Decidable (pool.utf8 name = .ok "BootstrapMethods" ∧
      FitsCount methods.length ∧ (∀ m ∈ methods, FitsCount m.arguments.length) ∧
      FitsLength (encodeTable BootstrapMethod.encode methods).length))
  | .other raw => inferInstanceAs (Decidable (raw.Fits pool ClassAttribute.interpreted))

instance (pool : Pool) (f : FieldSource) : Decidable (f.Fits pool) :=
  decidable_of_iff (_ ∧ _) ⟨fun ⟨h₁, h₂⟩ => ⟨h₁, h₂⟩, fun ⟨h₁, h₂⟩ => ⟨h₁, h₂⟩⟩

instance (pool : Pool) (m : MethodSource) : Decidable (m.Fits pool) :=
  decidable_of_iff (_ ∧ _ ∧ _) ⟨fun ⟨h₁, h₂, h₃⟩ => ⟨h₁, h₂, h₃⟩, fun ⟨h₁, h₂, h₃⟩ => ⟨h₁, h₂, h₃⟩⟩

instance (s : ClassSource) : Decidable s.Fits :=
  decidable_of_iff (_ ∧ _ ∧ _ ∧ _ ∧ _ ∧ _ ∧ _ ∧ _ ∧ _ ∧ _ ∧ _ ∧ _)
    ⟨fun ⟨h₁, h₂, h₃, h₄, h₅, h₆, h₇, h₈, h₉, h₁₀, h₁₁, h₁₂⟩ =>
        ⟨h₁, h₂, h₃, h₄, h₅, h₆, h₇, h₈, h₉, h₁₀, h₁₁, h₁₂⟩,
      fun ⟨h₁, h₂, h₃, h₄, h₅, h₆, h₇, h₈, h₉, h₁₀, h₁₁, h₁₂⟩ =>
        ⟨h₁, h₂, h₃, h₄, h₅, h₆, h₇, h₈, h₉, h₁₀, h₁₁, h₁₂⟩⟩

end ClassXref
