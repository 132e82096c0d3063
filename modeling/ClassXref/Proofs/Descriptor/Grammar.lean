import ClassXref.Proofs.Descriptor.RoundTrip

/-! Descriptors in the grammar of the format against the texts that are taken for descriptors. In the
grammar `void` is the result of a method and nothing else, and a descriptor ends where its text ends. Every
descriptor of the grammar is taken, with the classes that it names. Beyond these the reader takes texts with
something behind a descriptor, and descriptors that use `void` like a type of values; the last main statement
says that it takes nothing else. Which flaw a refusal names is not the subject here. -/
namespace ClassXref

/-- The values that a reader takes off the front of a text, and those among them that are proper. The reader
does not look behind what it takes, so at most one value can stand at the front. -/
structure FrontGrammar (α : Type) where
  render : α → List Char
  Taken : α → Prop
  Proper : α → Prop
  taken_of_proper : ∀ a, Proper a → Taken a
  eq_of_prefix : ∀ a b text, Taken a → Taken b → render a <+: text → render b <+: text → a = b

namespace FrontGrammar

variable {α : Type} {g : FrontGrammar α} {text : List Char} {a : α}

/-- The text is a proper value, from end to end. -/
def Derives (g : FrontGrammar α) (text : List Char) : Prop :=
  ∃ a, g.Proper a ∧ g.render a = text

/-- The value is taken off the front of the text, and there is text behind it or it is not proper. -/
structure Lax (g : FrontGrammar α) (text : List Char) (a : α) : Prop where
  taken : g.Taken a
  front : g.render a <+: text
  improper : g.render a = text → ¬ g.Proper a

theorem Lax.not_derives (h : g.Lax text a) : ¬ g.Derives text := by
  rintro ⟨b, hproper, hrender⟩
  have hfront : g.render b <+: text := hrender ▸ List.prefix_rfl
  obtain rfl := g.eq_of_prefix a b text h.taken (g.taken_of_proper b hproper) h.front hfront
  exact h.improper hrender hproper

/-- A text with nothing to take at its front is no proper value, and none is taken off it laxly. -/
theorem nothing_taken_iff :
    (∀ a, g.Taken a → ¬ g.render a <+: text) ↔ ¬ g.Derives text ∧ ∀ a, ¬ g.Lax text a := by
  constructor
  · intro hnone
    refine ⟨?_, fun a hlax => hnone a hlax.taken hlax.front⟩
    rintro ⟨a, hproper, hrender⟩
    exact hnone a (g.taken_of_proper a hproper) (hrender ▸ List.prefix_rfl)
  · rintro ⟨hinvalid, hlax⟩ a htaken hfront
    exact hlax a ⟨htaken, hfront, fun hrender hproper => hinvalid ⟨a, hproper, hrender⟩⟩

end FrontGrammar

/-! ### Descriptors of the grammar -/

/-- The type can be written, and values have it. -/
structure TypeDescriptor.OfValue (t : TypeDescriptor) : Prop where
  writable : t.Writable
  base : t.base ≠ .void

/-- A signature of the grammar: `void` is no parameter, and as a result it has no dimensions. -/
structure MethodDescriptor.Proper (d : MethodDescriptor) : Prop where
  parameters : ∀ p ∈ d.parameters, p.OfValue
  result : d.result.OfValue ∨ d.result = ⟨0, .void⟩

instance (t : TypeDescriptor) : Decidable t.OfValue :=
  decidable_of_iff (_ ∧ _) ⟨fun ⟨h₁, h₂⟩ => ⟨h₁, h₂⟩, fun ⟨h₁, h₂⟩ => ⟨h₁, h₂⟩⟩

instance (d : MethodDescriptor) : Decidable d.Proper :=
  decidable_of_iff (_ ∧ _) ⟨fun ⟨h₁, h₂⟩ => ⟨h₁, h₂⟩, fun ⟨h₁, h₂⟩ => ⟨h₁, h₂⟩⟩

theorem TypeDescriptor.writable_void : Writable ⟨0, .void⟩ :=
  ⟨Nat.zero_le _, trivial⟩

theorem TypeDescriptor.OfValue.ne_void {t : TypeDescriptor} (h : t.OfValue) : t ≠ ⟨0, .void⟩ := by
  rintro rfl
  exact h.base rfl

theorem MethodDescriptor.Proper.writable {d : MethodDescriptor} (h : d.Proper) : d.Writable where
  parameters p hp := (h.parameters p hp).writable
  result := by
    rcases h.result with hvalue | hvoid
    · exact hvalue.writable
    · rw [hvoid]
      exact TypeDescriptor.writable_void

/-- Types as descriptors of fields: the reader refuses `void` by itself, the grammar all that is built
on it. -/
def TypeDescriptor.fieldGrammar : FrontGrammar TypeDescriptor where
  render := render
  Taken t := t.Writable ∧ t ≠ ⟨0, .void⟩
  Proper := OfValue
  taken_of_proper _ h := ⟨h.writable, h.ne_void⟩
  eq_of_prefix _ _ _ h h' hfront hfront' :=
    Except.ok.inj ((read_eq_ok_iff.mpr ⟨h.1, hfront⟩).symm.trans (read_eq_ok_iff.mpr ⟨h'.1, hfront'⟩))

/-- Signatures as descriptors of methods. -/
def MethodDescriptor.grammar : FrontGrammar MethodDescriptor where
  render := render
  Taken := Writable
  Proper := Proper
  taken_of_proper _ h := h.writable
  eq_of_prefix _ _ _ h h' hfront hfront' :=
    Except.ok.inj ((read_eq_ok_iff.mpr ⟨h, hfront⟩).symm.trans (read_eq_ok_iff.mpr ⟨h', hfront'⟩))

/-- The result of a signature without parameters is read like a type by itself. -/
theorem MethodDescriptor.read_result (text : List Char) :
    read ('(' :: ')' :: text) = (TypeDescriptor.read text).map (⟨[], ·⟩) := by
  have hclose := @readParameters_render [] (fun _ hp => nomatch hp) [] text
  rw [List.flatMap_nil, List.nil_append] at hclose
  rw [read, hclose]
  dsimp only [bind, Except.bind, List.reverse_nil, List.nil_append]
  cases TypeDescriptor.read text <;> rfl

theorem MethodDescriptor.classNames_eq_append (d : MethodDescriptor) :
    d.classNames = d.parameters.filterMap TypeDescriptor.className? ++ d.result.className?.toList := by
  rw [classNames, List.filterMap_append]
  cases hname : d.result.className? <;> simp [hname]

theorem MethodDescriptor.classNames_result (t : TypeDescriptor) :
    classNames ⟨[], t⟩ = t.className?.toList :=
  classNames_eq_append ⟨[], t⟩

namespace Descriptor

variable {text : String} {names : List String}

/-! ### Which texts are taken, and which are refused -/

theorem methodClasses_of_taken {d : MethodDescriptor} (h : d.Writable)
    (hfront : d.render <+: text.toList) : methodClasses text = .ok d.classNames :=
  methodClasses_eq_ok_iff.mpr ⟨d, MethodDescriptor.read_eq_ok_iff.mpr ⟨h, hfront⟩, rfl⟩

theorem fieldClasses_of_taken {t : TypeDescriptor} (h : t.Writable ∧ t ≠ ⟨0, .void⟩)
    (hfront : t.render <+: text.toList) : fieldClasses text = .ok t.className?.toList :=
  fieldClasses_eq_ok_iff.mpr ⟨t, TypeDescriptor.read_eq_ok_iff.mpr ⟨h.1, hfront⟩, h.2, rfl⟩

theorem methodClasses_refused_iff :
    (∃ flaw, methodClasses text = .error (.malformed (.methodDescriptor text flaw))) ↔
      ∀ d : MethodDescriptor, d.Writable → ¬ d.render <+: text.toList := by
  constructor
  · rintro ⟨flaw, hrefused⟩ d hwritable hfront
    rw [methodClasses_of_taken hwritable hfront] at hrefused
    cases hrefused
  · intro hnone
    cases hread : MethodDescriptor.read text.toList with
    | ok d =>
      obtain ⟨hwritable, hfront⟩ := MethodDescriptor.read_eq_ok_iff.mp hread
      exact absurd hfront (hnone d hwritable)
    | error flaw => exact ⟨flaw, methodClasses_eq_error_iff.mpr ⟨flaw, hread, rfl⟩⟩

/-- `void` at the front is refused like a text that cannot be read. -/
theorem fieldClasses_refused_iff :
    (∃ flaw, fieldClasses text = .error (.malformed (.fieldDescriptor text flaw))) ↔
      ∀ t : TypeDescriptor, t.Writable ∧ t ≠ ⟨0, .void⟩ → ¬ t.render <+: text.toList := by
  constructor
  · rintro ⟨flaw, hrefused⟩ t htaken hfront
    rw [fieldClasses_of_taken htaken hfront] at hrefused
    cases hrefused
  · intro hnone
    cases hread : TypeDescriptor.read text.toList with
    | ok t =>
      obtain ⟨hwritable, hfront⟩ := TypeDescriptor.read_eq_ok_iff.mp hread
      by_cases hvoid : t = ⟨0, .void⟩
      · exact ⟨.void, by rw [fieldClasses, hread]; exact if_pos hvoid⟩
      · exact absurd hfront (hnone t ⟨hwritable, hvoid⟩)
    | error flaw => exact ⟨.unreadable flaw, by rw [fieldClasses, hread]⟩

/-- A field's descriptor is taken like the result of a method without parameters, unless it begins with
`void`. -/
theorem fieldClasses_iff_methodClasses :
    fieldClasses text = .ok names ↔
      methodClasses ("()" ++ text) = .ok names ∧
        ¬ (TypeDescriptor.mk 0 .void).render <+: text.toList := by
  have htext : ("()" ++ text).toList = '(' :: ')' :: text.toList := by simp
  rw [methodClasses_eq_ok_iff, fieldClasses_eq_ok_iff, htext, MethodDescriptor.read_result]
  constructor
  · rintro ⟨t, hread, hvoid, rfl⟩
    refine ⟨⟨⟨[], t⟩, by rw [hread]; rfl, MethodDescriptor.classNames_result t⟩, fun hfront => ?_⟩
    have hread' := TypeDescriptor.read_eq_ok_iff.mpr ⟨TypeDescriptor.writable_void, hfront⟩
    exact hvoid (Except.ok.inj (hread.symm.trans hread'))
  · rintro ⟨⟨d, hread, rfl⟩, hvoid⟩
    cases ht : TypeDescriptor.read text.toList with
    | error flaw =>
      rw [ht] at hread
      cases hread
    | ok t =>
      rw [ht] at hread
      cases hread
      refine ⟨t, rfl, ?_, (MethodDescriptor.classNames_result t).symm⟩
      rintro rfl
      exact hvoid (TypeDescriptor.read_eq_ok_iff.mp ht).2

/-! ### The main statements -/

/-- Of a descriptor of the grammar the classes are reported that it names, those of the parameters from left
to right and then that of the result: an array names the class of its elements, and a primitive type none. A
field's descriptor is read like the result of a method without parameters. -/
theorem classes_of_proper :
    (∀ d : MethodDescriptor, d.Proper → methodClasses (String.ofList d.render) =
      .ok (d.parameters.filterMap TypeDescriptor.className? ++ d.result.className?.toList)) ∧
    (∀ t : TypeDescriptor, t.OfValue →
      fieldClasses (String.ofList t.render) = .ok t.className?.toList) ∧
    ∀ text names, fieldClasses text = .ok names ↔
      methodClasses ("()" ++ text) = .ok names ∧
        ¬ (TypeDescriptor.mk 0 .void).render <+: text.toList := by
  refine ⟨fun d hd => ?_, fun t ht => ?_, fun text names => fieldClasses_iff_methodClasses⟩
  · rw [methodClasses_render hd.writable, MethodDescriptor.classNames_eq_append]
  · exact fieldClasses_render ht.writable ht.ne_void

/-- A signature with an array of as many dimensions as there can be, and with classes whose names hold the
characters that structure a descriptor. -/
def crowded : MethodDescriptor where
  parameters := [⟨0, .primitive .int⟩, ⟨2, .object "a/)V(["⟩, ⟨255, .primitive .long⟩, ⟨0, .object "L"⟩]
  result := ⟨255, .object ""⟩

theorem classes_of_proper_crowded :
    crowded.Proper ∧ crowded.result.OfValue ∧
    methodClasses (String.ofList crowded.render) = .ok ["a/)V([", "L", ""] ∧
    fieldClasses (String.ofList crowded.result.render) = .ok [""] := by
  have hproper : crowded.Proper := by decide
  have hvalue : crowded.result.OfValue := by decide
  obtain ⟨hmethod, hfield, -⟩ := classes_of_proper
  exact ⟨hproper, hvalue, hmethod crowded hproper, hfield crowded.result hvalue⟩

/-- A text is refused exactly if it is no descriptor of the grammar and no descriptor is taken off its front
laxly. Where one is, the text is no descriptor, and it passes for what stands at its front: text behind that
is ignored, and `void` as a parameter or under dimensions names no class. -/
theorem refused_exact (text : String) :
    ((∃ flaw, methodClasses text = .error (.malformed (.methodDescriptor text flaw))) ↔
      ¬ MethodDescriptor.grammar.Derives text.toList ∧
        ∀ d, ¬ MethodDescriptor.grammar.Lax text.toList d) ∧
    (∀ d, MethodDescriptor.grammar.Lax text.toList d →
      ¬ MethodDescriptor.grammar.Derives text.toList ∧ methodClasses text = .ok d.classNames) ∧
    ((∃ flaw, fieldClasses text = .error (.malformed (.fieldDescriptor text flaw))) ↔
      ¬ TypeDescriptor.fieldGrammar.Derives text.toList ∧
        ∀ t, ¬ TypeDescriptor.fieldGrammar.Lax text.toList t) ∧
    ∀ t, TypeDescriptor.fieldGrammar.Lax text.toList t →
      ¬ TypeDescriptor.fieldGrammar.Derives text.toList ∧
        fieldClasses text = .ok t.className?.toList := by
  refine ⟨?_, fun d hlax => ?_, ?_, fun t hlax => ?_⟩
  · exact methodClasses_refused_iff.trans (FrontGrammar.nothing_taken_iff (g := MethodDescriptor.grammar))
  · exact ⟨hlax.not_derives, methodClasses_of_taken hlax.taken hlax.front⟩
  · exact fieldClasses_refused_iff.trans (FrontGrammar.nothing_taken_iff (g := TypeDescriptor.fieldGrammar))
  · exact ⟨hlax.not_derives, fieldClasses_of_taken hlax.taken hlax.front⟩

/-- A class behind a signature is ignored. -/
theorem lax_rest : MethodDescriptor.grammar.Lax "()VLa/Foo;".toList ⟨[], ⟨0, .void⟩⟩ where
  taken := (by decide : MethodDescriptor.Writable _)
  front := (by decide : MethodDescriptor.render _ <+: _)
  improper h := absurd h (by decide)

/-- No value can be passed for the parameter, and none is in the array. -/
theorem lax_void : MethodDescriptor.grammar.Lax "(V)[V".toList ⟨[⟨0, .void⟩], ⟨1, .void⟩⟩ where
  taken := (by decide : MethodDescriptor.Writable _)
  front := (by decide : MethodDescriptor.render _ <+: _)
  improper _ := (by decide : ¬ MethodDescriptor.Proper _)

theorem lax_field_rest : TypeDescriptor.fieldGrammar.Lax "ILa/Foo;".toList ⟨0, .primitive .int⟩ where
  taken := (by decide : TypeDescriptor.Writable _ ∧ _)
  front := (by decide : TypeDescriptor.render _ <+: _)
  improper h := absurd h (by decide)

theorem lax_field_void : TypeDescriptor.fieldGrammar.Lax "[V".toList ⟨1, .void⟩ where
  taken := (by decide : TypeDescriptor.Writable _ ∧ _)
  front := (by decide : TypeDescriptor.render _ <+: _)
  improper _ := (by decide : ¬ TypeDescriptor.OfValue _)

/-- Classes behind a descriptor are ignored, and `void` passes as a parameter and as an element of arrays. So
not every text that is no descriptor is refused, neither for methods nor for fields. -/
theorem invalid_descriptors_taken :
    methodClasses "()VLa/Foo;" = .ok [] ∧ methodClasses "(V)[V" = .ok [] ∧
    fieldClasses "ILa/Foo;" = .ok [] ∧ fieldClasses "[V" = .ok [] ∧
    (¬ ∀ text : String, ¬ MethodDescriptor.grammar.Derives text.toList →
      ∃ cause, methodClasses text = .error (.malformed cause)) ∧
    ¬ ∀ text : String, ¬ TypeDescriptor.fieldGrammar.Derives text.toList →
      ∃ cause, fieldClasses text = .error (.malformed cause) := by
  have hmethod := methodClasses_of_taken lax_rest.taken lax_rest.front
  have hfield := fieldClasses_of_taken lax_field_rest.taken lax_field_rest.front
  refine ⟨hmethod, methodClasses_of_taken lax_void.taken lax_void.front, hfield,
    fieldClasses_of_taken lax_field_void.taken lax_field_void.front, fun hall => ?_, fun hall => ?_⟩
  · obtain ⟨cause, hrefused⟩ := hall _ lax_rest.not_derives
    rw [hmethod] at hrefused
    cases hrefused
  · obtain ⟨cause, hrefused⟩ := hall _ lax_field_rest.not_derives
    rw [hfield] at hrefused
    cases hrefused

end Descriptor
end ClassXref
