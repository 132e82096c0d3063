import ClassXref.Proofs.ClassFile.ArrayNames
import ClassXref.Proofs.Descriptor.Grammar

/-! Array types in code and in declarations. Code refers to one by a `Class` constant, and the brackets of the
stored name are trimmed off; a declaration has a descriptor, which is parsed. The main statement says that every
array type passes both ways and that both come to the same: the class of its elements, or none. The header of a
class and `Exceptions` tables name classes and no types; their names are the subject of `ArrayNames`. -/
namespace ClassXref

open Recorder (replay)
open Descriptor (classOfName fieldClasses methodClasses)

namespace TypeDescriptor

/-- The type as the text of a descriptor or of a `Class` constant. -/
def text (t : TypeDescriptor) : String := String.ofList t.render

/-- Wherever the type occurs, its uses are those of the named classes: as the class that an instruction
operates on, as a constant that is loaded or passed to a bootstrap method, as a catch type, as the type of a
field, and as a parameter or the result of a method. -/
structure IndexedAs (t : TypeDescriptor) (names : List String) : Prop where
  operand : ∀ (ctx : CodeContext) (index : UInt16), ctx.pool.IsClass index t.text → ∀ log : Events,
    ctx.useOperand .classRef index log = .ok () (replay log (ctx.referrer.uses (names.map .ofClass)))
  argument : ∀ (pool : Pool) (expected : Wanted) (index : UInt16), pool.IsClass index t.text →
    CodeContext.argumentSymbols pool expected index = .ok (names.map .ofClass)
  caught : ∀ (ctx : CodeContext) (handler : Handler), handler.catchType = some t.text → ∀ log : Events,
    ctx.useHandlers [handler] log = .ok () (replay log (ctx.referrer.uses (names.map .ofClass)))
  field : ∀ (owner : String) (f : Field), f.descriptor = t.text → ∀ log : Events,
    ClassFile.useField owner f log =
      .ok () (replay log ((ClassFile.fieldReferrer owner f).uses (names.map .ofClass)))
  parameter : ∀ before after result, (MethodDescriptor.mk (before ++ t :: after) result).Writable →
    methodClasses (String.ofList (MethodDescriptor.mk (before ++ t :: after) result).render) =
      .ok (before.filterMap className? ++ names ++
        (after.filterMap className? ++ result.className?.toList))
  result : ∀ parameters, (MethodDescriptor.mk parameters t).Writable →
    methodClasses (String.ofList (MethodDescriptor.mk parameters t).render) =
      .ok (parameters.filterMap className? ++ names)

variable {t : TypeDescriptor}

/-- An array type is never `void`, so as a field's descriptor it is taken. -/
theorem fieldClasses_text (h : t.Writable) (harray : 1 ≤ t.dimensions) :
    fieldClasses t.text = .ok t.className?.toList := by
  apply Descriptor.fieldClasses_render h
  rintro rfl
  exact absurd harray (by decide)

theorem classSymbols_text (harray : 1 ≤ t.dimensions) :
    CodeContext.classSymbols t.text = t.className?.toList.map .ofClass := by
  rw [CodeContext.classSymbols, text, Descriptor.classOfName_render t harray]

theorem filterMap_className? (before after : List TypeDescriptor) :
    (before ++ t :: after).filterMap className? =
      before.filterMap className? ++ t.className?.toList ++ after.filterMap className? := by
  rw [List.filterMap_append, List.append_assoc]
  cases hname : t.className? <;> simp [hname]

/-- Both ways end at the class of the elements, so every occurrence is indexed as that class. -/
theorem indexedAs_className? (h : t.Writable) (harray : 1 ≤ t.dimensions) :
    t.IndexedAs t.className?.toList where
  operand ctx index hclass log := by
    rw [← classSymbols_text harray]
    exact CodeContext.useOperand_classRef_iff.mpr ⟨t.text, hclass, rfl⟩
  argument pool expected index hclass := by
    rw [← classSymbols_text harray]
    exact CodeContext.argumentSymbols_eq_ok_iff.mpr ⟨_, .classRef hclass, rfl⟩
  caught ctx handler hcatch log := by
    rw [CodeContext.useHandlers, List.flatMap_singleton, hcatch, Option.toList_some,
      List.flatMap_singleton, classSymbols_text harray]
    exact Visit.useAll_run _ _ _
  field owner f hdescriptor log := by
    apply (ClassFile.useField_eq_ok_iff owner f log _).mpr
    exact ⟨_, ⟨_, hdescriptor ▸ fieldClasses_text h harray, rfl⟩, rfl⟩
  parameter before after result hwritable := by
    rw [Descriptor.methodClasses_render hwritable, MethodDescriptor.classNames_eq_append,
      filterMap_className?, List.append_assoc]
  result parameters hwritable := by
    rw [Descriptor.methodClasses_render hwritable, MethodDescriptor.classNames_eq_append]

/-- The name that is trimmed and the descriptor that is parsed agree on every array type, whatever characters
the class name of its elements holds: both yield the same class, or both yield none. So the type is indexed
under the same symbol in code and in declarations. -/
theorem array_reduced_alike (h : t.Writable) (harray : 1 ≤ t.dimensions) :
    (∀ name, classOfName t.text = some name ↔ fieldClasses t.text = .ok [name]) ∧
    (classOfName t.text = none ↔ fieldClasses t.text = .ok []) ∧
    t.IndexedAs (classOfName t.text).toList := by
  have hclass : classOfName t.text = t.className? := Descriptor.classOfName_render t harray
  rw [hclass, fieldClasses_text h harray]
  refine ⟨fun name => ?_, ?_, indexedAs_className? h harray⟩
  all_goals cases t.className? <;> simp

/-- As many dimensions as there can be, over a class whose name begins like an array type. -/
def deepest : TypeDescriptor := ⟨255, .object "[L"⟩

theorem array_reduced_alike_deepest :
    deepest.Writable ∧ 1 ≤ deepest.dimensions ∧ classOfName deepest.text = some "[L" ∧
    fieldClasses deepest.text = .ok ["[L"] ∧ deepest.IndexedAs ["[L"] := by
  have hwritable : deepest.Writable := by decide
  have harray : 1 ≤ deepest.dimensions := by decide
  have hclass : classOfName deepest.text = some "[L" := Descriptor.classOfName_render deepest harray
  obtain ⟨hsome, -, hindexed⟩ := array_reduced_alike hwritable harray
  rw [hclass] at hindexed
  exact ⟨hwritable, harray, hclass, (hsome "[L").mp hclass, hindexed⟩

end TypeDescriptor
end ClassXref
