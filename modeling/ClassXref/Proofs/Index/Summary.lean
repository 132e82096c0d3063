import ClassXref.Proofs.Index.Batch
import ClassXref.Proofs.Text.ByteOrder
import ClassXref.Proofs.Text.Sorting

/-! The summary of a batch. Three numbers are kept apart: how many classes came in, how many of them the
index took, and the list of failures, which already holds what could not be read. They balance for every
order in which the classes are committed, since each commit adds to exactly one of the last two. The list
of failures is sorted in the end; what the sort keeps is said entry by entry. -/
namespace ClassXref

/-- Every class and every earlier failure is in the summary once: as a class that was taken in or as a
failure, and the failures are in the order of the bytes of their entries. -/
structure Summary.Balances (summary : Summary) (classes : List ClassInput) (failures : List Failure) :
    Prop where
  found : summary.classCount = classes.length + failures.length
  total : summary.classCount = summary.indexedCount + summary.failures.length
  indexed : summary.indexedCount = classes.countP fun input => (reports? input.data).isSome
  failures : summary.failures.Perm (failures ++ classes.filterMap (·.failure?))
  sorted : summary.failures.Pairwise fun a b =>
    a.entry.toUTF8.data.toList ≤ b.entry.toUTF8.data.toList

namespace Batch

variable {classes order : List ClassInput} {failures : List Failure}

/-! ### Counts -/

theorem isSome_failure? (input : ClassInput) :
    input.failure?.isSome = !(reports? input.data).isSome := by
  unfold ClassInput.failure? reports?
  cases ClassFile.visit input.data ({} : Events) <;> rfl

/-- A class is taken in or fails, and not both. -/
theorem length_eq_taken_add_failed (classes : List ClassInput) :
    classes.length = (classes.filterMap (reports? ·.data)).length +
      (classes.filterMap (·.failure?)).length := by
  rw [List.length_filterMap_eq_countP, List.length_filterMap_eq_countP]
  have hsplit := List.length_eq_countP_add_countP (fun input : ClassInput =>
    (reports? input.data).isSome) (l := classes)
  simpa only [isSome_failure?, decide_not, Bool.decide_eq_true] using hsplit

/-- A batch loses no input and counts none twice. -/
theorem every_input_accounted (index : Index) (classes : List ClassInput) (failures : List Failure) :
    (∀ order, order.Perm classes → (run index ⟨order, failures⟩).2.Balances classes failures) ∧
      ∀ entry, (run index ⟨classes, failures⟩).2.failures.filter (·.entry = entry) =
        failures.filter (·.entry = entry) ++
          (classes.filterMap (·.failure?)).filter (·.entry = entry) := by
  constructor
  · intro order h
    have hfailures := sortFailures_perm (failures ++ order.filterMap (·.failure?))
    rw [summary_run]
    refine ⟨?_, ?_, ?_, ?_, ?_⟩
    · dsimp only
      rw [h.length_eq]
    · dsimp only
      rw [hfailures.length_eq, List.length_append, length_eq_taken_add_failed order]
      omega
    · dsimp only
      rw [(h.filterMap _).length_eq, List.length_filterMap_eq_countP]
    · exact hfailures.trans ((h.filterMap _).append_left failures)
    · exact (Sorting.pairwise Failure.entry _).imp ModifiedUtf8.le_iff_bytes.mp
  · intro entry
    rw [summary_run]
    have hkept := Sorting.filter_mergeSort Failure.entry
      (failures ++ classes.filterMap (·.failure?)) entry
    rw [List.filter_append] at hkept
    exact hkept

end Batch
end ClassXref
