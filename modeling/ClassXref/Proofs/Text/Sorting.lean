import Mathlib.Data.String.Basic

/-! Lists that are sorted by a text of each element. The sort is stable: the elements of one text are, in
their old order, sorted among themselves, so that they stay in that order. -/
namespace ClassXref.Sorting

variable {α : Type} (key : α → String)

theorem trans (a b c : α) (hab : decide (key a ≤ key b) = true) (hbc : decide (key b ≤ key c) = true) :
    decide (key a ≤ key c) = true :=
  decide_eq_true (String.le_trans (of_decide_eq_true hab) (of_decide_eq_true hbc))

theorem total (a b : α) : (decide (key a ≤ key b) || decide (key b ≤ key a)) = true := by
  rw [Bool.or_eq_true, decide_eq_true_iff, decide_eq_true_iff]
  exact String.le_total (key a) (key b)

theorem pairwise (xs : List α) :
    (xs.mergeSort fun a b => decide (key a ≤ key b)).Pairwise fun a b => key a ≤ key b :=
  (List.pairwise_mergeSort (trans key) (total key) xs).imp of_decide_eq_true

/-- Different texts are in strict order. -/
theorem pairwise_lt {xs : List α} (h : (xs.map key).Nodup) :
    (xs.mergeSort fun a b => decide (key a ≤ key b)).Pairwise fun a b => key a < key b := by
  have hkeys : ((xs.mergeSort fun a b => decide (key a ≤ key b)).map key).Nodup :=
    ((List.mergeSort_perm xs _).map key).nodup_iff.mpr h
  have hne := List.pairwise_map.mp hkeys
  exact ((pairwise key xs).and hne).imp fun h => lt_of_le_of_ne h.1 h.2

/-- The elements of one text stay in their order. -/
theorem filter_mergeSort (xs : List α) (k : String) :
    (xs.mergeSort fun a b => decide (key a ≤ key b)).filter (key · = k) = xs.filter (key · = k) := by
  have hkey : ∀ a ∈ xs.filter (key · = k), key a = k := fun a ha =>
    of_decide_eq_true (List.mem_filter.mp ha).2
  have hsorted : (xs.filter (key · = k)).Pairwise fun a b => decide (key a ≤ key b) = true := by
    refine List.pairwise_of_forall_mem_list fun a ha b hb => decide_eq_true ?_
    rw [hkey a ha, hkey b hb]
  have hkept := List.sublist_mergeSort (trans key) (total key) hsorted List.filter_sublist
  have hfiltered := hkept.filter (key · = k)
  rw [List.filter_filter] at hfiltered
  simp only [Bool.and_self] at hfiltered
  exact (hfiltered.eq_of_length ((List.mergeSort_perm xs _).filter _).length_eq.symm).symm

end ClassXref.Sorting
