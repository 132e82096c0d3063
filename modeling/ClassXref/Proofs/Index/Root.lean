import ClassXref.Proofs.ClassFile.RoundTrip
import ClassXref.Proofs.Index.Hierarchy

/-! Where the chain of super classes ends. The chain goes up from a class by one recorded super class at
a time, for as long as there is one; nothing says that it comes to an end. If it does, its last class is
the root. If it does not, it comes back to a class, since only finitely many are recorded, and goes round
from there on: the root is then the class by which it enters the cycle. -/
namespace ClassXref.Index

open Relation (ReflTransGen TransGen)

/-- One step up: both classes are recorded, and `parent` is the super class of `child`. -/
def HasSuper (index : Index) (child parent : String) : Prop :=
  ∃ r, index.record? child = some r ∧ r.superName = some parent ∧ (index.record? parent).isSome

/-- The class that is `k` steps above a name, if the chain gets that far. -/
def chain (index : Index) (name : String) : (k : Nat) → Option String
  | 0 => some name
  | k + 1 => (index.chain name k).bind index.recordedSuper?

variable {index : Index} {name child parent root : String}

/-! ### Steps -/

theorem mem_keys_iff : name ∈ index.classes.keys ↔ (index.record? name).isSome := by
  rw [Std.TreeMap.mem_keys, Std.TreeMap.mem_iff_isSome_getElem?]
  rfl

theorem recordedSuper?_eq_some_iff :
    index.recordedSuper? child = some parent ↔ index.HasSuper child parent := by
  have hcontains (found : String) :
      index.classes.contains found = true ↔ (index.record? found).isSome := by
    rw [Std.TreeMap.contains_eq_isSome_getElem?]
    rfl
  simp only [recordedSuper?, HasSuper, Option.bind_eq_bind, Option.bind_eq_some_iff,
    Option.ite_none_right_eq_some, hcontains]
  constructor
  · rintro ⟨r, hr, found, hfound, hrecorded, hsame⟩
    cases hsame
    exact ⟨r, hr, hfound, hrecorded⟩
  · rintro ⟨r, hr, hsuper, hrecorded⟩
    exact ⟨r, hr, parent, hsuper, hrecorded, rfl⟩

theorem recordedSuper?_eq_none (h : index.record? name = none) : index.recordedSuper? name = none := by
  rw [recordedSuper?, h]
  rfl

theorem chain_succ_eq_some_iff {k : Nat} : index.chain name (k + 1) = some parent ↔
    ∃ child, index.chain name k = some child ∧ index.HasSuper child parent := by
  simp only [chain, Option.bind_eq_some_iff, recordedSuper?_eq_some_iff]

theorem chain_succ_of_eq_some {k : Nat} (h : index.chain name k = some child) :
    index.chain name (k + 1) = index.recordedSuper? child := by
  rw [chain, h, Option.bind_some]

/-- From any of its classes the chain goes on as the chain of that class. -/
theorem chain_add {k : Nat} (h : index.chain name k = some child) (m : Nat) :
    index.chain name (k + m) = index.chain child m := by
  induction m with
  | zero => exact h
  | succ m ih => rw [← Nat.add_assoc, chain, ih, chain]

theorem chain_eq_none_of_le {k m : Nat} (h : index.chain name k = none) (hle : k ≤ m) :
    index.chain name m = none := by
  induction hle with
  | refl => exact h
  | step _ ih => rw [chain, ih, Option.bind_none]

/-- The chain has one last class, at one place. -/
theorem chain_last_unique {k m : Nat} {last : String} (hk : index.chain name k = some last)
    (hk' : index.chain name (k + 1) = none) (hm : index.chain name m = some child)
    (hm' : index.chain name (m + 1) = none) : k = m := by
  have hle {i j : Nat} {c d : String} (hi' : index.chain name (i + 1) = none)
      (hi : index.chain name i = some c) (hj : index.chain name j = some d) : j ≤ i := by
    by_contra hlt
    rw [chain_eq_none_of_le hi' (by omega)] at hj
    cases hj
  exact Nat.le_antisymm (hle hm' hm hk) (hle hk' hk hm)

/-! ### Cycles -/

/-- Behind the place where a cycle closes the chain repeats itself. -/
theorem chain_eq_of_closed {i j m : Nat} (hi : index.chain name i = some root)
    (hj : index.chain name j = some root) (hm : j ≤ m) :
    index.chain name m = index.chain name (i + (m - j)) := by
  have hround : index.chain name (j + (m - j)) = index.chain root (m - j) := chain_add hj (m - j)
  rw [Nat.add_sub_cancel' hm] at hround
  rw [hround, chain_add hi]

/-- What comes behind the entry of a cycle is one of the classes up to where the cycle closes. -/
theorem exists_lt_chain_eq {i j m : Nat} (hi : index.chain name i = some root)
    (hj : index.chain name j = some root) (hij : i < j) (hm : i ≤ m) :
    ∃ k, i ≤ k ∧ k < j ∧ index.chain name m = index.chain name k := by
  induction m using Nat.strongRecOn with
  | ind m ih =>
    by_cases hlt : m < j
    · exact ⟨m, hm, hlt, rfl⟩
    · obtain ⟨k, hik, hkj, hsame⟩ := ih (i + (m - j)) (by omega) (Nat.le_add_right _ _)
      exact ⟨k, hik, hkj, (chain_eq_of_closed hi hj (Nat.le_of_not_lt hlt)).trans hsame⟩

theorem chain_ne_none_of_closed {i j : Nat} (hi : index.chain name i = some root)
    (hj : index.chain name j = some root) (hij : i < j) (m : Nat) : index.chain name m ≠ none := by
  intro hnone
  obtain ⟨k, -, hkj, hsame⟩ := exists_lt_chain_eq hi hj hij (Nat.le_max_left i m)
  have hbeyond := chain_eq_none_of_le hnone (Nat.le_max_right i m)
  rw [hsame] at hbeyond
  rw [chain_eq_none_of_le hbeyond (Nat.le_of_lt hkj)] at hj
  cases hj

/-! ### The climb -/

/-- No class comes up twice below place `k`. -/
def DistinctBelow (index : Index) (name : String) (k : Nat) : Prop :=
  ∀ i j, i < j → j < k → index.chain name i ≠ index.chain name j

/-- A climb goes up the chain past unseen classes, none of them twice, and stops at the last class, at
one that it has come past, or at one that was seen before it began. -/
theorem climb_stops {unseen : List String} (hnodup : unseen.Nodup) (name : String) :
    ∃ k, index.chain name k = some (index.climb unseen name) ∧
      (∀ i < k, ∃ c ∈ unseen, index.chain name i = some c) ∧ index.DistinctBelow name k ∧
      (index.chain name (k + 1) = none ∨
        (∃ i < k, index.chain name i = some (index.climb unseen name)) ∨
        index.climb unseen name ∉ unseen) := by
  induction unseen, name using climb.induct index with
  | case1 unseen name hunseen parent hparent ih =>
    obtain ⟨k, hroot, hpassed, hdistinct, hstop⟩ := ih (hnodup.erase name)
    have hclimb : index.climb unseen name = index.climb (unseen.erase name) parent := by
      rw [climb, dif_pos hunseen, hparent]
    have hfirst : index.chain name 1 = some parent := hparent
    have hnext (m : Nat) : index.chain name (m + 1) = index.chain parent m := by
      rw [Nat.add_comm]
      exact chain_add hfirst m
    rw [hclimb]
    refine ⟨k + 1, (hnext k).trans hroot, ?_, ?_, ?_⟩
    · intro i hi
      cases i with
      | zero => exact ⟨name, hunseen, rfl⟩
      | succ i =>
        obtain ⟨c, hc, hplace⟩ := hpassed i (by omega)
        exact ⟨c, List.mem_of_mem_erase hc, (hnext i).trans hplace⟩
    · intro i j hij hjk
      obtain ⟨j, rfl⟩ := Nat.exists_eq_succ_of_ne_zero (Nat.ne_of_gt (Nat.zero_lt_of_lt hij))
      rw [Nat.succ_eq_add_one, hnext j]
      cases i with
      | zero =>
        obtain ⟨c, hc, hplace⟩ := hpassed j (by omega)
        intro hsame
        rw [hplace] at hsame
        cases hsame
        exact hnodup.not_mem_erase hc
      | succ i =>
        rw [hnext i]
        exact hdistinct i j (by omega) (by omega)
    · rcases hstop with hend | ⟨i, hi, hplace⟩ | hseen
      · exact Or.inl ((hnext (k + 1)).trans hend)
      · exact Or.inr (Or.inl ⟨i + 1, by omega, (hnext i).trans hplace⟩)
      · by_cases hback : index.climb (unseen.erase name) parent = name
        · exact Or.inr (Or.inl ⟨0, Nat.succ_pos k, congrArg some hback.symm⟩)
        · exact Or.inr (Or.inr fun h => hseen ((List.mem_erase_of_ne hback).mpr h))
  | case2 unseen name hunseen hparent =>
    have hclimb : index.climb unseen name = name := by
      rw [climb, dif_pos hunseen, hparent]
    rw [hclimb]
    exact ⟨0, rfl, by simp, by simp [DistinctBelow], Or.inl hparent⟩
  | case3 unseen name hunseen =>
    have hclimb : index.climb unseen name = name := by
      rw [climb, dif_neg hunseen]
    rw [hclimb]
    exact ⟨0, rfl, by simp, by simp [DistinctBelow], Or.inr (Or.inr hunseen)⟩

/-- The root is on the chain, behind classes that are all different, and it is the last class or one of
these. -/
theorem hierarchyRoot_stops (index : Index) (name : String) :
    ∃ k, index.chain name k = some (index.hierarchyRoot name) ∧ index.DistinctBelow name k ∧
      (index.chain name (k + 1) = none ∨
        ∃ i < k, index.chain name i = some (index.hierarchyRoot name)) := by
  have hnodup : index.classes.keys.Nodup := Std.TreeMap.nodup_keys
  obtain ⟨k, hroot, -, hdistinct, hstop⟩ := climb_stops hnodup name
  refine ⟨k, hroot, hdistinct, ?_⟩
  rcases hstop with hend | hback | hunrecorded
  · exact Or.inl hend
  · exact Or.inr hback
  · rw [mem_keys_iff, Option.not_isSome_iff_eq_none] at hunrecorded
    exact Or.inl ((chain_succ_of_eq_some hroot).trans (recordedSuper?_eq_none hunrecorded))

/-! ### The root -/

theorem hierarchyRoot_of_last {k : Nat} {last : String} (hk : index.chain name k = some last)
    (hend : index.chain name (k + 1) = none) : index.hierarchyRoot name = last := by
  obtain ⟨m, hroot, -, hlast | ⟨i, hi, hback⟩⟩ := hierarchyRoot_stops index name
  · rw [chain_last_unique hk hend hroot hlast, hroot] at hk
    exact Option.some.inj hk
  · exact absurd hend (chain_ne_none_of_closed hback hroot hi (k + 1))

/-- On a chain without end the root comes up again, and no class before it does. -/
theorem hierarchyRoot_of_endless (h : ∀ k, index.chain name k ≠ none) :
    ∃ k, index.chain name k = some (index.hierarchyRoot name) ∧
      (∃ j > k, index.chain name j = some (index.hierarchyRoot name)) ∧
      ∀ i < k, ∀ j > i, index.chain name j ≠ index.chain name i := by
  obtain ⟨m, hroot, hdistinct, hlast | ⟨k, hkm, hentry⟩⟩ := hierarchyRoot_stops index name
  · exact absurd hlast (h (m + 1))
  · refine ⟨k, hentry, ⟨m, hkm, hroot⟩, fun i hik j hij hsame => ?_⟩
    by_cases hjm : j < m
    · exact hdistinct i j hij hjm hsame.symm
    · obtain ⟨j', hkj', hj'm, hplace⟩ := exists_lt_chain_eq hentry hroot hkm (by omega : k ≤ j)
      exact hdistinct i j' (by omega) hj'm (hsame.symm.trans hplace)

theorem hierarchyRoot_of_unrecorded (h : index.record? name = none) :
    index.hierarchyRoot name = name :=
  hierarchyRoot_of_last (k := 0) rfl (recordedSuper?_eq_none h)

/-- The chain of a root is at its end at once, or comes back to the root. -/
theorem hierarchyRoot_hierarchyRoot (index : Index) (name : String) :
    index.hierarchyRoot (index.hierarchyRoot name) = index.hierarchyRoot name := by
  obtain ⟨m, hroot, -, hlast | ⟨i, hi, hback⟩⟩ := hierarchyRoot_stops index name
  · exact hierarchyRoot_of_last (k := 0) rfl ((chain_add hroot 1).symm.trans hlast)
  · have hround : index.chain (index.hierarchyRoot name) (m - i) =
        some (index.hierarchyRoot name) := by
      rw [← chain_add hback, Nat.add_sub_cancel' (Nat.le_of_lt hi), hroot]
    have hendless := chain_ne_none_of_closed (i := 0) rfl hround (Nat.sub_pos_of_lt hi)
    obtain ⟨k, hk, -, hbefore⟩ := hierarchyRoot_of_endless hendless
    cases k with
    | zero => exact (Option.some.inj hk).symm
    | succ k => exact absurd hround (hbefore 0 (Nat.succ_pos k) (m - i) (Nat.sub_pos_of_lt hi))

/-! ### Chains and subtypes -/

theorem HasSuper.extends (h : index.HasSuper child parent) : index.Extends child parent := by
  obtain ⟨r, hr, hsuper, -⟩ := h
  refine ⟨by rw [hr]; rfl, ?_⟩
  rw [supertypes, hr]
  exact List.mem_append_left _ (Option.mem_toList.mpr hsuper)

theorem reflTransGen_of_chain {k : Nat} (h : index.chain name k = some root) :
    ReflTransGen index.Extends name root := by
  induction k generalizing root with
  | zero =>
    cases h
    exact .refl
  | succ k ih =>
    obtain ⟨child, hchild, hstep⟩ := chain_succ_eq_some_iff.mp h
    exact (ih hchild).tail hstep.extends

theorem Declares.mem_allSubtypes_iff {records : List ClassRecord} (h : Declares index records) :
    child ∈ index.allSubtypes name ↔ child ≠ name ∧ TransGen index.Extends child name := by
  have hup : index.Extends = Function.swap (Leads index.records) := by
    funext c p
    exact propext h.leads_iff.symm
  rw [Index.mem_allSubtypes_iff, hup, Relation.transGen_swap]

/-- The root of a class after any run of buffers, whatever hierarchy these declare. The chain of a class
takes one recorded super class after the other. If it ends, its last class is the root; if not, the root
is the first of its classes that comes up again. So a root is its own root, and so is a class without a
record; every other class is among the subtypes of its root. -/
theorem hierarchyRoot_exact (filter : NamespaceFilter) (buffers : List ByteArray) (name : String) :
    let index := run filter buffers
    (index.chain name 0 = some name ∧ ∀ k parent, index.chain name (k + 1) = some parent ↔
      ∃ child, index.chain name k = some child ∧ index.HasSuper child parent) ∧
    (∀ k last, index.chain name k = some last → index.chain name (k + 1) = none →
      index.hierarchyRoot name = last) ∧
    ((∀ k, index.chain name k ≠ none) →
      ∃ k, index.chain name k = some (index.hierarchyRoot name) ∧
        (∃ j > k, index.chain name j = some (index.hierarchyRoot name)) ∧
        ∀ i < k, ∀ j > i, index.chain name j ≠ index.chain name i) ∧
    index.hierarchyRoot (index.hierarchyRoot name) = index.hierarchyRoot name ∧
    (index.record? name = none → index.hierarchyRoot name = name) ∧
    (index.hierarchyRoot name ≠ name → name ∈ index.allSubtypes (index.hierarchyRoot name)) := by
  intro index
  refine ⟨⟨rfl, fun _ _ => chain_succ_eq_some_iff⟩, fun _ _ => hierarchyRoot_of_last,
    hierarchyRoot_of_endless, hierarchyRoot_hierarchyRoot index name, hierarchyRoot_of_unrecorded,
    fun hne => ?_⟩
  obtain ⟨k, hroot, -⟩ := hierarchyRoot_stops index name
  rw [(declares_run filter buffers).mem_allSubtypes_iff]
  rcases Relation.reflTransGen_iff_eq_or_transGen.mp (reflTransGen_of_chain hroot) with hsame | hpath
  · exact absurd hsame hne
  · exact ⟨hne.symm, hpath⟩

/-- A class that declares nothing but its super class. -/
def bare (name parent : String) : ClassSource where
  minorVersion := 0
  majorVersion := 52
  constants := [.utf8 name, .classRef 1, .utf8 parent, .classRef 3]
  access := 0x0021
  thisClass := 2
  superClass := 4
  interfaces := []
  fields := []
  methods := []
  attributes := []

def bareRecord (name parent : String) : ClassRecord := ⟨name, some parent, [], ⟨0x0021⟩⟩

theorem reports?_bare (name parent : String) (hfits : (bare name parent).Fits) :
    reports? (bare name parent).encode.toByteArray =
      some { record := some (bareRecord name parent)
             usages := #[⟨.ofClass parent, .ofClass name⟩] } := by
  have hresolve : (bare name parent).resolve = .ok
      { record := bareRecord name parent, majorVersion := 52, pool := (bare name parent).pool,
        fields := [], methods := [], bootstrapMethods := [] } := rfl
  have hparse := Scan.run_eq_ok (ClassFile.readsToEnd_scan hfits hresolve)
  have hvisit := (ClassFile.visit_eq_ok_iff (r := ({} : Events))).mpr ⟨_, hparse, rfl, rfl⟩
  rw [reports?, hvisit]
  rfl

/-- Three classes, the second and third of which extend each other, and one with a super class that is
not among them. -/
def looped : List ByteArray :=
  [(bare "a/A" "a/B").encode.toByteArray, (bare "a/B" "a/C").encode.toByteArray,
   (bare "a/C" "a/B").encode.toByteArray, (bare "a/D" "a/E").encode.toByteArray]

theorem declaredIn_looped : declaredIn looped =
    [bareRecord "a/A" "a/B", bareRecord "a/B" "a/C", bareRecord "a/C" "a/B",
     bareRecord "a/D" "a/E"] := by
  have hA := reports?_bare "a/A" "a/B" (by decide)
  have hB := reports?_bare "a/B" "a/C" (by decide)
  have hC := reports?_bare "a/C" "a/B" (by decide)
  have hD := reports?_bare "a/D" "a/E" (by decide)
  simp [declaredIn, looped, hA, hB, hC, hD]

theorem chain_looped : (run ⟨[]⟩ looped).chain "a/A" 1 = some "a/B" ∧
    (run ⟨[]⟩ looped).chain "a/A" 2 = some "a/C" ∧ (run ⟨[]⟩ looped).chain "a/A" 3 = some "a/B" ∧
    (run ⟨[]⟩ looped).chain "a/D" 1 = none ∧ (run ⟨[]⟩ looped).record? "a/E" = none := by
  have hrecord (name : String) := declares_run ⟨[]⟩ looped name
  rw [declaredIn_looped] at hrecord
  have hsuper {child parent : String} {r : ClassRecord}
      (hr : (run ⟨[]⟩ looped).record? child = some r) : (run ⟨[]⟩ looped).HasSuper child parent ↔
        r.superName = some parent ∧ ((run ⟨[]⟩ looped).record? parent).isSome := by
    simp [HasSuper, hr]
  have hB : (run ⟨[]⟩ looped).record? "a/B" = some (bareRecord "a/B" "a/C") := hrecord _
  have hC : (run ⟨[]⟩ looped).record? "a/C" = some (bareRecord "a/C" "a/B") := hrecord _
  have hE : (run ⟨[]⟩ looped).record? "a/E" = none := hrecord _
  have hfirst : (run ⟨[]⟩ looped).chain "a/A" 1 = some "a/B" :=
    chain_succ_eq_some_iff.mpr ⟨"a/A", rfl, (hsuper (hrecord _)).mpr ⟨rfl, by rw [hB]; rfl⟩⟩
  have hsecond : (run ⟨[]⟩ looped).chain "a/A" 2 = some "a/C" :=
    chain_succ_eq_some_iff.mpr ⟨"a/B", hfirst, (hsuper hB).mpr ⟨rfl, by rw [hC]; rfl⟩⟩
  refine ⟨hfirst, hsecond, chain_succ_eq_some_iff.mpr
    ⟨"a/C", hsecond, (hsuper hC).mpr ⟨rfl, by rw [hB]; rfl⟩⟩, ?_, hE⟩
  refine Option.eq_none_iff_forall_ne_some.mpr fun parent hparent => ?_
  obtain ⟨child, ⟨⟩, hstep⟩ := chain_succ_eq_some_iff.mp hparent
  obtain ⟨⟨⟩, hrecorded⟩ := (hsuper (hrecord "a/D")).mp hstep
  rw [hE] at hrecorded
  cases hrecorded

/-- The chain of `a/A` enters a cycle at `a/B`, that of `a/D` ends at once. -/
theorem hierarchyRoot_exact_looped :
    let index := run ⟨[]⟩ looped
    (∀ k, index.chain "a/A" k ≠ none) ∧ index.hierarchyRoot "a/A" = "a/B" ∧
    "a/A" ∈ index.allSubtypes "a/B" ∧ index.hierarchyRoot "a/B" = "a/B" ∧
    index.chain "a/D" 1 = none ∧ index.hierarchyRoot "a/D" = "a/D" ∧
    index.record? "a/E" = none ∧ index.hierarchyRoot "a/E" = "a/E" := by
  intro index
  obtain ⟨hfirst, hsecond, hthird, hend, hnone⟩ := chain_looped
  obtain ⟨-, -, hcycle, hagain, -, hbelow⟩ := hierarchyRoot_exact ⟨[]⟩ looped "a/A"
  obtain ⟨-, hlast, -⟩ := hierarchyRoot_exact ⟨[]⟩ looped "a/D"
  obtain ⟨-, -, -, -, hunrecorded, -⟩ := hierarchyRoot_exact ⟨[]⟩ looped "a/E"
  have hendless := chain_ne_none_of_closed hfirst hthird (by decide)
  have hroot : index.hierarchyRoot "a/A" = "a/B" := by
    obtain ⟨k, hk, ⟨j, hkj, hj⟩, hbefore⟩ := hcycle hendless
    match k, hk, hkj, hbefore with
    | 0, hk, hkj, _ =>
      -- `a/A` is not among the two classes of the cycle.
      obtain ⟨i, hi, hi3, hsame⟩ := exists_lt_chain_eq hfirst hthird (by decide) hkj
      rw [hj, ← hk] at hsame
      obtain rfl | rfl : i = 1 ∨ i = 2 := by omega
      · have hname : "a/A" = "a/B" := Option.some.inj (hsame.trans hfirst)
        exact absurd hname (by decide)
      · have hname : "a/A" = "a/C" := Option.some.inj (hsame.trans hsecond)
        exact absurd hname (by decide)
    | 1, hk, _, _ => exact (Option.some.inj (hfirst.symm.trans hk)).symm
    | k + 2, _, _, hbefore =>
      exact absurd (hthird.trans hfirst.symm) (hbefore 1 (by omega) 3 (by decide))
  rw [hroot] at hagain hbelow
  exact ⟨hendless, hroot, hbelow (by decide), hagain, hend, hlast 0 _ rfl hend, hnone,
    hunrecorded hnone⟩

end ClassXref.Index
