import ClassXref.Index.Hierarchy
import ClassXref.Proofs.Index.History
import ClassXref.Proofs.Text.Sorting
import Mathlib.Data.List.Sort
import Mathlib.Data.String.Basic
import Mathlib.Logic.Relation

/-! Which classes the questions about the hierarchy find. Steps go from a class to its direct subtypes,
one record a step, and everything below a class is what a chain of steps reaches from it. The search
takes a record out when it meets it, so a chain that comes back to a class, or to where it started,
needs an argument: what the search drops is reached another way. -/
namespace ClassXref.Index

open Relation (TransGen)

/-- By one of `records`, `child` has `parent` as super class or interface. -/
def Leads (records : List ClassRecord) (parent child : String) : Prop :=
  ∃ r ∈ records, parent ∈ r.supertypes ∧ r.name = child

variable {records unfound : List ClassRecord} {pending : List String} {parent child name : String}

/-! ### One step -/

theorem transGen_leads_mono {more : List ClassRecord} (hsub : ∀ r ∈ records, r ∈ more)
    (h : TransGen (Leads records) parent child) : TransGen (Leads more) parent child := by
  refine TransGen.mono (fun p c hstep => ?_) _ _ h
  obtain ⟨r, hr, hsuper, hname⟩ := hstep
  exact ⟨r, hsub r hr, hsuper, hname⟩

theorem mem_childrenAmong {r : ClassRecord} :
    r ∈ childrenAmong records parent ↔ r ∈ records ∧ parent ∈ r.supertypes := by
  rw [childrenAmong, List.mem_filter, ClassRecord.extendsOrImplements_iff]

theorem mem_othersAmong {r : ClassRecord} :
    r ∈ othersAmong records parent ↔ r ∈ records ∧ parent ∉ r.supertypes := by
  rw [othersAmong, List.mem_filter, Bool.not_eq_true', ← Bool.not_eq_true,
    ClassRecord.extendsOrImplements_iff]

theorem mem_names_childrenAmong :
    child ∈ (childrenAmong records parent).map (·.name) ↔ Leads records parent child := by
  simp only [List.mem_map, mem_childrenAmong, Leads, and_assoc]

/-! ### The search -/

/-- What the remaining records reach, all records reach: a child of `parent` stands for a step from
`parent`. -/
theorem transGen_of_others (h : ∃ p ∈ (childrenAmong unfound parent).map (·.name) ++ pending,
      TransGen (Leads (othersAmong unfound parent)) p child) :
    ∃ p ∈ parent :: pending, TransGen (Leads unfound) p child := by
  obtain ⟨p, hp, hpath⟩ := h
  have hpath' : TransGen (Leads unfound) p child :=
    transGen_leads_mono (fun _ hr => (mem_othersAmong.mp hr).1) hpath
  rcases List.mem_append.mp hp with hchild | hpending
  · exact ⟨parent, List.mem_cons_self, TransGen.head (mem_names_childrenAmong.mp hchild) hpath'⟩
  · exact ⟨p, List.mem_cons_of_mem parent hpending, hpath'⟩

/-- What all records reach is a child of `parent`, or the remaining records reach it: the last record
of a chain that is a child of `parent` starts a chain of its own. -/
theorem others_of_transGen {p : String} (hp : p ∈ parent :: pending)
    (hpath : TransGen (Leads unfound) p child) :
    Leads unfound parent child ∨ ∃ q ∈ (childrenAmong unfound parent).map (·.name) ++ pending,
      TransGen (Leads (othersAmong unfound parent)) q child := by
  induction hpath with
  | single hstep =>
    obtain ⟨r, hr, hsuper, rfl⟩ := hstep
    by_cases hchild : parent ∈ r.supertypes
    · exact Or.inl ⟨r, hr, hchild, rfl⟩
    · have hpending : p ∈ pending := by
        rcases List.mem_cons.mp hp with rfl | hpending
        · exact absurd hsuper hchild
        · exact hpending
      exact Or.inr ⟨p, List.mem_append_right _ hpending,
        .single ⟨r, mem_othersAmong.mpr ⟨hr, hchild⟩, hsuper, rfl⟩⟩
  | @tail middle _ _ hstep ih =>
    obtain ⟨r, hr, hsuper, rfl⟩ := hstep
    by_cases hchild : parent ∈ r.supertypes
    · exact Or.inl ⟨r, hr, hchild, rfl⟩
    · have hlast : Leads (othersAmong unfound parent) middle r.name :=
        ⟨r, mem_othersAmong.mpr ⟨hr, hchild⟩, hsuper, rfl⟩
      rcases ih with hmiddle | ⟨q, hq, hfront⟩
      · exact Or.inr ⟨middle, List.mem_append_left _ (mem_names_childrenAmong.mpr hmiddle),
          .single hlast⟩
      · exact Or.inr ⟨q, hq, hfront.tail hlast⟩

/-- The search finds exactly what a chain of records reaches from a pending name. -/
theorem mem_gatherBelow_iff : child ∈ gatherBelow unfound pending ↔
    ∃ p ∈ pending, TransGen (Leads unfound) p child := by
  induction unfound, pending using gatherBelow.induct with
  | case1 unfound => simp [gatherBelow]
  | case2 unfound parent pending children ih =>
    rw [gatherBelow, List.mem_append, ih]
    constructor
    · rintro (hchild | hbelow)
      · exact ⟨parent, List.mem_cons_self, .single (mem_names_childrenAmong.mp hchild)⟩
      · exact transGen_of_others hbelow
    · rintro ⟨p, hp, hpath⟩
      rcases others_of_transGen hp hpath with hchild | hbelow
      · exact Or.inl (mem_names_childrenAmong.mpr hchild)
      · exact Or.inr hbelow

theorem map_name_childrenAmong_sublist (records : List ClassRecord) (parent : String) :
    ((childrenAmong records parent).map (·.name)).Sublist (records.map (·.name)) :=
  List.filter_sublist.map _

/-- A class is found once: its record is taken out when it is met. -/
theorem nodup_gatherBelow (h : (unfound.map (·.name)).Nodup) :
    (gatherBelow unfound pending).Nodup := by
  induction unfound, pending using gatherBelow.induct with
  | case1 unfound => simp [gatherBelow]
  | case2 unfound parent pending children ih =>
    rw [gatherBelow]
    have hothers : ((othersAmong unfound parent).map (·.name)).Nodup :=
      h.sublist (List.filter_sublist.map _)
    refine List.nodup_append'.mpr ⟨h.sublist (map_name_childrenAmong_sublist unfound parent),
      ih hothers, fun c hchild hbelow => ?_⟩
    obtain ⟨r, hr, hsuper, hname⟩ := mem_names_childrenAmong.mp hchild
    obtain ⟨p, -, hpath⟩ := mem_gatherBelow_iff.mp hbelow
    obtain ⟨_, -, r', hr', -, hname'⟩ := TransGen.tail'_iff.mp hpath
    obtain ⟨hr', hnot⟩ := mem_othersAmong.mp hr'
    have hsame : r = r' := List.inj_on_of_nodup_map h hr hr' (hname.trans hname'.symm)
    exact hnot (hsame ▸ hsuper)

/-- A chain that avoids the records of `name` is a chain from `name` to another class: what lies before
its last visit to `name` can be left out. -/
theorem transGen_filter_iff : TransGen (Leads (records.filter (·.name != name))) name child ↔
    child ≠ name ∧ TransGen (Leads records) name child := by
  constructor
  · intro h
    refine ⟨?_, transGen_leads_mono (fun r hr => (List.mem_filter.mp hr).1) h⟩
    obtain ⟨_, -, r, hr, -, rfl⟩ := TransGen.tail'_iff.mp h
    exact bne_iff_ne.mp (List.mem_filter.mp hr).2
  · rintro ⟨hne, h⟩
    induction h with
    | single hstep =>
      obtain ⟨r, hr, hsuper, rfl⟩ := hstep
      exact .single ⟨r, List.mem_filter.mpr ⟨hr, bne_iff_ne.mpr hne⟩, hsuper, rfl⟩
    | @tail middle _ _ hstep ih =>
      obtain ⟨r, hr, hsuper, rfl⟩ := hstep
      have hlast : Leads (records.filter (·.name != name)) middle r.name :=
        ⟨r, List.mem_filter.mpr ⟨hr, bne_iff_ne.mpr hne⟩, hsuper, rfl⟩
      by_cases hback : middle = name
      · exact .single (hback ▸ hlast)
      · exact (ih hback).tail hlast

/-- Everything below a class, as the search gives it from these records. -/
theorem mem_gatherBelow_filter_iff : child ∈ gatherBelow (records.filter (·.name != name)) [name] ↔
    child ≠ name ∧ TransGen (Leads records) name child := by
  rw [mem_gatherBelow_iff]
  simp only [List.mem_singleton, exists_eq_left]
  exact transGen_filter_iff

/-! ### Sorted answers -/

theorem pairwise_lt_mergeSort {names : List String} (h : names.Nodup) :
    names.mergeSort.Pairwise (· < ·) :=
  Sorting.pairwise_lt id (by rwa [List.map_id])

/-- Sorting names that differ gives the one ascending list of these names. -/
theorem mergeSort_eq_of_mem_iff {names sorted : List String} (hnames : names.Nodup)
    (hsorted : sorted.Pairwise (· < ·)) (h : ∀ c, c ∈ names ↔ c ∈ sorted) :
    names.mergeSort = sorted :=
  (pairwise_lt_mergeSort hnames).eq_of_mem_iff hsorted fun c => by rw [List.mem_mergeSort, h]

/-! ### Recorded classes -/

/-- One step up: the class `child` is recorded and has `parent` as super class or interface. -/
def Extends (index : Index) (child parent : String) : Prop :=
  (index.record? child).isSome ∧ parent ∈ index.supertypes child

variable {index : Index}

theorem Declares.leads_iff (h : Declares index records) :
    Leads index.records parent child ↔ index.Extends child parent := by
  constructor
  · rintro ⟨r, hr, hsuper, rfl⟩
    have hrecord := h.record?_of_mem hr
    refine ⟨by rw [hrecord]; rfl, ?_⟩
    rw [supertypes, hrecord]
    exact hsuper
  · rintro ⟨hrecorded, hsuper⟩
    obtain ⟨r, hr⟩ := Option.isSome_iff_exists.mp hrecorded
    rw [supertypes, hr] at hsuper
    have hmem : r ∈ index.records :=
      List.mem_map.mpr ⟨(child, r), Std.TreeMap.mem_toList_iff_getElem?_eq_some.mpr hr, rfl⟩
    exact ⟨r, hmem, hsuper, h.name_eq hr⟩

theorem Declares.pairwise_names (h : Declares index records) :
    (index.records.map (·.name)).Pairwise (· < ·) := by
  rw [h.map_name_records]
  exact keys_pairwise index.classes

theorem Declares.nodup_names (h : Declares index records) :
    (index.records.map (·.name)).Nodup :=
  h.pairwise_names.imp ne_of_lt

theorem Declares.pairwise_directSubtypes (h : Declares index records) (name : String) :
    (index.directSubtypes name).Pairwise (· < ·) :=
  h.pairwise_names.sublist (map_name_childrenAmong_sublist index.records name)

theorem Declares.mem_directSubtypes_iff (h : Declares index records) :
    child ∈ index.directSubtypes parent ↔ index.Extends child parent := by
  rw [directSubtypes, mem_names_childrenAmong, h.leads_iff]

theorem Declares.nodup_gatherBelow (h : Declares index records) (name : String) :
    (gatherBelow (index.records.filter (·.name != name)) [name]).Nodup :=
  Index.nodup_gatherBelow (h.nodup_names.sublist (List.filter_sublist.map _))

theorem Declares.pairwise_allSubtypes (h : Declares index records) (name : String) :
    (index.allSubtypes name).Pairwise (· < ·) :=
  pairwise_lt_mergeSort (h.nodup_gatherBelow name)

theorem mem_allSubtypes_iff : child ∈ index.allSubtypes name ↔
    child ≠ name ∧ TransGen (Leads index.records) name child := by
  rw [allSubtypes, List.mem_mergeSort, mem_gatherBelow_filter_iff]

/-! ### Other orders of the records -/

theorem leads_perm {order : List ClassRecord} (h : order.Perm records) :
    Leads order = Leads records := by
  funext p c
  exact propext (exists_congr fun r => and_congr_left' h.mem_iff)

theorem mergeSort_names_childrenAmong_perm {order : List ClassRecord} (h : Declares index records)
    (hperm : order.Perm index.records) :
    ((childrenAmong order name).map (·.name)).mergeSort = index.directSubtypes name := by
  have hnodup : (order.map (·.name)).Nodup := (hperm.map _).nodup_iff.mpr h.nodup_names
  refine mergeSort_eq_of_mem_iff (hnodup.sublist (map_name_childrenAmong_sublist order name))
    (h.pairwise_directSubtypes name) fun c => ?_
  rw [directSubtypes, mem_names_childrenAmong, mem_names_childrenAmong, leads_perm hperm]

theorem mergeSort_gatherBelow_perm {order : List ClassRecord} (h : Declares index records)
    (hperm : order.Perm index.records) :
    (gatherBelow (order.filter (·.name != name)) [name]).mergeSort = index.allSubtypes name := by
  have hnodup : (order.map (·.name)).Nodup := (hperm.map _).nodup_iff.mpr h.nodup_names
  refine mergeSort_eq_of_mem_iff (nodup_gatherBelow (hnodup.sublist (List.filter_sublist.map _)))
    (h.pairwise_allSubtypes name) fun c => ?_
  rw [mem_allSubtypes_iff, mem_gatherBelow_filter_iff, leads_perm hperm]

/-- The questions about subtypes after any run of buffers, whatever hierarchy these declare. Direct
subtypes are the recorded classes that are one step below; all subtypes are the recorded classes from
which steps lead up to the class, the class itself left out, and so the transitive closure of direct
subtypes. Neither answer depends on the order in which the records are gone through. -/
theorem subtypes_exact (filter : NamespaceFilter) (buffers : List ByteArray) (name : String) :
    ((run filter buffers).directSubtypes name).Pairwise (· < ·) ∧
    (∀ b, b ∈ (run filter buffers).directSubtypes name ↔ (run filter buffers).Extends b name) ∧
    ((run filter buffers).allSubtypes name).Pairwise (· < ·) ∧
    (∀ c, c ∈ (run filter buffers).allSubtypes name ↔
      c ≠ name ∧ TransGen (run filter buffers).Extends c name) ∧
    (∀ c, c ∈ (run filter buffers).allSubtypes name ↔
      c ≠ name ∧ TransGen (fun p b => b ∈ (run filter buffers).directSubtypes p) name c) ∧
    (∀ order : List ClassRecord, order.Perm (run filter buffers).records →
      ((childrenAmong order name).map (·.name)).mergeSort =
        (run filter buffers).directSubtypes name ∧
      (gatherBelow (order.filter (·.name != name)) [name]).mergeSort =
        (run filter buffers).allSubtypes name) := by
  have hdeclares := declares_run filter buffers
  generalize run filter buffers = index at hdeclares ⊢
  have hdown : (fun p b => b ∈ index.directSubtypes p) = Leads index.records := by
    funext p b
    exact propext (hdeclares.mem_directSubtypes_iff.trans hdeclares.leads_iff.symm)
  have hup : index.Extends = Function.swap (Leads index.records) := by
    funext c p
    exact propext hdeclares.leads_iff.symm
  refine ⟨hdeclares.pairwise_directSubtypes name, fun b => hdeclares.mem_directSubtypes_iff,
    hdeclares.pairwise_allSubtypes name, fun c => ?_, fun c => ?_, fun order hperm => ⟨?_, ?_⟩⟩
  · rw [mem_allSubtypes_iff, hup, Relation.transGen_swap]
  · rw [mem_allSubtypes_iff, hdown]
  · exact mergeSort_names_childrenAmong_perm hdeclares hperm
  · exact mergeSort_gatherBelow_perm hdeclares hperm

end ClassXref.Index
