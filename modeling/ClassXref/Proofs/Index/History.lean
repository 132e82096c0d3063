import ClassXref.Index.Basic
import ClassXref.Proofs.ClassFile.References
import Mathlib.Data.List.Dedup
import Std.Data.TreeMap.Lemmas
import Std.Data.TreeSet.Lemmas

/-! The index after any run of buffers, in terms of what their visits reported. The reports of a buffer
that fails are no part of the history, however far its visit came. Two invariants carry the run:
`Notes` relates contexts and count to the uses so far, `Declares` the classes to the records so far. -/
namespace ClassXref

/-- What the visit of a buffer reported, if it came to its end. -/
def reports? (data : ByteArray) : Option Events :=
  match ClassFile.visit data ({} : Events) with
  | .ok _ events => some events
  | .error _ _ => none

/-- The uses that the visits of these buffers reported, without those that failed. -/
def usesIn (buffers : List ByteArray) : List Usage :=
  (buffers.filterMap reports?).flatMap (·.usages.toList)

/-- The records that these buffers declare, without those that failed. -/
def declaredIn (buffers : List ByteArray) : List ClassRecord :=
  (buffers.filterMap reports?).flatMap (·.record.toList)

namespace NamespaceFilter

def acceptedAmong (filter : NamespaceFilter) (uses : List Usage) : List Usage :=
  uses.filter fun u => filter.accepts u.symbol.text

end NamespaceFilter

namespace Index

/-- The index after a buffer was offered to it, with success or without. -/
def after (index : Index) (data : ByteArray) : Index :=
  match Index.add data index with
  | .ok _ index => index
  | .error _ index => index

/-- A fresh index after these buffers were offered to it in order. -/
def run (filter : NamespaceFilter) (buffers : List ByteArray) : Index :=
  buffers.foldl after (empty filter)

/-- The contexts and the count are those of the accepted uses among `uses`. -/
structure Notes (index : Index) (uses : List Usage) : Prop where
  count : index.usageCount = (index.filter.acceptedAmong uses).length
  symbols : ∀ s, s ∈ index.contexts ↔ ∃ u ∈ index.filter.acceptedAmong uses, u.symbol.text = s
  contexts : ∀ s c, c ∈ index.contexts.getD s {} ↔
    ∃ u ∈ index.filter.acceptedAmong uses, u.symbol.text = s ∧ u.referrer.text = c

/-- The record of a class is the last of that name among `records`. -/
def Declares (index : Index) (records : List ClassRecord) : Prop :=
  ∀ name, index.record? name = records.reverse.find? (·.name == name)

variable {index : Index} {uses : List Usage} {records : List ClassRecord} {filter : NamespaceFilter}

/-! ### One report -/

theorem filter_noteUsage (index : Index) (u : Usage) : (index.noteUsage u).filter = index.filter := by
  unfold noteUsage note
  split <;> rfl

theorem classes_noteUsage (index : Index) (u : Usage) :
    (index.noteUsage u).classes = index.classes := by
  unfold noteUsage note
  split <;> rfl

theorem acceptedAmong_snoc_of_accepts {u : Usage} (h : filter.accepts u.symbol.text = true) :
    filter.acceptedAmong (uses ++ [u]) = filter.acceptedAmong uses ++ [u] := by
  rw [NamespaceFilter.acceptedAmong, List.filter_append, List.filter_singleton, h]
  rfl

theorem acceptedAmong_snoc_of_not_accepts {u : Usage}
    (h : ¬ filter.accepts u.symbol.text = true) :
    filter.acceptedAmong (uses ++ [u]) = filter.acceptedAmong uses := by
  rw [NamespaceFilter.acceptedAmong, List.filter_append, List.filter_singleton,
    eq_false_of_ne_true h]
  exact List.append_nil _

theorem noteUsage_of_accepts {u : Usage} (h : index.filter.accepts u.symbol.text = true) :
    index.noteUsage u = { index with
      contexts := index.contexts.insert u.symbol.text
        ((index.contexts.getD u.symbol.text {}).insert u.referrer.text)
      usageCount := index.usageCount + 1 } := by
  rw [noteUsage, note, if_pos h]

theorem noteUsage_of_not_accepts {u : Usage} (h : ¬ index.filter.accepts u.symbol.text = true) :
    index.noteUsage u = index := by
  rw [noteUsage, note, if_neg h]

theorem Notes.noteUsage (h : Notes index uses) (u : Usage) :
    Notes (index.noteUsage u) (uses ++ [u]) := by
  by_cases hu : index.filter.accepts u.symbol.text = true
  · rw [noteUsage_of_accepts hu]
    refine ⟨?_, ?_, ?_⟩
    · rw [acceptedAmong_snoc_of_accepts hu, List.length_append, ← h.count]
      rfl
    · intro s
      simp only [acceptedAmong_snoc_of_accepts hu, Std.TreeMap.mem_insert, h.symbols s,
        Std.LawfulEqCmp.compare_eq_iff_eq, List.mem_append, List.mem_singleton, or_and_right,
        exists_or, exists_eq_left]
      exact or_comm
    · intro s c
      simp only [acceptedAmong_snoc_of_accepts hu, Std.TreeMap.getD_insert,
        Std.LawfulEqCmp.compare_eq_iff_eq, List.mem_append, List.mem_singleton, or_and_right,
        exists_or, exists_eq_left]
      by_cases hs : u.symbol.text = s
      · subst hs
        rw [if_pos rfl, Std.TreeSet.mem_insert, Std.LawfulEqCmp.compare_eq_iff_eq, h.contexts]
        simp only [true_and]
        exact or_comm
      · rw [if_neg hs, h.contexts]
        simp only [hs, false_and, or_false]
  · rw [noteUsage_of_not_accepts hu]
    have haccepted : index.filter.acceptedAmong (uses ++ [u]) = index.filter.acceptedAmong uses :=
      acceptedAmong_snoc_of_not_accepts hu
    exact ⟨haccepted ▸ h.count, haccepted ▸ h.symbols, haccepted ▸ h.contexts⟩

theorem Notes.noteUsages (h : Notes index uses) (more : List Usage) :
    Notes (more.foldl Index.noteUsage index) (uses ++ more) := by
  induction more generalizing index uses with
  | nil => rwa [List.append_nil]
  | cons u more ih =>
    have hrest := ih (h.noteUsage u)
    rwa [List.append_assoc, List.singleton_append] at hrest

theorem classes_noteUsages (index : Index) (more : List Usage) :
    (more.foldl noteUsage index).classes = index.classes := by
  induction more generalizing index with
  | nil => rfl
  | cons u more ih => rw [List.foldl_cons, ih, classes_noteUsage]

theorem filter_noteUsages (index : Index) (more : List Usage) :
    (more.foldl noteUsage index).filter = index.filter := by
  induction more generalizing index with
  | nil => rfl
  | cons u more ih => rw [List.foldl_cons, ih, filter_noteUsage]

theorem Declares.declare (h : Declares index records) (r : ClassRecord) :
    Declares (index.declare r) (records ++ [r]) := by
  intro name
  rw [List.reverse_append, List.reverse_singleton, List.singleton_append, List.find?_cons, ← h name]
  unfold record? Index.declare
  rw [Std.TreeMap.getElem?_insert]
  by_cases hname : r.name = name
  · rw [if_pos (Std.LawfulEqCmp.compare_eq_iff_eq.mpr hname), beq_iff_eq.mpr hname]
  · rw [if_neg (Std.LawfulEqCmp.compare_eq_iff_eq.not.mpr hname), beq_eq_false_iff_ne.mpr hname]

/-! ### One visit -/

theorem Notes.addEvents (h : Notes index uses) (events : Events) :
    Notes (index.addEvents events) (uses ++ events.usages.toList) := by
  have hnoted := h.noteUsages events.usages.toList
  rw [Index.addEvents, ← Array.foldl_toList]
  cases events.record with
  | none => exact hnoted
  | some record => exact ⟨hnoted.count, hnoted.symbols, hnoted.contexts⟩

theorem Declares.addEvents (h : Declares index records) (events : Events) :
    Declares (index.addEvents events) (records ++ events.record.toList) := by
  have hnoted : Declares (events.usages.foldl Index.noteUsage index) records := by
    intro name
    rw [record?, ← Array.foldl_toList, classes_noteUsages]
    exact h name
  unfold Index.addEvents
  cases events.record with
  | none => rwa [Option.toList_none, List.append_nil]
  | some record => exact hnoted.declare record

theorem filter_addEvents (index : Index) (events : Events) :
    (index.addEvents events).filter = index.filter := by
  rw [addEvents, ← Array.foldl_toList]
  cases events.record with
  | none => exact filter_noteUsages index _
  | some record => exact filter_noteUsages index _

/-! ### Runs -/

theorem add_eq_ok {data : ByteArray} {name : String} {events : Events}
    (h : ClassFile.visit data ({} : Events) = .ok name events) :
    Index.add data index = .ok name (index.addEvents events) := by
  unfold add EStateM.run
  rw [h]
  rfl

theorem add_eq_error {data : ByteArray} {fault : Fault} {events : Events}
    (h : ClassFile.visit data ({} : Events) = .error fault events) :
    Index.add data index = .error fault index := by
  unfold add EStateM.run
  rw [h]
  rfl

theorem after_of_reports {data : ByteArray} {events : Events} (h : reports? data = some events) :
    index.after data = index.addEvents events := by
  unfold reports? at h
  cases hvisit : ClassFile.visit data ({} : Events) with
  | ok name found =>
    rw [hvisit] at h
    cases h
    rw [after, add_eq_ok hvisit]
  | error fault found =>
    rw [hvisit] at h
    cases h

/-- A buffer that fails leaves the index as it was. -/
theorem after_of_fails {data : ByteArray} (h : reports? data = none) : index.after data = index := by
  unfold reports? at h
  cases hvisit : ClassFile.visit data ({} : Events) with
  | ok name found =>
    rw [hvisit] at h
    cases h
  | error fault found => rw [after, add_eq_error hvisit]

theorem usesIn_cons (data : ByteArray) (buffers : List ByteArray) :
    usesIn (data :: buffers) =
      ((reports? data).elim [] fun events => events.usages.toList) ++ usesIn buffers := by
  rw [usesIn, List.filterMap_cons]
  cases reports? data with
  | none => rfl
  | some events => rw [List.flatMap_cons]; rfl

theorem declaredIn_cons (data : ByteArray) (buffers : List ByteArray) :
    declaredIn (data :: buffers) =
      ((reports? data).elim [] fun events => events.record.toList) ++ declaredIn buffers := by
  rw [declaredIn, List.filterMap_cons]
  cases reports? data with
  | none => rfl
  | some events => rw [List.flatMap_cons]; rfl

/-- What one buffer does is right for a whole run: both invariants hold of what its visits reported. -/
theorem run_invariant (buffers : List ByteArray) (hnotes : Notes index uses)
    (hdeclares : Declares index records) :
    (buffers.foldl after index).filter = index.filter ∧
      Notes (buffers.foldl after index) (uses ++ usesIn buffers) ∧
        Declares (buffers.foldl after index) (records ++ declaredIn buffers) := by
  induction buffers generalizing index uses records with
  | nil =>
    simp only [List.foldl_nil, usesIn, declaredIn, List.filterMap_nil, List.flatMap_nil,
      List.append_nil, true_and]
    exact ⟨hnotes, hdeclares⟩
  | cons data buffers ih =>
    rw [List.foldl_cons, usesIn_cons, declaredIn_cons]
    cases hreports : reports? data with
    | none =>
      rw [after_of_fails hreports]
      exact ih hnotes hdeclares
    | some events =>
      rw [after_of_reports hreports]
      have hrest := ih (hnotes.addEvents events) (hdeclares.addEvents events)
      rwa [List.append_assoc, List.append_assoc, filter_addEvents] at hrest

theorem notes_empty (filter : NamespaceFilter) : Notes (empty filter) [] := by
  refine ⟨rfl, fun s => ?_, fun s c => ?_⟩
  · simp [empty, NamespaceFilter.acceptedAmong]
  · simp [empty, NamespaceFilter.acceptedAmong]

theorem declares_empty (filter : NamespaceFilter) : Declares (empty filter) [] := by
  intro name
  simp [empty, record?]

theorem filter_run (filter : NamespaceFilter) (buffers : List ByteArray) :
    (run filter buffers).filter = filter :=
  (run_invariant buffers (notes_empty filter) (declares_empty filter)).1

theorem notes_run (filter : NamespaceFilter) (buffers : List ByteArray) :
    Notes (run filter buffers) (usesIn buffers) :=
  (run_invariant buffers (notes_empty filter) (declares_empty filter)).2.1

theorem declares_run (filter : NamespaceFilter) (buffers : List ByteArray) :
    Declares (run filter buffers) (declaredIn buffers) :=
  (run_invariant buffers (notes_empty filter) (declares_empty filter)).2.2

/-! ### Answers -/

theorem lt_of_compare_eq_lt {a b : String} (h : compare a b = .lt) : a < b :=
  compareOfLessAndEq_eq_lt.mp h

theorem usages_pairwise (index : Index) (s : String) : (index.usages s).Pairwise (· < ·) :=
  Std.TreeSet.ordered_toList.imp lt_of_compare_eq_lt

theorem keys_pairwise {β : Type} (m : Std.TreeMap String β) : m.keys.Pairwise (· < ·) :=
  Std.TreeMap.ordered_keys.imp lt_of_compare_eq_lt

theorem Notes.mem_usages_iff (h : Notes index uses) {s c : String} :
    c ∈ index.usages s ↔
      index.filter.accepts s = true ∧ ∃ u ∈ uses, u.symbol.text = s ∧ u.referrer.text = c := by
  rw [usages, Std.TreeSet.mem_toList, h.contexts]
  simp only [NamespaceFilter.acceptedAmong, List.mem_filter]
  constructor
  · rintro ⟨u, ⟨hu, haccepts⟩, rfl, rfl⟩
    exact ⟨haccepts, u, hu, rfl, rfl⟩
  · rintro ⟨haccepts, u, hu, rfl, rfl⟩
    exact ⟨u, ⟨hu, haccepts⟩, rfl, rfl⟩

/-- A map has as many keys as there are different names among those that it holds. -/
theorem size_eq_length_dedup {β : Type} {m : Std.TreeMap String β} {names : List String}
    (h : ∀ s, s ∈ m ↔ s ∈ names) : m.size = names.dedup.length := by
  rw [← Std.TreeMap.length_keys]
  apply List.Perm.length_eq
  rw [List.perm_ext_iff_of_nodup Std.TreeMap.nodup_keys (List.nodup_dedup names)]
  intro s
  rw [Std.TreeMap.mem_keys, h, List.mem_dedup]

theorem Notes.symbolCount_eq (h : Notes index uses) :
    index.symbolCount =
      ((index.filter.acceptedAmong uses).map (·.symbol.text)).dedup.length := by
  refine size_eq_length_dedup fun s => ?_
  rw [h.symbols, List.mem_map]

theorem Declares.mem_classes_iff (h : Declares index records) {name : String} :
    name ∈ index.classes ↔ name ∈ records.map (·.name) := by
  rw [Std.TreeMap.mem_iff_isSome_getElem?]
  have hname := h name
  unfold record? at hname
  rw [hname, List.find?_isSome, List.mem_map]
  simp

theorem Declares.name_eq (h : Declares index records) {name : String} {r : ClassRecord}
    (hr : index.record? name = some r) : r.name = name := by
  rw [h name] at hr
  have hfound := List.find?_some hr
  exact beq_iff_eq.mp hfound

/-- The listed records have the names that the classes are kept under. -/
theorem Declares.map_name_records (h : Declares index records) :
    index.records.map (·.name) = index.classes.keys := by
  rw [Index.records, List.map_map, ← Std.TreeMap.map_fst_toList_eq_keys]
  apply List.map_congr_left
  rintro ⟨name, r⟩ hr
  exact h.name_eq (Std.TreeMap.mem_toList_iff_getElem?_eq_some.mp hr)

theorem Declares.record?_of_mem (h : Declares index records) {r : ClassRecord}
    (hr : r ∈ index.records) : index.record? r.name = some r := by
  obtain ⟨⟨name, r'⟩, hmem, rfl⟩ := List.mem_map.mp hr
  have hrecord : index.record? name = some r' :=
    Std.TreeMap.mem_toList_iff_getElem?_eq_some.mp hmem
  rw [h.name_eq hrecord]
  exact hrecord

theorem run_of_fails {data : ByteArray} (h : reports? data = none) (filter : NamespaceFilter)
    (before more : List ByteArray) :
    run filter (before ++ data :: more) = run filter (before ++ more) := by
  rw [run, run, List.foldl_append, List.foldl_append, List.foldl_cons, after_of_fails h]

/-- The answers of the index after any run, in terms of the uses and the records that the visits of its
buffers reported. Uses count as often as they are reported; contexts are listed once and in order;
the record of a class is the one declared last; and a buffer whose visit fails might as well not have
been offered. -/
theorem run_exact (filter : NamespaceFilter) (buffers : List ByteArray) :
    (run filter buffers).usageCount = (filter.acceptedAmong (usesIn buffers)).length ∧
    (∀ s, ((run filter buffers).usages s).Pairwise (· < ·) ∧
      (∀ c, c ∈ (run filter buffers).usages s ↔ filter.accepts s = true ∧
        ∃ u ∈ usesIn buffers, u.symbol.text = s ∧ u.referrer.text = c) ∧
      (filter.accepts s = false → (run filter buffers).usages s = [])) ∧
    (run filter buffers).symbolCount =
      ((filter.acceptedAmong (usesIn buffers)).map (·.symbol.text)).dedup.length ∧
    (∀ name, (run filter buffers).record? name =
      (declaredIn buffers).reverse.find? (·.name == name)) ∧
    (run filter buffers).classCount = ((declaredIn buffers).map (·.name)).dedup.length ∧
    (∃ rows : List ClassRecord, (run filter buffers).classTable = rows.map ClassRecord.tableRow ∧
      (rows.map (·.name)).Pairwise (· < ·) ∧
      (∀ name, name ∈ rows.map (·.name) ↔ name ∈ (declaredIn buffers).map (·.name)) ∧
      (∀ r ∈ rows, (run filter buffers).record? r.name = some r)) ∧
    (∀ before data more fault events, ClassFile.visit data ({} : Events) = .error fault events →
      run filter (before ++ data :: more) = run filter (before ++ more)) := by
  have hfilter := filter_run filter buffers
  have hnotes := notes_run filter buffers
  have hdeclares := declares_run filter buffers
  refine ⟨?_, ?_, ?_, hdeclares, size_eq_length_dedup fun _ => hdeclares.mem_classes_iff, ?_, ?_⟩
  · rw [hnotes.count, hfilter]
  · intro s
    have hmem (c : String) : c ∈ (run filter buffers).usages s ↔ filter.accepts s = true ∧
        ∃ u ∈ usesIn buffers, u.symbol.text = s ∧ u.referrer.text = c := by
      rw [hnotes.mem_usages_iff, hfilter]
    refine ⟨usages_pairwise _ s, hmem, fun hrefused => List.eq_nil_iff_forall_not_mem.mpr ?_⟩
    intro c hc
    rw [((hmem c).mp hc).1] at hrefused
    cases hrefused
  · rw [hnotes.symbolCount_eq, hfilter]
  · refine ⟨(run filter buffers).records, rfl, ?_, ?_, fun r hr => hdeclares.record?_of_mem hr⟩
    · rw [hdeclares.map_name_records]
      exact Std.TreeMap.ordered_keys.imp lt_of_compare_eq_lt
    · intro name
      rw [hdeclares.map_name_records, Std.TreeMap.mem_keys, hdeclares.mem_classes_iff]
  · intro before data more fault events hfails
    refine run_of_fails ?_ filter before more
    rw [reports?, hfails]

end Index
end ClassXref
