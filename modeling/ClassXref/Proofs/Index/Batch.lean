import ClassXref.Index.Batch
import ClassXref.Proofs.Index.Root

/-! Batches whose class files are committed in different orders. A visit looks at nothing but its buffer,
so workers at the same time differ from one worker only in the order of their commits, and another order
is another history of the same buffers. What a history leaves of uses, and under which names it leaves
records, depends on its reports up to their order. Which record a name has depends on which report came
last. -/
namespace ClassXref

/-- Why the class file cannot be indexed, if it cannot. -/
def ClassInput.failure? (input : ClassInput) : Option Failure :=
  match ClassFile.visit input.data ({} : Events) with
  | .ok _ _ => none
  | .error fault _ => some ⟨input.entry, fault.message⟩

/-- The same counts, and the same failures up to their order. -/
structure Summary.Agrees (summary other : Summary) : Prop where
  classCount : summary.classCount = other.classCount
  indexedCount : summary.indexedCount = other.indexedCount
  failures : summary.failures.Perm other.failures

namespace Index

/-- No question about uses has different answers, and classes are recorded under the same names. -/
structure SameUses (index other : Index) : Prop where
  usages : ∀ s, index.usages s = other.usages s
  usageCount : index.usageCount = other.usageCount
  symbolCount : index.symbolCount = other.symbolCount
  names : index.classes.keys = other.classes.keys
  classCount : index.classCount = other.classCount

/-- No question about the hierarchy has different answers. -/
structure SameHierarchy (index other : Index) : Prop where
  record? : ∀ name, index.record? name = other.record? name
  classTable : index.classTable = other.classTable
  supertypes : ∀ name, index.supertypes name = other.supertypes name
  directSubtypes : ∀ name, index.directSubtypes name = other.directSubtypes name
  allSubtypes : ∀ name, index.allSubtypes name = other.allSubtypes name
  hierarchyRoot : ∀ name, index.hierarchyRoot name = other.hierarchyRoot name

variable {index other : Index} {uses more : List Usage} {records : List ClassRecord}

/-! ### Uses -/

theorem Notes.of_perm (h : Notes index uses) (hperm : uses.Perm more) : Notes index more := by
  have haccepted : (index.filter.acceptedAmong uses).Perm (index.filter.acceptedAmong more) :=
    hperm.filter _
  refine ⟨h.count.trans haccepted.length_eq, fun s => ?_, fun s c => ?_⟩
  · simp only [h.symbols, haccepted.mem_iff]
  · simp only [h.contexts, haccepted.mem_iff]

theorem Notes.usages_eq (h : Notes index uses) (hother : Notes other uses)
    (hfilter : index.filter = other.filter) (s : String) : index.usages s = other.usages s := by
  refine (usages_pairwise index s).eq_of_mem_iff (usages_pairwise other s) fun c => ?_
  rw [h.mem_usages_iff, hother.mem_usages_iff, hfilter]

/-! ### Names of records -/

theorem keys_eq_of_mem_iff {β : Type} {m n : Std.TreeMap String β} (h : ∀ s, s ∈ m ↔ s ∈ n) :
    m.keys = n.keys := by
  refine (keys_pairwise m).eq_of_mem_iff (keys_pairwise n) fun s => ?_
  rw [Std.TreeMap.mem_keys, Std.TreeMap.mem_keys, h]

theorem Declares.keys_eq {declared : List ClassRecord} (h : Declares index records)
    (hother : Declares other declared) (hperm : records.Perm declared) :
    index.classes.keys = other.classes.keys := by
  refine keys_eq_of_mem_iff fun name => ?_
  rw [h.mem_classes_iff, hother.mem_classes_iff, (hperm.map _).mem_iff]

/-! ### Records -/

theorem recordedSuper?_eq (h : ∀ name, index.record? name = other.record? name)
    (hcontains : ∀ name, index.classes.contains name = other.classes.contains name)
    (name : String) : index.recordedSuper? name = other.recordedSuper? name := by
  simp only [recordedSuper?, h, hcontains]

theorem climb_eq (h : ∀ name, index.recordedSuper? name = other.recordedSuper? name)
    (unseen : List String) (name : String) :
    index.climb unseen name = other.climb unseen name := by
  induction unseen, name using Index.climb.induct index with
  | case1 unseen name hunseen parent hparent ih =>
    rw [climb, dif_pos hunseen, hparent, climb, dif_pos hunseen, ← h, hparent]
    exact ih
  | case2 unseen name hunseen hparent =>
    rw [climb, dif_pos hunseen, hparent, climb, dif_pos hunseen, ← h, hparent]
  | case3 unseen name hunseen =>
    rw [climb, dif_neg hunseen, climb, dif_neg hunseen]

/-- All questions about the hierarchy are answered from what is recorded under each name. -/
theorem SameHierarchy.of_record? (h : ∀ name, index.record? name = other.record? name) :
    SameHierarchy index other := by
  have hclasses : index.classes.Equiv other.classes := Std.TreeMap.Equiv.of_forall_constGet?_eq h
  have hrecords : index.records = other.records := by
    rw [Index.records, Index.records, hclasses.toList_eq]
  refine ⟨h, ?_, fun name => ?_, fun name => ?_, fun name => ?_, fun name => ?_⟩
  · rw [Index.classTable, Index.classTable, hrecords]
  · rw [Index.supertypes, Index.supertypes, h]
  · rw [Index.directSubtypes, Index.directSubtypes, hrecords]
  · rw [Index.allSubtypes, Index.allSubtypes, hrecords]
  · rw [Index.hierarchyRoot, Index.hierarchyRoot, hclasses.keys_eq]
    exact climb_eq (recordedSuper?_eq h fun _ => hclasses.contains_eq) _ name

end Index

/-! ### Histories of the same buffers -/

variable {buffers order : List ByteArray}

theorem declaredIn_append (buffers more : List ByteArray) :
    declaredIn (buffers ++ more) = declaredIn buffers ++ declaredIn more := by
  rw [declaredIn, List.filterMap_append, List.flatMap_append]
  rfl

theorem usesIn_perm (h : order.Perm buffers) : (usesIn order).Perm (usesIn buffers) :=
  (h.filterMap reports?).flatMap_right _

theorem declaredIn_perm (h : order.Perm buffers) : (declaredIn order).Perm (declaredIn buffers) :=
  (h.filterMap reports?).flatMap_right _

theorem mem_declaredIn {r : ClassRecord} : r ∈ declaredIn buffers ↔
    ∃ data ∈ buffers, ∃ events, reports? data = some events ∧ events.record = some r := by
  simp only [declaredIn, List.mem_flatMap, List.mem_filterMap, Option.mem_toList]
  constructor
  · rintro ⟨events, ⟨data, hdata, hreports⟩, hrecord⟩
    exact ⟨data, hdata, events, hreports, hrecord⟩
  · rintro ⟨data, hdata, events, hreports, hrecord⟩
    exact ⟨events, ⟨data, hdata, hreports⟩, hrecord⟩

/-- The same buffers in another order leave the same uses, and records under the same names. -/
theorem Index.sameUses_of_perm (h : order.Perm buffers) (filter : NamespaceFilter) :
    SameUses (run filter order) (run filter buffers) := by
  have hfilter : (run filter order).filter = (run filter buffers).filter := by
    rw [filter_run, filter_run]
  have horder : Notes (run filter order) (usesIn buffers) :=
    (notes_run filter order).of_perm (usesIn_perm h)
  have hbuffers : Notes (run filter buffers) (usesIn buffers) := notes_run filter buffers
  have hnames : (run filter order).classes.keys = (run filter buffers).classes.keys :=
    (declares_run filter order).keys_eq (declares_run filter buffers) (declaredIn_perm h)
  refine ⟨horder.usages_eq hbuffers hfilter, ?_, ?_, hnames, ?_⟩
  · rw [horder.count, hbuffers.count, hfilter]
  · rw [horder.symbolCount_eq, hbuffers.symbolCount_eq, hfilter]
  · rw [classCount, classCount, ← Std.TreeMap.length_keys, hnames, Std.TreeMap.length_keys]

/-- What stands first in either order is the same if the elements searched for are all the same. -/
theorem find?_perm_of_agree {α : Type} {p : α → Bool} {xs ys : List α} (hperm : xs.Perm ys)
    (hagree : ∀ a ∈ ys, ∀ b ∈ ys, p a = true → p b = true → a = b) : xs.find? p = ys.find? p := by
  cases hxs : xs.find? p with
  | none =>
    have hnone := List.find?_eq_none.mp hxs
    exact (List.find?_eq_none.mpr fun b hb => hnone b (hperm.mem_iff.mpr hb)).symm
  | some a =>
    have ha : a ∈ ys := hperm.mem_iff.mp (List.mem_of_find?_eq_some hxs)
    cases hys : ys.find? p with
    | none => exact absurd (List.find?_some hxs) (List.find?_eq_none.mp hys a ha)
    | some b =>
      exact congrArg some (hagree a ha b (List.mem_of_find?_eq_some hys) (List.find?_some hxs)
        (List.find?_some hys))

/-! ### Commits -/

namespace Batch

open Index (SameUses SameHierarchy)

variable {classes order : List ClassInput}

theorem commit_eq (progress : Progress) (input : ClassInput) : commit progress input =
    { index := progress.index.after input.data
      indexedCount := progress.indexedCount + (reports? input.data).toList.length
      failures := input.failure?.toList ++ progress.failures } := by
  cases hvisit : ClassFile.visit input.data ({} : Events) with
  | ok name events =>
    rw [commit, EStateM.run, Index.after, Index.add_eq_ok hvisit, reports?, ClassInput.failure?,
      hvisit]
    rfl
  | error fault events =>
    rw [commit, EStateM.run, Index.after, Index.add_eq_error hvisit, reports?, ClassInput.failure?,
      hvisit]
    rfl

theorem foldl_commit (classes : List ClassInput) (progress : Progress) :
    classes.foldl commit progress =
      { index := (classes.map (·.data)).foldl Index.after progress.index
        indexedCount := progress.indexedCount + (classes.filterMap (reports? ·.data)).length
        failures := (classes.filterMap (·.failure?)).reverse ++ progress.failures } := by
  induction classes generalizing progress with
  | nil => rfl
  | cons input classes ih =>
    rw [List.foldl_cons, ih, commit_eq, List.filterMap_cons, List.filterMap_cons]
    cases reports? input.data <;> cases input.failure? <;>
      simp [Nat.add_assoc, Nat.add_comm 1]

/-- The index of a batch is that of a longer history. -/
theorem index_run (filter : NamespaceFilter) (before : List ByteArray) (classes : List ClassInput)
    (failures : List Failure) : (run (Index.run filter before) ⟨classes, failures⟩).1 =
      Index.run filter (before ++ classes.map (·.data)) := by
  rw [run, foldl_commit, Index.run, Index.run, List.foldl_append]

theorem summary_run (index : Index) (classes : List ClassInput) (failures : List Failure) :
    (run index ⟨classes, failures⟩).2 =
      { classCount := classes.length + failures.length
        indexedCount := (classes.filterMap (reports? ·.data)).length
        failures := sortFailures (failures ++ classes.filterMap (·.failure?)) } := by
  rw [run, foldl_commit]
  simp only [List.append_nil, List.reverse_reverse, Nat.zero_add]

theorem sortFailures_perm (failures : List Failure) : (sortFailures failures).Perm failures :=
  List.mergeSort_perm failures _

theorem summary_agrees (h : order.Perm classes) (index other : Index) (failures : List Failure) :
    (run index ⟨order, failures⟩).2.Agrees (run other ⟨classes, failures⟩).2 := by
  rw [summary_run, summary_run]
  refine ⟨?_, (h.filterMap _).length_eq, ?_⟩
  · dsimp only
    rw [h.length_eq]
  · have hfound : (failures ++ order.filterMap (·.failure?)).Perm
        (failures ++ classes.filterMap (·.failure?)) := (h.filterMap _).append_left failures
    exact (sortFailures_perm _).trans (hfound.trans (sortFailures_perm _).symm)

/-- The uses that a batch reports do not depend on the order in which its classes are committed, after
any history and whichever of them fail: all answers about uses, the names of the recorded classes and
the summary are the same, the failures up to their order. -/
theorem uses_independent_of_order (filter : NamespaceFilter) (before : List ByteArray)
    (failures : List Failure) (h : order.Perm classes) :
    SameUses (run (Index.run filter before) ⟨order, failures⟩).1
        (run (Index.run filter before) ⟨classes, failures⟩).1 ∧
      (run (Index.run filter before) ⟨order, failures⟩).2.Agrees
        (run (Index.run filter before) ⟨classes, failures⟩).2 := by
  refine ⟨?_, summary_agrees h _ _ failures⟩
  rw [index_run, index_run]
  exact Index.sameUses_of_perm ((h.map _).append_left before) filter

/-- A version of the class `a/Foo`, which differs from others in its super class. -/
def version (parent : String) : ClassSource where
  minorVersion := 0
  majorVersion := 52
  constants := [.utf8 "a/Foo", .classRef 1, .utf8 parent, .classRef 3]
  access := 0x0021
  thisClass := 2
  superClass := 4
  interfaces := []
  fields := []
  methods := []
  attributes := []

def versionRecord (parent : String) : ClassRecord := ⟨"a/Foo", some parent, [], ⟨0x0021⟩⟩

/-- An archive with two versions of one class, in the order of their entries. -/
def versions : List ClassInput :=
  [⟨"app.jar:META-INF/versions/9/a/Foo.class", (version "a/New").encode.toByteArray⟩,
   ⟨"app.jar:a/Foo.class", (version "a/Old").encode.toByteArray⟩]

/-- The versions, one after the other, with a class file that is cut off. -/
theorem uses_independent_of_order_versions :
    let cut : ClassInput := ⟨"app.jar:a/Cut.class", [0xca, 0xfe].toByteArray⟩
    (cut :: versions).reverse.Perm (cut :: versions) ∧
      SameUses (run (Index.run ⟨["a/"]⟩ []) ⟨(cut :: versions).reverse, []⟩).1
        (run (Index.run ⟨["a/"]⟩ []) ⟨cut :: versions, []⟩).1 ∧
      (run (Index.run ⟨["a/"]⟩ []) ⟨(cut :: versions).reverse, []⟩).2.Agrees
        (run (Index.run ⟨["a/"]⟩ []) ⟨cut :: versions, []⟩).2 := by
  intro cut
  have hperm : (cut :: versions).reverse.Perm (cut :: versions) := List.reverse_perm _
  exact ⟨hperm, uses_independent_of_order ⟨["a/"]⟩ [] [] hperm⟩

/-! ### Which record is kept -/

/-- Every record that a batch declares is the one that is kept, in some order of the commits. -/
theorem exists_order_keeping {r : ClassRecord} (hr : r ∈ declaredIn (classes.map (·.data)))
    (filter : NamespaceFilter) (before : List ByteArray) :
    ∃ order : List ClassInput, order.Perm classes ∧
      (Index.run filter (before ++ order.map (·.data))).record? r.name = some r := by
  obtain ⟨data, hdata, events, hreports, hrecord⟩ := mem_declaredIn.mp hr
  obtain ⟨input, hinput, rfl⟩ := List.mem_map.mp hdata
  obtain ⟨front, back, rfl⟩ := List.append_of_mem hinput
  refine ⟨front ++ back ++ [input],
    (List.perm_append_singleton input (front ++ back)).trans List.perm_middle.symm, ?_⟩
  have hlast : declaredIn [input.data] = [r] := by
    rw [declaredIn, List.filterMap_cons_some hreports]
    simp [hrecord]
  rw [Index.declares_run, List.map_append, List.map_singleton, ← List.append_assoc,
    declaredIn_append, hlast, List.reverse_append, List.reverse_singleton, List.singleton_append]
  exact List.find?_cons_of_pos (beq_self_eq_true r.name)

theorem record?_of_agree (h : order.Perm classes)
    (hagree : ∀ r ∈ declaredIn (classes.map (·.data)), ∀ q ∈ declaredIn (classes.map (·.data)),
      r.name = q.name → r = q)
    (filter : NamespaceFilter) (before : List ByteArray) (name : String) :
    (Index.run filter (before ++ order.map (·.data))).record? name =
      (Index.run filter (before ++ classes.map (·.data))).record? name := by
  have hperm : (declaredIn (order.map (·.data))).reverse.Perm
      (declaredIn (classes.map (·.data))).reverse :=
    ((List.reverse_perm _).trans (declaredIn_perm (h.map _))).trans (List.reverse_perm _).symm
  have hbatch : (declaredIn (order.map (·.data))).reverse.find? (·.name == name) =
      (declaredIn (classes.map (·.data))).reverse.find? (·.name == name) := by
    refine find?_perm_of_agree hperm fun r hr q hq hname hname' => ?_
    exact hagree r (List.mem_reverse.mp hr) q (List.mem_reverse.mp hq)
      ((beq_iff_eq.mp hname).trans (beq_iff_eq.mp hname').symm)
  rw [Index.declares_run, Index.declares_run, declaredIn_append, declaredIn_append,
    List.reverse_append, List.reverse_append, List.find?_append, List.find?_append, hbatch]

/-- The answers about the hierarchy are the same for all orders of the commits just when the batch does
not declare one name in two ways. If it does, the record committed last stays, and either can be. -/
theorem hierarchy_independent_iff (filter : NamespaceFilter) (before : List ByteArray)
    (failures : List Failure) (classes : List ClassInput) :
    (∀ order : List ClassInput, order.Perm classes →
      SameHierarchy (run (Index.run filter before) ⟨order, failures⟩).1
        (run (Index.run filter before) ⟨classes, failures⟩).1) ↔
    ∀ r ∈ declaredIn (classes.map (·.data)), ∀ q ∈ declaredIn (classes.map (·.data)),
      r.name = q.name → r = q := by
  simp only [index_run]
  constructor
  · intro hsame r hr q hq hname
    obtain ⟨order, horder, hr⟩ := exists_order_keeping hr filter before
    obtain ⟨order', horder', hq⟩ := exists_order_keeping hq filter before
    rw [(hsame order horder).record?, hname] at hr
    rw [(hsame order' horder').record?, hr] at hq
    exact Option.some.inj hq
  · intro hagree order h
    exact SameHierarchy.of_record? (record?_of_agree h hagree filter before)

theorem reports?_version {parent : String} (hfits : (version parent).Fits) :
    reports? (version parent).encode.toByteArray =
      some { record := some (versionRecord parent)
             usages := #[⟨.ofClass parent, .ofClass "a/Foo"⟩] } :=
  Index.reports?_bare "a/Foo" parent hfits

/-- The two versions in either order: the same buffers, but another super class of `a/Foo`. -/
theorem hierarchy_depends_on_order_versions : versions.reverse.Perm versions ∧
    (run (Index.run ⟨[]⟩ []) ⟨versions, []⟩).1.record? "a/Foo" = some (versionRecord "a/Old") ∧
    (run (Index.run ⟨[]⟩ []) ⟨versions.reverse, []⟩).1.record? "a/Foo" =
      some (versionRecord "a/New") ∧
    ¬ SameHierarchy (run (Index.run ⟨[]⟩ []) ⟨versions.reverse, []⟩).1
      (run (Index.run ⟨[]⟩ []) ⟨versions, []⟩).1 := by
  have hnewFits : (version "a/New").Fits := by decide
  have holdFits : (version "a/Old").Fits := by decide
  have hnew := reports?_version hnewFits
  have hold := reports?_version holdFits
  have hlisted : (run (Index.run ⟨[]⟩ []) ⟨versions, []⟩).1.record? "a/Foo" =
      some (versionRecord "a/Old") := by
    rw [index_run, Index.declares_run]
    simp [versions, declaredIn, hnew, hold, versionRecord]
  have hreversed : (run (Index.run ⟨[]⟩ []) ⟨versions.reverse, []⟩).1.record? "a/Foo" =
      some (versionRecord "a/New") := by
    rw [index_run, Index.declares_run]
    simp [versions, declaredIn, hnew, hold, versionRecord]
  refine ⟨List.reverse_perm versions, hlisted, hreversed, fun hsame => ?_⟩
  have hrecord := hsame.record? "a/Foo"
  rw [hlisted, hreversed] at hrecord
  exact absurd hrecord (by decide)

end Batch
end ClassXref
