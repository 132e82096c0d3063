import ClassXref.Proofs.Collect.Steps
import ClassXref.Proofs.Text.Sorting

/-! What is collected from a folder. A walk meets every node of the tree at which walks end once, in the
order of names, and collects its part; `Tours` says so of a list of visits. One kind of node has no part
although it should have: a folder whose path cannot be looked up is taken for a file of no interest. -/
namespace ClassXref

open Collected (join ofFailure)

namespace Collector

variable {strict : Bool} {path : String} {node : FileTree} {part : Collected}

/-! ### Folders -/

/-- Takes what stands under a name in a folder. -/
def stepOf (folder : String) (entry : String × FileTree) : Collector Unit :=
  orFailure (Path.join folder entry.1) (takeNode false (Path.join folder entry.1) entry.2)

/-- The entries of a folder in the order in which they are taken. -/
def inNameOrder (entries : List (String × FileTree)) : List (String × FileTree) :=
  entries.mergeSort fun a b => decide (a.1 ≤ b.1)

theorem stepsOf_eq_map (folder : String) (entries : List (String × FileTree)) :
    stepsOf folder entries = entries.map fun e => (e.1, stepOf folder e) := by
  induction entries with
  | nil => rfl
  | cons e entries ih => rw [stepsOf, ih, List.map_cons, stepOf]

theorem takeNode_folder (h : FileTree.pathFlaw? path = none) (entries : List (String × FileTree)) :
    takeNode strict path (.folder entries) = (inNameOrder entries).forM (stepOf path) := by
  have hsorted : (inNameOrder entries).map (fun e => (e.1, stepOf path e)) =
      (entries.map fun e => (e.1, stepOf path e)).mergeSort fun a b => decide (a.1 ≤ b.1) := by
    apply List.map_mergeSort
    intro a _ b _
    rfl
  unfold takeNode
  rw [h]
  dsimp only
  rw [inOrder, stepsOf_eq_map, ← hsorted]
  exact List.forM_map

theorem inNameOrder_perm (entries : List (String × FileTree)) :
    (inNameOrder entries).Perm entries :=
  List.mergeSort_perm _ _

theorem settled_takeNode_of_folder
    (h : node.isFolder = true → FileTree.pathFlaw? path = none → Settled (takeNode strict path node)) :
    Settled (takeNode strict path node) := by
  cases hfile : FileTree.fileAt? path node with
  | some content =>
    rw [takeNode_of_fileAt? hfile]
    exact settled_takeFile strict path content
  | none =>
    obtain ⟨hfolder, hflaw⟩ := FileTree.fileAt?_eq_none_iff.mp hfile
    exact h hfolder hflaw

/-- Wherever an obstacle is met, nothing has been added. -/
theorem settled_takeNode (node : FileTree) (strict : Bool) (path : String) :
    Settled (takeNode strict path node) := by
  induction node using FileTree.induction generalizing strict path with
  | file data => exact settled_takeNode_of_folder nofun
  | lockedFile => exact settled_takeNode_of_folder nofun
  | folder entries ih =>
    refine settled_takeNode_of_folder fun _ hflaw => ?_
    have heach : ∀ e ∈ inNameOrder entries, ∃ part, Adds (stepOf path e) part := fun e he =>
      (ih e ((inNameOrder_perm entries).mem_iff.mp he) false _).orFailure _
    obtain ⟨part, hadds⟩ := exists_adds_forM heach
    rw [takeNode_folder hflaw]
    exact hadds.settled
  | lockedFolder =>
    exact settled_takeNode_of_folder fun _ hflaw => (meets_lockedFolder hflaw).settled

/-! ### Walks -/

/-- These visits, in this order, are all that a walk of the tree meets, and these are their parts. -/
structure Tours (path : String) (tree : FileTree) (visits : List (List String × FileTree))
    (parts : List Collected) : Prop where
  yields : List.Forall₂ (fun visit part => Yields (FileTree.pathOf path visit.1) visit.2 part) visits parts
  ascending : visits.Pairwise fun a b => a.1 < b.1
  complete : ∀ names node, (names, node) ∈ visits ↔ FileTree.Met path tree names node

/-- A walk that ends where it begins. -/
theorem exists_tours_of_end
    (hends : ∀ entries, node = .folder entries → FileTree.pathFlaw? path ≠ none) :
    ∃ visits parts, Tours path node visits parts ∧
      Adds (orFailure path (takeNode false path node)) (join parts) := by
  obtain ⟨part, hyields, hadds⟩ := exists_yields hends
  have hjoin : Adds (orFailure path (takeNode false path node)) (join [part]) := by
    rw [Collected.join_singleton]
    exact hadds
  refine ⟨[([], node)], [part], ⟨.cons hyields .nil, List.pairwise_singleton _ _, ?_⟩, hjoin⟩
  intro names leaf
  rw [List.mem_singleton, Prod.mk.injEq]
  constructor
  · rintro ⟨rfl, rfl⟩
    exact FileTree.met_nil_iff.mpr ⟨rfl, hends⟩
  · intro h
    cases names with
    | nil => exact ⟨rfl, (FileTree.met_nil_iff.mp h).1.symm⟩
    | cons name names =>
      obtain ⟨hpath, child, hchild, -⟩ := FileTree.met_cons_iff.mp h
      cases node with
      | folder entries => exact absurd hpath (hends entries rfl)
      | _ => cases hchild

/-- The visits to what lies under a name. -/
def under (name : String) (visits : List (List String × FileTree)) : List (List String × FileTree) :=
  visits.map fun visit => (name :: visit.1, visit.2)

theorem mem_under {name : String} {visits : List (List String × FileTree)} {names : List String} :
    (names, node) ∈ under name visits ↔ ∃ rest, names = name :: rest ∧ (rest, node) ∈ visits := by
  simp only [under, List.mem_map, Prod.mk.injEq, Prod.exists]
  constructor
  · rintro ⟨rest, _, hmem, rfl, rfl⟩
    exact ⟨rest, rfl, hmem⟩
  · rintro ⟨rest, rfl, hmem⟩
    exact ⟨rest, node, hmem, rfl, rfl⟩

/-- Walks of entries, one after the other, in the order of names. -/
theorem exists_visits (folder : String) {entries : List (String × FileTree)}
    (horder : entries.Pairwise fun a b => a.1 < b.1)
    (heach : ∀ e ∈ entries, ∃ visits parts, Tours (Path.join folder e.1) e.2 visits parts ∧
      Adds (stepOf folder e) (join parts)) :
    ∃ visits parts,
      List.Forall₂ (fun visit part => Yields (FileTree.pathOf folder visit.1) visit.2 part) visits parts ∧
      visits.Pairwise (fun a b => a.1 < b.1) ∧
      (∀ names leaf, (names, leaf) ∈ visits ↔ ∃ e ∈ entries, ∃ rest, names = e.1 :: rest ∧
        FileTree.Met (Path.join folder e.1) e.2 rest leaf) ∧
      Adds (entries.forM (stepOf folder)) (join parts) := by
  induction entries with
  | nil => exact ⟨[], [], .nil, .nil, by simp, adds_pure⟩
  | cons e entries ih =>
    rw [List.pairwise_cons] at horder
    obtain ⟨first, firstParts, htours, hfirst⟩ := heach e List.mem_cons_self
    obtain ⟨visits, parts, hyields, hascending, hcomplete, hadds⟩ :=
      ih horder.2 fun d hd => heach d (List.mem_cons_of_mem e hd)
    refine ⟨under e.1 first ++ visits, firstParts ++ parts, ?_, ?_, ?_, ?_⟩
    · have hunder : List.Forall₂ (fun visit part =>
          Yields (FileTree.pathOf folder visit.1) visit.2 part) (under e.1 first) firstParts :=
        List.forall₂_map_left_iff.mpr htours.yields
      exact List.rel_append hunder hyields
    · refine List.pairwise_append.mpr ⟨?_, hascending, ?_⟩
      · refine List.pairwise_map.mpr (htours.ascending.imp fun hlt => ?_)
        exact List.cons_lt_cons_iff.mpr (Or.inr ⟨rfl, hlt⟩)
      · rintro ⟨_, leaf⟩ ha ⟨_, other⟩ hb
        obtain ⟨rest, rfl, -⟩ := mem_under.mp ha
        obtain ⟨d, hd, more, rfl, -⟩ := (hcomplete _ _).mp hb
        exact List.cons_lt_cons_iff.mpr (Or.inl (horder.1 d hd))
    · intro names leaf
      rw [List.mem_append, mem_under, hcomplete, List.exists_mem_cons_iff]
      simp only [htours.complete]
    · rw [Collected.join_append]
      exact adds_forM_cons hfirst hadds

/-- A folder whose path can be looked up is walked entry by entry. -/
theorem exists_tours_of_folder {entries : List (String × FileTree)}
    (hpath : FileTree.pathFlaw? path = none) (hnames : (entries.map (·.1)).Nodup)
    (heach : ∀ e ∈ entries, ∀ path, ∃ visits parts, Tours path e.2 visits parts ∧
      Adds (orFailure path (takeNode false path e.2)) (join parts)) :
    ∃ visits parts, Tours path (.folder entries) visits parts ∧
      ∀ strict, Adds (takeNode strict path (.folder entries)) (join parts) := by
  have hsorted (e : String × FileTree) : e ∈ inNameOrder entries ↔ e ∈ entries :=
    (inNameOrder_perm entries).mem_iff
  obtain ⟨visits, parts, hyields, hascending, hcomplete, hadds⟩ :=
    exists_visits path (Sorting.pairwise_lt Prod.fst hnames)
      fun e he => heach e ((hsorted e).mp he) (Path.join path e.1)
  refine ⟨visits, parts, ⟨hyields, hascending, fun names leaf => ?_⟩, fun strict => ?_⟩
  · rw [hcomplete]
    cases names with
    | nil =>
      constructor
      · rintro ⟨_, -, _, hcons, -⟩
        cases hcons
      · intro h
        exact absurd hpath ((FileTree.met_nil_iff.mp h).2 entries rfl)
    | cons name rest =>
      rw [FileTree.met_cons_iff, FileTree.entries_folder]
      constructor
      · rintro ⟨e, he, _, hcons, hmet⟩
        obtain ⟨rfl, rfl⟩ := List.cons.inj hcons
        exact ⟨hpath, e.2, (FileTree.mem_iff_lookup hnames).mp ((hsorted e).mp he), hmet⟩
      · rintro ⟨-, child, hchild, hmet⟩
        have hmem := (FileTree.mem_iff_lookup hnames).mpr hchild
        exact ⟨(name, child), (hsorted _).mpr hmem, rest, rfl, hmet⟩
  · rw [takeNode_folder hpath]
    exact hadds

/-- A walk of any tree meets what there is to meet, in order, and adds the parts of that. -/
theorem exists_tours {tree : FileTree} (h : tree.NamesDiffer) (path : String) :
    ∃ visits parts, Tours path tree visits parts ∧
      Adds (orFailure path (takeNode false path tree)) (join parts) := by
  induction tree using FileTree.induction generalizing path with
  | file data => exact exists_tours_of_end nofun
  | lockedFile => exact exists_tours_of_end nofun
  | lockedFolder => exact exists_tours_of_end nofun
  | folder entries ih =>
    obtain ⟨hnames, hbelow⟩ := FileTree.namesDiffer_folder_iff.mp h
    by_cases hpath : FileTree.pathFlaw? path = none
    · obtain ⟨visits, parts, htours, hadds⟩ :=
        exists_tours_of_folder hpath hnames fun e he => ih e he (hbelow e he)
      exact ⟨visits, parts, htours, (hadds false).orFailure path⟩
    · exact exists_tours_of_end fun _ _ => hpath

theorem collect_eq_ok {tree : FileTree} (h : Adds (takeNode true path tree) part) :
    collect path tree = .ok part := by
  rw [collect, EStateM.run, h {}]
  rfl

/-- A folder that can be listed is collected from, whatever lies in it: a walk meets all that there is to
meet, each once and in the order of names, and collects the part of each, which is none for a folder that
is overlooked. And wherever an obstacle is met, nothing has been collected on the way there. -/
theorem collect_folder_exact {root : String} {entries : List (String × FileTree)}
    (hroot : FileTree.pathFlaw? root = none) (hnames : (FileTree.folder entries).NamesDiffer) :
    (∃ visits parts, Tours root (.folder entries) visits parts ∧
      collect root (.folder entries) = .ok (join parts)) ∧
    ∀ strict path node before obstacle after,
      takeNode strict path node before = .error obstacle after → after = before := by
  obtain ⟨hentries, hbelow⟩ := FileTree.namesDiffer_folder_iff.mp hnames
  constructor
  · obtain ⟨visits, parts, htours, hadds⟩ :=
      exists_tours_of_folder hroot hentries fun e he => exists_tours (hbelow e he)
    exact ⟨visits, parts, htours, collect_eq_ok (hadds true)⟩
  · intro strict path node before obstacle after h
    rcases settled_takeNode node strict path with ⟨part, hadds⟩ | ⟨met, hmeets⟩
    · rw [hadds before] at h
      cases h
    · rw [hmeets before] at h
      cases h
      rfl

/-- A folder with a file of no interest, a class file and a folder that are locked, and a folder with a
class file. -/
def mixedEntries : List (String × FileTree) :=
  [("notes.txt", .file .empty), ("sub", .lockedFolder), ("A.class", .lockedFile),
   ("lib", .folder [("B.class", .file .empty)])]

theorem collect_folder_exact_mixed :
    FileTree.pathFlaw? "in" = none ∧ (FileTree.folder mixedEntries).NamesDiffer ∧
      ∃ visits parts, Tours "in" (.folder mixedEntries) visits parts ∧
        collect "in" (.folder mixedEntries) = .ok (join parts) := by
  have hroot : FileTree.pathFlaw? "in" = none := by decide
  have hnames : (FileTree.folder mixedEntries).NamesDiffer := by
    have hlib : (FileTree.folder [("B.class", .file .empty)]).NamesDiffer :=
      .folder (by decide) (List.forall_mem_singleton.mpr (.file _))
    refine .folder (by decide) ?_
    simp only [mixedEntries, List.forall_mem_cons]
    exact ⟨.file _, .lockedFolder, .lockedFile, hlib, by simp⟩
  exact ⟨hroot, hnames, (collect_folder_exact hroot hnames).1⟩

/-! ### Folders that are overlooked -/

/-- Of a folder whose path cannot be looked up, by its name no class file and no archive, no trace is
left. -/
theorem adds_overlooked {error : SystemError} (hflaw : FileTree.pathFlaw? path = some error)
    (hother : NamesNeither path) : Adds (orFailure path (takeNode false path node)) {} := by
  have hfile : FileTree.fileAt? path node = some (.error error) := by
    unfold FileTree.fileAt?
    rw [hflaw]
  rw [takeNode_of_fileAt? hfile, takeFile_other hother]
  exact adds_pure.orFailure path

/-- The folder `d`, after so many steps that stay where they are. -/
def longPath (steps : Nat) : String :=
  String.ofList ((List.replicate steps ['.', '/']).flatten ++ ['d'])

theorem utf8ByteSize_longPath (steps : Nat) : (longPath steps).utf8ByteSize = 2 * steps + 1 := by
  rw [longPath, String.utf8ByteSize_ofList, String.utf8Len_append]
  induction steps with
  | zero => rfl
  | succ steps ih =>
    have hstep : String.utf8Len ['.', '/'] = 2 := by decide
    rw [List.replicate_succ, List.flatten_cons, String.utf8Len_append, hstep]
    omega

theorem zero_not_mem_longPath (steps : Nat) : '\x00' ∉ (longPath steps).toList := by
  simp [longPath]

theorem join_longPath (steps : Nat) (name : String) :
    Path.join (longPath steps) name = longPath steps ++ "/" ++ name := by
  have hlast : (longPath steps).toList.getLast? ≠ some '/' := by simp [longPath]
  rw [Path.join, if_neg hlast]

/-- Of 4093 bytes, the path of the folder can be looked up. -/
theorem pathFlaw?_longPath : FileTree.pathFlaw? (longPath 2046) = none := by
  have hsize : (longPath 2046).utf8ByteSize = 4093 := utf8ByteSize_longPath 2046
  rw [FileTree.pathFlaw?_of_pos (zero_not_mem_longPath 2046) (by omega), hsize]
  rfl

/-- Four bytes more, and it cannot. -/
theorem pathFlaw?_join_longPath :
    FileTree.pathFlaw? (Path.join (longPath 2046) "sub") = some .nameTooLong := by
  rw [join_longPath]
  have hzero : '\x00' ∉ (longPath 2046 ++ "/" ++ "sub").toList := by
    rw [String.toList_append, String.toList_append, List.mem_append, List.mem_append, not_or, not_or]
    exact ⟨⟨zero_not_mem_longPath 2046, by decide⟩, by decide⟩
  have hsize : (longPath 2046 ++ "/" ++ "sub").utf8ByteSize = 4097 := by
    rw [String.utf8ByteSize_append, String.utf8ByteSize_append, utf8ByteSize_longPath]
    rfl
  rw [FileTree.pathFlaw?_of_pos hzero (by omega), hsize]
  rfl

/-- The folder can be listed and the one in it can not, but nothing is said of that. -/
theorem folder_overlooked_far :
    FileTree.pathFlaw? (longPath 2046) = none ∧
      collect (longPath 2046) (.folder [("sub", .folder [("B.class", .file .empty)])]) = .ok {} := by
  refine ⟨pathFlaw?_longPath, collect_eq_ok ?_⟩
  have hname : Path.extension? (Path.join (longPath 2046) "sub") = none :=
    Path.extension?_join (by decide) _
  have hother : NamesNeither (Path.join (longPath 2046) "sub") := by
    simp [NamesNeither, NamesClass, NamesArchive, hname]
  have hstep : Adds (stepOf (longPath 2046) ("sub", .folder [("B.class", .file .empty)])) {} :=
    adds_overlooked pathFlaw?_join_longPath hother
  have hrest : Adds (([] : List (String × FileTree)).forM (stepOf (longPath 2046))) {} := adds_pure
  rw [takeNode_folder pathFlaw?_longPath, inNameOrder, List.mergeSort_singleton]
  exact adds_forM_cons hstep hrest

end Collector
end ClassXref
