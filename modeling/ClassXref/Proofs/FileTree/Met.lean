import Mathlib.Data.List.Nodup
import ClassXref.FileTree.Place

/-! What a walk down a tree of files meets, in terms of the names that lead there and not of the walk. A
walk goes on in a folder whose path can be looked up, and ends at everything else: files, folders that it
has no right to open, and folders whose paths are too long. Paths grow by a name at a time, so that the
extension of a path is that of its last name. -/
namespace ClassXref

/-! ### Paths -/

namespace Path

theorem splitAtSlashes_ne_nil (text : List Char) : splitAtSlashes text ≠ [] := by
  cases text with
  | nil => simp [splitAtSlashes]
  | cons c text =>
    rw [splitAtSlashes]
    split
    · exact List.cons_ne_nil _ _
    · split <;> exact List.cons_ne_nil _ _

theorem splitAtSlashes_append (front back : List Char) :
    splitAtSlashes (front ++ '/' :: back) = splitAtSlashes front ++ splitAtSlashes back := by
  induction front with
  | nil => rfl
  | cons c front ih =>
    rw [List.cons_append, splitAtSlashes, splitAtSlashes, ih]
    split
    · rfl
    · obtain ⟨part, parts, hparts⟩ := List.exists_cons_of_ne_nil (splitAtSlashes_ne_nil front)
      rw [hparts]
      rfl

theorem splitAtSlashes_of_not_mem {name : List Char} (h : '/' ∉ name) :
    splitAtSlashes name = [name] := by
  induction name with
  | nil => rfl
  | cons c name ih =>
    rw [List.mem_cons, not_or] at h
    rw [splitAtSlashes, if_neg (Ne.symm h.1), ih h.2]

/-- The joined path has a slash in front of the name, its own or that of the folder. -/
theorem exists_toList_join (folder name : String) :
    ∃ front, (join folder name).toList = front ++ '/' :: name.toList := by
  unfold join
  split
  · next hlast =>
    obtain ⟨front, hfront⟩ := List.getLast?_eq_some_iff.mp hlast
    exact ⟨front, by simp [hfront]⟩
  · exact ⟨folder.toList, by simp⟩

/-- The extension of an entry's path is that of its name. -/
theorem extension?_join {name : String} (h : '/' ∉ name.toList) (folder : String) :
    extension? (join folder name) = extensionOf name.toList := by
  obtain ⟨front, hfront⟩ := exists_toList_join folder name
  rw [extension?, hfront, splitAtSlashes_append, splitAtSlashes_of_not_mem h]
  simp

end Path

namespace FileTree

/-- The path of what stands under these names below a path. -/
def pathOf (root : String) (names : List String) : String :=
  names.foldl Path.join root

theorem pathFlaw?_of_pos {path : String} (hzero : '\x00' ∉ path.toList)
    (hpos : 0 < path.utf8ByteSize) :
    pathFlaw? path = if maxPathLength ≤ path.utf8ByteSize then some .nameTooLong else none := by
  have hempty : path ≠ "" := by
    rintro rfl
    exact absurd hpos (by decide)
  rw [pathFlaw?, if_neg hzero, if_neg hempty]

/-! ### Trees -/

/-- What holds of files and of locked folders, and of a folder if it holds of all that lies in it, holds
of every tree. -/
@[elab_as_elim]
theorem induction {P : FileTree → Prop} (file : ∀ data, P (.file data)) (lockedFile : P .lockedFile)
    (folder : ∀ entries, (∀ e ∈ entries, P e.2) → P (.folder entries)) (lockedFolder : P .lockedFolder) :
    ∀ tree, P tree
  | .file data => file data
  | .lockedFile => lockedFile
  | .lockedFolder => lockedFolder
  | .folder entries => folder entries fun e _ => induction file lockedFile folder lockedFolder e.2
termination_by tree => sizeOf tree
decreasing_by
  have hentry := List.sizeOf_lt_of_mem ‹e ∈ entries›
  obtain ⟨name, node⟩ := e
  simp only [FileTree.folder.sizeOf_spec, Prod.mk.sizeOf_spec] at hentry ⊢
  omega

/-- No folder of the tree has two entries of one name. -/
inductive NamesDiffer : FileTree → Prop
  | file (data : ByteArray) : NamesDiffer (.file data)
  | lockedFile : NamesDiffer .lockedFile
  | folder {entries : List (String × FileTree)} : (entries.map (·.1)).Nodup →
      (∀ e ∈ entries, NamesDiffer e.2) → NamesDiffer (.folder entries)
  | lockedFolder : NamesDiffer .lockedFolder

theorem namesDiffer_folder_iff {entries : List (String × FileTree)} :
    NamesDiffer (.folder entries) ↔ (entries.map (·.1)).Nodup ∧ ∀ e ∈ entries, NamesDiffer e.2 := by
  constructor
  · intro h
    cases h with
    | folder hnames hbelow => exact ⟨hnames, hbelow⟩
  · rintro ⟨hnames, hbelow⟩
    exact .folder hnames hbelow

theorem mem_iff_lookup {entries : List (String × FileTree)} (h : (entries.map (·.1)).Nodup)
    {name : String} {node : FileTree} : (name, node) ∈ entries ↔ entries.lookup name = some node := by
  induction entries with
  | nil => simp
  | cons e entries ih =>
    obtain ⟨first, other⟩ := e
    rw [List.map_cons, List.nodup_cons] at h
    rw [List.mem_cons, Prod.mk.injEq, List.lookup_cons, ih h.2]
    by_cases hname : name = first
    · subst hname
      have habsent : (name, node) ∉ entries := fun hmem =>
        h.1 (List.mem_map.mpr ⟨_, hmem, rfl⟩)
      rw [ih h.2] at habsent
      simp [habsent, eq_comm]
    · simp [hname, beq_eq_false_iff_ne.mpr hname]

/-! ### What is met -/

def isFolder : FileTree → Bool
  | .file _ | .lockedFile => false
  | .folder _ | .lockedFolder => true

/-- What comes of reading a node as a file. A folder is read so if its path cannot be looked up. -/
def fileAt? (path : String) (node : FileTree) : Option (Except SystemError ByteArray) :=
  match pathFlaw? path, node with
  | some error, _ => some (.error error)
  | none, .file data => some (.ok data)
  | none, .lockedFile => some (.error .accessDenied)
  | none, .folder _ | none, .lockedFolder => none

theorem fileAt?_eq_none_iff {path : String} {node : FileTree} :
    fileAt? path node = none ↔ node.isFolder = true ∧ pathFlaw? path = none := by
  unfold fileAt?
  cases pathFlaw? path with
  | some error => simp
  | none => cases node <;> simp [isFolder]

/-- The node stands under the names in the tree, every folder above it has a path that can be looked up,
and it is no folder of which the same holds. -/
structure Met (root : String) (tree : FileTree) (names : List String) (node : FileTree) : Prop where
  stands : tree.get? names = some node
  above : ∀ front back, front ++ back = names → back ≠ [] → pathFlaw? (pathOf root front) = none
  ends : ∀ entries, node = .folder entries → pathFlaw? (pathOf root names) ≠ none

variable {root name : String} {tree node : FileTree} {names : List String}

theorem met_nil_iff : Met root tree [] node ↔
    tree = node ∧ ∀ entries, tree = .folder entries → pathFlaw? root ≠ none := by
  constructor
  · intro h
    have htree : tree = node := Option.some.inj h.stands
    subst htree
    exact ⟨rfl, h.ends⟩
  · rintro ⟨rfl, hends⟩
    refine ⟨rfl, fun front back hnil hback => ?_, hends⟩
    exact absurd (List.append_eq_nil_iff.mp hnil).2 hback

theorem met_cons_iff : Met root tree (name :: names) node ↔ pathFlaw? root = none ∧
    ∃ child, tree.entries.lookup name = some child ∧ Met (Path.join root name) child names node := by
  constructor
  · intro h
    refine ⟨h.above [] (name :: names) rfl (List.cons_ne_nil _ _), ?_⟩
    have hstands := h.stands
    rw [get?] at hstands
    cases hchild : tree.entries.lookup name with
    | none =>
      rw [hchild] at hstands
      cases hstands
    | some child =>
      rw [hchild] at hstands
      refine ⟨child, rfl, hstands, fun front back happend hback => ?_, h.ends⟩
      exact h.above (name :: front) back (congrArg (name :: ·) happend) hback
  · rintro ⟨hroot, child, hchild, h⟩
    refine ⟨by rw [get?, hchild]; exact h.stands, fun front back happend hback => ?_, h.ends⟩
    cases front with
    | nil => exact hroot
    | cons first front =>
      rw [List.cons_append, List.cons.injEq] at happend
      obtain ⟨rfl, happend⟩ := happend
      exact h.above front back happend hback

end FileTree
end ClassXref
