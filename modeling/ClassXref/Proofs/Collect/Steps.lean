import ClassXref.Collect
import ClassXref.Proofs.FileTree.Met
import ClassXref.Proofs.Stateful
import Mathlib.Data.List.Forall2
import Mathlib.Data.String.Basic
import Std.Data.TreeMap.Lemmas

/-! What one step of collecting adds. Each step either adds a part, whatever has been collected before, or
meets an obstacle and adds nothing; `Adds` and `Meets` say so and are kept by all that steps are made of.
`Yields` says which part belongs to a node at which a walk through a tree ends. -/
namespace ClassXref

/-! ### Parts -/

namespace Collected

instance : Append Collected where
  append a b := { classes := a.classes ++ b.classes, failures := a.failures ++ b.failures }

theorem append_empty (a : Collected) : a ++ ({} : Collected) = a :=
  congrArg₂ Collected.mk (List.append_nil _) (List.append_nil _)

theorem append_assoc (a b c : Collected) : a ++ b ++ c = a ++ (b ++ c) :=
  congrArg₂ Collected.mk (List.append_assoc _ _ _) (List.append_assoc _ _ _)

/-- All parts, one after the other. -/
def join (parts : List Collected) : Collected :=
  parts.foldr (· ++ ·) {}

theorem join_cons (part : Collected) (parts : List Collected) :
    join (part :: parts) = part ++ join parts := rfl

theorem join_singleton (part : Collected) : join [part] = part :=
  append_empty part

theorem join_append (parts more : List Collected) :
    join (parts ++ more) = join parts ++ join more := by
  induction parts with
  | nil => rfl
  | cons part parts ih => rw [List.cons_append, join_cons, join_cons, ih, append_assoc]

/-- Just one class. -/
def ofClass (entry : String) (data : ByteArray) : Collected :=
  { classes := [{ entry, data }] }

/-- Just one failure. -/
def ofFailure (entry error : String) : Collected :=
  { failures := [{ entry, error }] }

end Collected

open Collected (join ofClass ofFailure)

/-! ### Steps -/

namespace Collector

/-- Whatever has been collected before, the step adds this part to it. -/
def Adds (step : Collector Unit) (part : Collected) : Prop :=
  ∀ before, step before = .ok () (before ++ part)

/-- The step meets this obstacle, and adds nothing to what has been collected before. -/
def Meets (step : Collector Unit) (obstacle : Obstacle) : Prop :=
  ∀ before, step before = .error obstacle before

variable {path : String} {step : Collector Unit} {part : Collected} {obstacle : Obstacle}

theorem meets_throw (obstacle : Obstacle) : Meets (throw obstacle) obstacle :=
  fun _ => rfl

theorem adds_pure : Adds (pure ()) {} := by
  intro before
  rw [Collected.append_empty]
  rfl

theorem adds_addClass (entry : String) (data : ByteArray) :
    Adds (addClass entry data) (ofClass entry data) := by
  intro before
  have happend : before ++ ofClass entry data =
      { before with classes := before.classes ++ [{ entry, data }] } :=
    congrArg (Collected.mk _) (List.append_nil _)
  rw [happend]
  rfl

theorem adds_addFailure (entry error : String) :
    Adds (addFailure entry error) (ofFailure entry error) := by
  intro before
  have happend : before ++ ofFailure entry error =
      { before with failures := before.failures ++ [{ entry, error }] } :=
    congrArg (Collected.mk · _) (List.append_nil _)
  rw [happend]
  rfl

theorem Adds.orFailure (h : Adds step part) (path : String) :
    Adds (Collector.orFailure path step) part := by
  intro before
  simp only [Collector.orFailure, tryCatch, tryCatchThe, MonadExceptOf.tryCatch, EStateM.tryCatch,
    h before]

theorem Meets.orFailure (h : Meets step obstacle) (path : String) :
    Adds (Collector.orFailure path step) (ofFailure path obstacle.message) := by
  intro before
  rw [← adds_addFailure path obstacle.message before]
  simp only [Collector.orFailure, tryCatch, tryCatchThe, MonadExceptOf.tryCatch, EStateM.tryCatch,
    h before]
  rfl

theorem adds_forM_cons {α : Type} {f : α → Collector Unit} {x : α} {xs : List α} {more : Collected}
    (hx : Adds (f x) part) (hxs : Adds (xs.forM f) more) : Adds ((x :: xs).forM f) (part ++ more) := by
  intro before
  have hcons : (x :: xs).forM f = f x >>= fun _ => xs.forM f := rfl
  rw [hcons, Stateful.bind_ok (hx before), hxs (before ++ part), Collected.append_assoc]

/-- Steps that add parts add something one after the other. -/
theorem exists_adds_forM {α : Type} {f : α → Collector Unit} {xs : List α}
    (h : ∀ x ∈ xs, ∃ part, Adds (f x) part) : ∃ part, Adds (xs.forM f) part := by
  induction xs with
  | nil => exact ⟨{}, adds_pure⟩
  | cons x xs ih =>
    obtain ⟨part, hx⟩ := h x List.mem_cons_self
    obtain ⟨more, hxs⟩ := ih fun y hy => h y (List.mem_cons_of_mem x hy)
    exact ⟨part ++ more, adds_forM_cons hx hxs⟩

/-- The step adds a part, or it meets an obstacle and adds nothing. -/
def Settled (step : Collector Unit) : Prop :=
  (∃ part, Adds step part) ∨ ∃ obstacle, Meets step obstacle

theorem Adds.settled (h : Adds step part) : Settled step :=
  Or.inl ⟨part, h⟩

theorem Meets.settled (h : Meets step obstacle) : Settled step :=
  Or.inr ⟨obstacle, h⟩

theorem Settled.orFailure (h : Settled step) (path : String) :
    ∃ part, Adds (Collector.orFailure path step) part := by
  rcases h with ⟨part, hadds⟩ | ⟨obstacle, hmeets⟩
  · exact ⟨part, hadds.orFailure path⟩
  · exact ⟨_, hmeets.orFailure path⟩

end Collector

/-! ### Archives -/

/-- The names that an archive lists are in order, each listed once. -/
theorem Archive.entries_ascending {data : ByteArray} {found : List Archive.Entry}
    (h : Archive.entries data = .ok found) : found.Pairwise fun a b => a.name < b.name := by
  obtain ⟨listed, -, rfl⟩ := Stateful.verdict_map_eq_ok_iff.mp h
  generalize hnamed : Std.TreeMap.ofList (listed.map fun e => (e.name, e)) = named
  have hname : ∀ e ∈ named.toList, e.2.name = e.1 := by
    rintro ⟨name, e⟩ he
    have hlast := Std.TreeMap.mem_toList_iff_getElem?_eq_some.mp he
    rw [← hnamed, Std.TreeMap.ofList_eq_insertMany_empty, Std.TreeMap.getElem?_insertMany_list,
      Std.TreeMap.getElem?_emptyc, Option.or_none, List.findSomeRev?_eq_findSome?_reverse] at hlast
    obtain ⟨⟨key, other⟩, hother, hfound⟩ := List.exists_of_findSome?_eq_some hlast
    obtain ⟨other, -, rfl, rfl⟩ : ∃ e' ∈ listed, e'.name = key ∧ e' = other := by
      simpa using hother
    dsimp only at hfound
    split at hfound
    · next hkey =>
      cases hfound
      exact Std.LawfulEqCmp.compare_eq_iff_eq.mp hkey
    · cases hfound
  rw [List.pairwise_map]
  refine List.Pairwise.imp_of_mem (fun ha hb hlt => ?_) Std.TreeMap.ordered_keys_toList
  rw [hname _ ha, hname _ hb]
  exact Std.LawfulLTCmp.eq_lt_iff_lt.mp hlt

namespace Collector

variable {strict : Bool} {path : String} {node : FileTree} {part : Collected}

/-- What an entry of an archive adds: its class file, or the failure to read it. -/
inductive YieldsEntry (path : String) (data : ByteArray) (entry : Archive.Entry) : Collected → Prop
  | read {content : ByteArray} : Archive.content data entry = .ok content →
      YieldsEntry path data entry (ofClass s!"{path}:{entry.name}" content)
  | unread {flaw : Archive.Flaw} : Archive.content data entry = .error flaw →
      YieldsEntry path data entry (ofFailure s!"{path}:{entry.name}" flaw.message)

theorem exists_yieldsEntry (path : String) (data : ByteArray) (entry : Archive.Entry) :
    ∃ part, YieldsEntry path data entry part ∧ Adds (takeEntry path data entry) part := by
  unfold takeEntry
  cases h : Archive.content data entry with
  | ok content => exact ⟨_, .read h, adds_addClass _ content⟩
  | error flaw => exact ⟨_, .unread h, adds_addFailure _ flaw.message⟩

theorem exists_yieldsEntries (path : String) (data : ByteArray) (entries : List Archive.Entry) :
    ∃ parts, List.Forall₂ (YieldsEntry path data) entries parts ∧
      Adds (entries.forM (takeEntry path data)) (join parts) := by
  induction entries with
  | nil => exact ⟨[], .nil, adds_pure⟩
  | cons entry entries ih =>
    obtain ⟨part, hpart, hadds⟩ := exists_yieldsEntry path data entry
    obtain ⟨parts, hparts, hall⟩ := ih
    exact ⟨part :: parts, .cons hpart hparts, adds_forM_cons hadds hall⟩

/-! ### Nodes at which a walk ends -/

/-- By its extension, the path leads to a class file. -/
def NamesClass (path : String) : Prop :=
  Path.extension? path = some "class"

/-- By its extension, the path leads to an archive. -/
def NamesArchive (path : String) : Prop :=
  Path.extension? path = some "jar" ∨ Path.extension? path = some "zip"

/-- By its extension, the path leads to nothing of interest. -/
def NamesNeither (path : String) : Prop :=
  ¬ NamesClass path ∧ ¬ NamesArchive path

/-- What belongs to a node that a walk ends at: one class for a class file, one class or one failure for
each name of a class in an archive, and one failure for what cannot be read. -/
inductive Yields (path : String) (node : FileTree) : Collected → Prop
  | classFile {data : ByteArray} : NamesClass path → FileTree.fileAt? path node = some (.ok data) →
      Yields path node (ofClass path data)
  | unreadable {error : SystemError} : NamesClass path →
      FileTree.fileAt? path node = some (.error error) →
        Yields path node (ofFailure path (Obstacle.unreadable path error).message)
  | archive {data : ByteArray} {entries : List Archive.Entry} {parts : List Collected} :
      NamesArchive path → FileTree.fileAt? path node = some (.ok data) →
      Archive.entries data = .ok entries → entries.Pairwise (fun a b => a.name < b.name) →
      List.Forall₂ (YieldsEntry path data) (entries.filter (·.name.endsWith ".class")) parts →
        Yields path node (join parts)
  | noArchive {data : ByteArray} {flaw : Archive.Flaw} : NamesArchive path →
      FileTree.fileAt? path node = some (.ok data) → Archive.entries data = .error flaw →
        Yields path node (ofFailure path (Obstacle.noArchive path flaw).message)
  | unopened {error : SystemError} : NamesArchive path →
      FileTree.fileAt? path node = some (.error error) →
        Yields path node (ofFailure path (Obstacle.unopened path error).message)
  | unlisted : FileTree.pathFlaw? path = none → node = .lockedFolder →
      Yields path node (ofFailure path (Obstacle.unlisted path .accessDenied).message)
  /-- Other files are of no interest. -/
  | other : NamesNeither path → node.isFolder = false → Yields path node {}
  /-- A folder whose path cannot be looked up is taken for such a file. -/
  | overlooked {error : SystemError} : NamesNeither path → node.isFolder = true →
      FileTree.pathFlaw? path = some error → Yields path node {}

theorem takeNode_of_fileAt? {content : Except SystemError ByteArray}
    (h : FileTree.fileAt? path node = some content) :
    takeNode strict path node = takeFile strict path content := by
  unfold FileTree.fileAt? at h
  unfold takeNode
  cases hflaw : FileTree.pathFlaw? path with
  | some error =>
    rw [hflaw] at h
    obtain rfl := Option.some.inj h
    rfl
  | none =>
    rw [hflaw] at h
    cases node with
    | file data | lockedFile =>
      obtain rfl := Option.some.inj h
      rfl
    | folder entries | lockedFolder => cases h

theorem takeFile_class (h : NamesClass path) (content : Except SystemError ByteArray) :
    takeFile strict path content = match content with
      | .ok data => addClass path data
      | .error error => throw (.unreadable path error) := by
  unfold NamesClass at h
  cases content with
  | ok data => simp only [takeFile, h]
  | error error => simp only [takeFile, h]

theorem takeFile_archive (h : NamesArchive path) (content : Except SystemError ByteArray) :
    takeFile strict path content = match content with
      | .ok data => takeArchive path data
      | .error error => throw (.unopened path error) := by
  cases content with
  | ok data => rcases h with h | h <;> simp only [takeFile, h]
  | error error => rcases h with h | h <;> simp only [takeFile, h]

theorem takeFile_other (h : NamesNeither path) (content : Except SystemError ByteArray) :
    takeFile strict path content = if strict then throw (.unsupported path) else return () := by
  unfold takeFile
  split
  · next hclass => exact absurd hclass h.1
  · next hjar => exact absurd (Or.inl hjar) h.2
  · next hzip => exact absurd (Or.inr hzip) h.2
  · rfl

theorem names_cases (path : String) : NamesClass path ∨ NamesArchive path ∨ NamesNeither path := by
  by_cases hclass : NamesClass path
  · exact Or.inl hclass
  · by_cases harchive : NamesArchive path
    · exact Or.inr (Or.inl harchive)
    · exact Or.inr (Or.inr ⟨hclass, harchive⟩)

theorem settled_takeArchive (path : String) (data : ByteArray) :
    (∃ entries parts, Archive.entries data = .ok entries ∧
      List.Forall₂ (YieldsEntry path data) (entries.filter (·.name.endsWith ".class")) parts ∧
        Adds (takeArchive path data) (join parts)) ∨
    ∃ flaw, Archive.entries data = .error flaw ∧
      Meets (takeArchive path data) (.noArchive path flaw) := by
  unfold takeArchive
  cases h : Archive.entries data with
  | ok entries =>
    obtain ⟨parts, hparts, hadds⟩ :=
      exists_yieldsEntries path data (entries.filter (·.name.endsWith ".class"))
    exact Or.inl ⟨entries, parts, rfl, hparts, hadds⟩
  | error flaw => exact Or.inr ⟨flaw, rfl, meets_throw _⟩

theorem settled_takeFile (strict : Bool) (path : String) (content : Except SystemError ByteArray) :
    Settled (takeFile strict path content) := by
  rcases names_cases path with hclass | harchive | hother
  · rw [takeFile_class hclass]
    cases content with
    | ok data => exact (adds_addClass path data).settled
    | error error => exact (meets_throw _).settled
  · rw [takeFile_archive harchive]
    cases content with
    | ok data =>
      rcases settled_takeArchive path data with ⟨_, _, -, -, hadds⟩ | ⟨_, -, hmeets⟩
      · exact hadds.settled
      · exact hmeets.settled
    | error error => exact (meets_throw _).settled
  · rw [takeFile_other hother]
    cases strict with
    | true => exact (meets_throw _).settled
    | false => exact adds_pure.settled

theorem meets_lockedFolder (h : FileTree.pathFlaw? path = none) :
    Meets (takeNode strict path .lockedFolder) (.unlisted path .accessDenied) := by
  unfold takeNode
  rw [h]
  exact meets_throw _

/-- At the end of a walk a step adds what belongs to the node there. -/
theorem exists_yields (hends : ∀ entries, node = .folder entries → FileTree.pathFlaw? path ≠ none) :
    ∃ part, Yields path node part ∧ Adds (orFailure path (takeNode false path node)) part := by
  cases hfile : FileTree.fileAt? path node with
  | none =>
    obtain ⟨hfolder, hflaw⟩ := FileTree.fileAt?_eq_none_iff.mp hfile
    cases node with
    | file data | lockedFile => cases hfolder
    | folder entries => exact absurd hflaw (hends entries rfl)
    | lockedFolder => exact ⟨_, .unlisted hflaw rfl, (meets_lockedFolder hflaw).orFailure path⟩
  | some content =>
    rw [takeNode_of_fileAt? hfile]
    rcases names_cases path with hclass | harchive | hother
    · rw [takeFile_class hclass]
      cases content with
      | ok data => exact ⟨_, .classFile hclass hfile, (adds_addClass path data).orFailure path⟩
      | error error => exact ⟨_, .unreadable hclass hfile, (meets_throw _).orFailure path⟩
    · rw [takeFile_archive harchive]
      cases content with
      | ok data =>
        rcases settled_takeArchive path data with ⟨entries, parts, hlisted, hparts, hadds⟩ |
          ⟨flaw, hflaw, hmeets⟩
        · have hascending := Archive.entries_ascending hlisted
          exact ⟨_, .archive harchive hfile hlisted hascending hparts, hadds.orFailure path⟩
        · exact ⟨_, .noArchive harchive hfile hflaw, hmeets.orFailure path⟩
      | error error => exact ⟨_, .unopened harchive hfile, (meets_throw _).orFailure path⟩
    · rw [takeFile_other hother]
      refine ⟨{}, ?_, adds_pure.orFailure path⟩
      cases hfolder : node.isFolder with
      | false => exact .other hother hfolder
      | true =>
        cases hflaw : FileTree.pathFlaw? path with
        | some error => exact .overlooked hother hfolder hflaw
        | none =>
          rw [FileTree.fileAt?_eq_none_iff.mpr ⟨hfolder, hflaw⟩] at hfile
          cases hfile

end Collector
end ClassXref
