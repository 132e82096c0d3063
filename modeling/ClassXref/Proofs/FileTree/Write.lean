import Mathlib.Data.List.Infix
import ClassXref.Proofs.FileTree.Met
import ClassXref.Proofs.Stateful

/-! A file that is written. It is put where its path leads to, and nothing else in the tree changes: what is in
other places stays, and a folder on the way was a folder before. So the walk along a path takes the same way
before and after, and what is read under the path is what was written. -/
namespace ClassXref

/-! ### Names -/

namespace FileTree

variable {tree node : FileTree} {names other : List String}

theorem get?_append (tree : FileTree) (front back : List String) :
    tree.get? (front ++ back) = (tree.get? front).bind fun node => node.get? back := by
  induction front generalizing tree with
  | nil => rfl
  | cons name front ih =>
    rw [List.cons_append, get?, get?]
    cases tree.entries.lookup name with
    | none => rfl
    | some child => exact ih child

theorem get?_singleton (tree : FileTree) (name : String) :
    tree.get? [name] = tree.entries.lookup name := by
  rw [get?]
  cases tree.entries.lookup name <;> rfl

/-- Nothing stands below a node without entries. -/
theorem get?_of_entries_eq_nil (h : tree.entries = []) (hnames : names ≠ []) : tree.get? names = none := by
  cases names with
  | nil => exact absurd rfl hnames
  | cons name names =>
    rw [get?, h]
    rfl

theorem setEntry_setEntry (name : String) (first second : FileTree) (entries : List (String × FileTree)) :
    setEntry name second (setEntry name first entries) = setEntry name second entries := by
  induction entries with
  | nil => simp [setEntry]
  | cons entry entries ih =>
    by_cases hname : entry.1 = name
    · simp [setEntry, hname]
    · simp [setEntry, hname, ih]

/-- Of two nodes that are put at the same names, the second stays. -/
theorem put_put (tree : FileTree) (names : List String) (first second : FileTree) :
    (tree.put names first).put names second = tree.put names second := by
  induction names generalizing tree with
  | nil => rfl
  | cons name names ih =>
    simp only [put, entries_folder, lookup_setEntry, if_true, Option.getD_some, setEntry_setEntry, ih]

/-- The node under a name. Where there is none it is an empty folder. -/
theorem get?_cons_of_getD (tree : FileTree) (name : String) (hnames : names ≠ []) :
    tree.get? (name :: names) = ((tree.entries.lookup name).getD empty).get? names := by
  rw [get?]
  cases tree.entries.lookup name with
  | some child => rfl
  | none => exact (get?_of_entries_eq_nil rfl hnames).symm

/-- A node without entries, in the place of one without entries, changes nothing in other places. -/
theorem get?_put_of_not_prefix (hnode : node.entries = [])
    (hold : ∀ old, tree.get? names = some old → old.entries = []) (hother : ¬ other <+: names) :
    (tree.put names node).get? other = tree.get? other := by
  have hne : other ≠ [] := fun hnil => hother (hnil ▸ List.nil_prefix)
  induction names generalizing tree other with
  | nil => rw [put, get?_of_entries_eq_nil hnode hne, get?_of_entries_eq_nil (hold tree rfl) hne]
  | cons name names ih =>
    obtain ⟨first, rest, rfl⟩ := List.exists_cons_of_ne_nil hne
    by_cases hfirst : first = name
    · subst hfirst
      have hrest : ¬ rest <+: names := fun h => hother (List.cons_prefix_cons.mpr ⟨rfl, h⟩)
      have hrestne : rest ≠ [] := fun hnil => hrest (hnil ▸ List.nil_prefix)
      rw [put, get?, entries_folder, lookup_setEntry, if_pos rfl, get?_cons_of_getD tree first hrestne]
      refine ih (fun old h => ?_) hrest hrestne
      by_cases hnames : names = []
      · subst hnames
        cases hchild : tree.entries.lookup first with
        | none =>
          rw [hchild] at h
          obtain rfl := Option.some.inj h
          rfl
        | some child =>
          rw [hchild] at h
          exact hold old (by rw [get?, hchild]; exact h)
      · rw [← get?_cons_of_getD tree first hnames] at h
        exact hold old h
    · rw [put, get?, get?, entries_folder, lookup_setEntry, if_neg hfirst]

/-- On the way to a node that was put there are folders. -/
theorem get?_put_of_prefix (tree node : FileTree) (hother : other <+: names) (hne : other ≠ names) :
    ∃ entries, (tree.put names node).get? other = some (.folder entries) := by
  induction names generalizing tree other with
  | nil => exact absurd (List.prefix_nil.mp hother) hne
  | cons name names ih =>
    cases other with
    | nil => exact ⟨_, rfl⟩
    | cons first rest =>
      obtain ⟨rfl, hrest⟩ := List.cons_prefix_cons.mp hother
      rw [put, get?, entries_folder, lookup_setEntry, if_pos rfl]
      exact ih _ hrest fun heq => hne (congrArg (first :: ·) heq)

/-- The tree after a file was written in the tree before. It stands under the names where nothing or a file
stood. Nothing changes in other places, and the folders on the way were there before. -/
structure Wrote (before after : FileTree) (names : List String) (data : ByteArray) : Prop where
  written : after.get? names = some (.file data)
  free : before.get? names = none ∨ ∃ old, before.get? names = some (.file old)
  elsewhere : ∀ other, ¬ other <+: names → after.get? other = before.get? other
  above : ∀ other, other <+: names → other ≠ names → ∃ entries entries',
    before.get? other = some (.folder entries) ∧ after.get? other = some (.folder entries')

end FileTree

/-! ### Places -/

namespace Place

/-- The place is in the tree: it is the top, or the place of an entry of a folder that is in the tree. -/
inductive In (tree : FileTree) : Place → Prop
  | top : In tree ⟨[], tree⟩
  | entry {place : Place} {name : String} {entries : List (String × FileTree)} {child : FileTree} :
      In tree place → place.here = .folder entries → entries.lookup name = some child →
        In tree ⟨(name, place.here) :: place.above, child⟩

/-- A part of a path that can be the name of an entry. -/
def NamesEntry (part : String) : Prop :=
  part ≠ "" ∧ part ≠ "." ∧ part ≠ ".." ∧ part.utf8ByteSize ≤ maxNameLength

/-- From a place to the next by one part of a path: the place itself, the one above or one below. -/
inductive Step : Place → String → Place → Prop
  | blank {place : Place} : place.here.isFolder = true → Step place "" place
  | dot {place : Place} {entries : List (String × FileTree)} : place.here = .folder entries →
      Step place "." place
  | up {place : Place} {entries : List (String × FileTree)} : place.here = .folder entries →
      Step place ".." place.parent
  | down {place : Place} {part : String} {entries : List (String × FileTree)} {child : FileTree} :
      place.here = .folder entries → NamesEntry part → entries.lookup part = some child →
        Step place part ⟨(part, place.here) :: place.above, child⟩

variable {tree : FileTree} {place next : Place} {part : String}

theorem step_of_eq_ok (h : place.step part = .ok next) : Step place part next := by
  unfold step at h
  split at h
  · cases h
  · cases h
  · next hhere =>
    split at h
    · next hpart =>
      cases h
      subst hpart
      exact .blank (by rw [hhere]; rfl)
    · cases h
  · next entries hhere =>
    split at h
    · next hpart =>
      cases h
      rcases hpart with rfl | rfl
      · exact .blank (by rw [hhere]; rfl)
      · exact .dot hhere
    · next hpart =>
      split at h
      · next hup =>
        cases h
        subst hup
        exact .up hhere
      · next hup =>
        split at h
        · cases h
        · next hlength =>
          split at h
          · next child hchild =>
            cases h
            rw [not_or] at hpart
            exact .down hhere ⟨hpart.1, hpart.2, hup, Nat.le_of_not_lt hlength⟩ hchild
          · cases h

theorem Step.eq_ok (h : Step place part next) : place.step part = .ok next := by
  cases h with
  | blank hfolder =>
    unfold step
    cases hhere : place.here with
    | file _ | lockedFile =>
      rw [hhere] at hfolder
      cases hfolder
    | lockedFolder => rfl
    | folder entries => rfl
  | dot hhere | up hhere =>
    unfold step
    rw [hhere]
    rfl
  | down hhere hname hchild =>
    obtain ⟨hblank, hdot, hup, hlength⟩ := hname
    unfold step
    rw [hhere]
    simp only [hblank, hdot, hup, Nat.not_lt.mpr hlength, hchild, or_self, if_false]

theorem names_parent (place : Place) : place.parent.names = place.names.dropLast := by
  obtain ⟨above, here⟩ := place
  cases above with
  | nil => rfl
  | cons entry above => simp [parent, names]

theorem names_entry (name : String) (folder child : FileTree) (above : List (String × FileTree)) :
    (Place.mk ((name, folder) :: above) child).names = (Place.mk above folder).names ++ [name] := by
  simp [names]

theorem In.parent (h : In tree place) : In tree place.parent := by
  cases h with
  | top => exact .top
  | entry h _ _ => exact h

theorem In.step (h : In tree place) (hstep : Step place part next) : In tree next := by
  cases hstep with
  | blank _ | dot _ => exact h
  | up _ => exact h.parent
  | down hhere _ hchild => exact .entry h hhere hchild

/-- The names of a place lead to it. -/
theorem In.get?_names (h : In tree place) : tree.get? place.names = some place.here := by
  induction h with
  | top => rfl
  | entry _ hhere hchild ih =>
    rw [names_entry, FileTree.get?_append, ih, hhere]
    exact (FileTree.get?_singleton _ _).trans hchild

/-- On the way to a place there are folders. -/
theorem In.above (h : In tree place) {front : List String} (hfront : front <+: place.names)
    (hne : front ≠ place.names) : ∃ entries, tree.get? front = some (.folder entries) := by
  induction h with
  | top => exact absurd (List.prefix_nil.mp hfront) hne
  | @entry place name entries child h hhere hchild ih =>
    rw [names_entry] at hfront hne
    rcases List.prefix_concat_iff.mp hfront with heq | hfront
    · exact absurd heq hne
    · by_cases heq : front = place.names
      · rw [heq, h.get?_names, hhere]
        exact ⟨entries, rfl⟩
      · exact ih hfront heq

/-- A walk by the parts of a path. -/
inductive Walk : Place → List String → Place → Prop
  | nil {place : Place} : Walk place [] place
  | cons {place mid last : Place} {part : String} {parts : List String} :
      Step place part mid → Walk mid parts last → Walk place (part :: parts) last

theorem foldlM_step_eq_ok_iff {parts : List String} {last : Place} :
    parts.foldlM Place.step place = .ok last ↔ Walk place parts last := by
  induction parts generalizing place with
  | nil =>
    constructor
    · intro h
      cases h
      exact .nil
    · intro h
      cases h
      rfl
  | cons part parts ih =>
    rw [List.foldlM_cons, Stateful.verdict_bind_eq_ok_iff]
    constructor
    · rintro ⟨mid, hstep, hrest⟩
      exact .cons (step_of_eq_ok hstep) (ih.mp hrest)
    · intro h
      cases h with
      | cons hstep hrest => exact ⟨_, hstep.eq_ok, ih.mpr hrest⟩

theorem Walk.concat {parts : List String} {last : Place} (h : Walk place parts last)
    (hstep : Step last part next) : Walk place (parts ++ [part]) next := by
  induction h with
  | nil => exact .cons hstep .nil
  | cons hfirst _ ih => exact .cons hfirst (ih hstep)

theorem Walk.in {parts : List String} {last : Place} (hwalk : Walk place parts last)
    (h : In tree place) : In tree last := by
  induction hwalk with
  | nil => exact h
  | cons hstep _ ih => exact ih (h.step hstep)

end Place

namespace FileTree

open Place (In Step Walk NamesEntry)

variable {before after : FileTree} {names : List String} {data : ByteArray} {path : String}

theorem placeOf_eq_ok_iff {tree : FileTree} {parts : List String} {place : Place} :
    tree.placeOf parts = .ok place ↔ Walk ⟨[], tree⟩ parts place :=
  Place.foldlM_step_eq_ok_iff

/-! ### Writing -/

/-- Where a file is written: under a name in a folder that the rest of the path leads to. -/
structure Targets (tree : FileTree) (path : String) (front : List String) (folder : Place)
    (last : String) : Prop where
  flawless : pathFlaw? path = none
  parts : Path.parts path = front ++ [last]
  walk : Walk ⟨[], tree⟩ front folder
  isFolder : ∃ entries, folder.here = .folder entries
  name : NamesEntry last
  free : folder.here.entries.lookup last = none ∨ ∃ old, folder.here.entries.lookup last = some (.file old)

theorem parts_of_dropWhile {parts before : List String} {last : String}
    (h : parts.reverse.dropWhile (· = "") = last :: before) (hend : parts.getLast? ≠ some "") :
    parts = before.reverse ++ [last] ∧ last ≠ "" := by
  rw [← List.head?_reverse] at hend
  cases hreverse : parts.reverse with
  | nil =>
    rw [hreverse] at h
    cases h
  | cons first rest =>
    rw [hreverse, List.head?_cons] at hend
    have hfirst : first ≠ "" := fun heq => hend (congrArg some heq)
    rw [hreverse, List.dropWhile_cons_of_neg (by simpa using hfirst), List.cons.injEq] at h
    obtain ⟨rfl, rfl⟩ := h
    refine ⟨?_, hfirst⟩
    rw [← List.reverse_cons, ← hreverse, List.reverse_reverse]

theorem exists_targets {tree : FileTree} (h : tree.target path = .ok names) :
    ∃ front folder last, tree.Targets path front folder last ∧ names = folder.names ++ [last] := by
  unfold target at h
  split at h
  · cases h
  · next hflaw =>
    dsimp only at h
    split at h
    · cases h
    · next last before hparts =>
      obtain ⟨folder, hwalk, h⟩ := Stateful.verdict_bind_eq_ok_iff.mp h
      split at h
      · cases h
      · cases h
      · cases h
      · next entries hhere =>
        split at h
        · cases h
        · next hlast =>
          rw [not_or, not_or] at hlast
          obtain ⟨hdot, hup, hend⟩ := hlast
          obtain ⟨hparts, hblank⟩ := parts_of_dropWhile hparts hend
          split at h
          · cases h
          · next hlength =>
            have hname : NamesEntry last := ⟨hblank, hdot, hup, Nat.le_of_not_lt hlength⟩
            have hwalk := placeOf_eq_ok_iff.mp hwalk
            refine ⟨before.reverse, folder, last, ?_⟩
            split at h
            · cases h
            · cases h
            · cases h
            · next old hold =>
              cases h
              exact ⟨⟨hflaw, hparts, hwalk, ⟨entries, hhere⟩, hname,
                Or.inr ⟨old, by rw [hhere]; exact hold⟩⟩, rfl⟩
            · next hold =>
              cases h
              exact ⟨⟨hflaw, hparts, hwalk, ⟨entries, hhere⟩, hname, Or.inl (by rw [hhere]; exact hold)⟩, rfl⟩

theorem Targets.get?_eq {tree : FileTree} {front : List String} {folder : Place} {last : String}
    (h : tree.Targets path front folder last) :
    tree.get? (folder.names ++ [last]) = folder.here.entries.lookup last := by
  rw [get?_append, (h.walk.in .top).get?_names]
  exact get?_singleton _ last

/-- What is put where a path leads to is written there, and there alone. -/
theorem wrote_put {tree : FileTree} (h : tree.target path = .ok names) (data : ByteArray) :
    tree.Wrote (tree.put names (.file data)) names data := by
  obtain ⟨front, folder, last, htargets, rfl⟩ := exists_targets h
  have hfree := htargets.free
  rw [← htargets.get?_eq] at hfree
  refine ⟨get?_put_self _ _ _, hfree, fun other hother => ?_, fun other hother hne => ?_⟩
  · refine get?_put_of_not_prefix rfl (fun old hold => ?_) hother
    rcases hfree with hnone | ⟨data, hfile⟩
    · rw [hnone] at hold
      cases hold
    · rw [hfile] at hold
      obtain rfl := Option.some.inj hold
      rfl
  · obtain ⟨entries', hafter⟩ := get?_put_of_prefix tree (.file data) hother hne
    have hin := htargets.walk.in .top
    rcases List.prefix_concat_iff.mp hother with heq | hfront
    · exact absurd heq hne
    · by_cases heq : other = folder.names
      · obtain ⟨entries, hhere⟩ := htargets.isFolder
        refine ⟨entries, entries', ?_, hafter⟩
        rw [heq, hin.get?_names, hhere]
      · obtain ⟨entries, hbefore⟩ := hin.above hfront heq
        exact ⟨entries, entries', hbefore, hafter⟩

/-! ### Reading what was written -/

/-- Of all that stood somewhere, only the written file is other than before, and what was entered in the
folders on the way. -/
theorem Wrote.cases (h : Wrote before after names data) (other : List String) :
    after.get? other = before.get? other ∨ other = names ∨
      ∃ entries entries', before.get? other = some (.folder entries) ∧
        after.get? other = some (.folder entries') := by
  by_cases hother : other <+: names
  · by_cases heq : other = names
    · exact Or.inr (Or.inl heq)
    · exact Or.inr (Or.inr (h.above other hother heq))
  · exact Or.inl (h.elsewhere other hother)

theorem Wrote.isFolder_eq_false (h : Wrote before after names data) {old : FileTree}
    (hbefore : before.get? names = some old) : old.isFolder = false := by
  rcases h.free with hnone | ⟨written, hfile⟩
  · rw [hnone] at hbefore
    cases hbefore
  · rw [hfile] at hbefore
    obtain rfl := Option.some.inj hbefore
    rfl

theorem Wrote.folder (h : Wrote before after names data) {other : List String}
    {entries : List (String × FileTree)} (hbefore : before.get? other = some (.folder entries)) :
    ∃ entries', after.get? other = some (.folder entries') := by
  rcases h.cases other with hsame | rfl | ⟨_, entries', -, hafter⟩
  · exact ⟨entries, hsame.trans hbefore⟩
  · cases h.isFolder_eq_false hbefore
  · exact ⟨entries', hafter⟩

theorem Wrote.isFolder (h : Wrote before after names data) {other : List String} {old : FileTree}
    (hbefore : before.get? other = some old) (hfolder : old.isFolder = true) :
    ∃ node, after.get? other = some node ∧ node.isFolder = true := by
  cases old with
  | file _ | lockedFile => cases hfolder
  | folder entries =>
    obtain ⟨entries', hafter⟩ := h.folder hbefore
    exact ⟨_, hafter, rfl⟩
  | lockedFolder =>
    rcases h.cases other with hsame | rfl | ⟨_, entries', -, hafter⟩
    · exact ⟨_, hsame.trans hbefore, rfl⟩
    · cases h.isFolder_eq_false hbefore
    · exact ⟨_, hafter, rfl⟩

theorem Wrote.stands (h : Wrote before after names data) {other : List String} {old : FileTree}
    (hbefore : before.get? other = some old) : ∃ node, after.get? other = some node := by
  rcases h.cases other with hsame | rfl | ⟨_, entries', -, hafter⟩
  · exact ⟨old, hsame.trans hbefore⟩
  · exact ⟨_, h.written⟩
  · exact ⟨_, hafter⟩

variable {place place' next : Place} {part : String}

/-- A step that could be taken before can be taken after, by the same names. -/
theorem Wrote.step (h : Wrote before after names data) (hin : In before place) (hin' : In after place')
    (hnames : place'.names = place.names) (hstep : Step place part next) :
    ∃ next', Step place' part next' ∧ next'.names = next.names := by
  have hafter : after.get? place.names = some place'.here := hnames ▸ hin'.get?_names
  have hfolder {entries} (hhere : place.here = .folder entries) : ∃ entries', place'.here = .folder entries' := by
    obtain ⟨entries', hentries⟩ := h.folder (hhere ▸ hin.get?_names)
    exact ⟨entries', Option.some.inj (hafter.symm.trans hentries)⟩
  cases hstep with
  | blank hhere =>
    obtain ⟨node, hnode, hisFolder⟩ := h.isFolder hin.get?_names hhere
    obtain rfl := Option.some.inj (hafter.symm.trans hnode)
    exact ⟨place', .blank hisFolder, hnames⟩
  | dot hhere =>
    obtain ⟨entries', hhere'⟩ := hfolder hhere
    exact ⟨place', .dot hhere', hnames⟩
  | up hhere =>
    obtain ⟨entries', hhere'⟩ := hfolder hhere
    refine ⟨place'.parent, .up hhere', ?_⟩
    rw [Place.names_parent, Place.names_parent, hnames]
  | @down _ entries child hhere hname hchild =>
    obtain ⟨entries', hhere'⟩ := hfolder hhere
    have hstood : before.get? (place.names ++ [part]) = some child := by
      rw [get?_append, hin.get?_names, hhere]
      exact (get?_singleton _ part).trans hchild
    obtain ⟨child', hstands⟩ := h.stands hstood
    rw [get?_append, hafter, hhere'] at hstands
    have hchild' : entries'.lookup part = some child' := (get?_singleton _ part).symm.trans hstands
    refine ⟨_, .down hhere' hname hchild', ?_⟩
    rw [Place.names_entry, Place.names_entry]
    exact congrArg (· ++ [part]) hnames

theorem Wrote.walk (h : Wrote before after names data) {parts : List String} (hin : In before place)
    (hin' : In after place') (hnames : place'.names = place.names) (hwalk : Walk place parts next) :
    ∃ next', Walk place' parts next' ∧ next'.names = next.names := by
  induction hwalk generalizing place' with
  | nil => exact ⟨place', .nil, hnames⟩
  | cons hstep _ ih =>
    obtain ⟨mid', hstep', hmid⟩ := h.step hin hin' hnames hstep
    obtain ⟨next', hwalk', hnext⟩ := ih (hin.step hstep) (hin'.step hstep') hmid
    exact ⟨next', .cons hstep' hwalk', hnext⟩

/-- Under the path that the file was written under, what was written is read. -/
theorem Wrote.read (h : Wrote before after names data) (htarget : before.target path = .ok names) :
    after.read path = .ok data := by
  obtain ⟨front, folder, last, htargets, rfl⟩ := exists_targets htarget
  obtain ⟨folder', hwalk, hnames⟩ := h.walk .top .top rfl htargets.walk
  have hin := htargets.walk.in .top
  have hafter : after.get? folder.names = some folder'.here := hnames ▸ (hwalk.in .top).get?_names
  obtain ⟨entries, hhere⟩ := htargets.isFolder
  obtain ⟨entries', hentries⟩ := h.folder (hhere ▸ hin.get?_names)
  have hhere' : folder'.here = .folder entries' := Option.some.inj (hafter.symm.trans hentries)
  have hwritten := h.written
  rw [get?_append, hentries] at hwritten
  have hlast : entries'.lookup last = some (.file data) := (get?_singleton _ last).symm.trans hwritten
  have hplace := placeOf_eq_ok_iff.mpr (hwalk.concat (.down hhere' htargets.name hlast))
  rw [FileTree.read, find, htargets.flawless]
  simp only [htargets.parts, hplace]
  rfl

end FileTree
end ClassXref
