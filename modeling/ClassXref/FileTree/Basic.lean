/-! Trees of files, as far as a program can see them: what it can read, and what it is refused. -/
namespace ClassXref

/-- A file, a folder, or one of the two that the program has no right to open. The entries of a
folder have different names. -/
inductive FileTree where
  | file (data : ByteArray)
  | lockedFile
  | folder (entries : List (String × FileTree))
  | lockedFolder
  deriving Inhabited

/-- What the operating system refuses with. -/
inductive SystemError where
  | notFound
  | accessDenied
  | notDirectory
  | isDirectory
  | nameTooLong
  | zeroCharacter
  deriving Repr, DecidableEq, Inhabited

def SystemError.message : SystemError → String
  | notFound => "No such file or directory (os error 2)"
  | accessDenied => "Permission denied (os error 13)"
  | notDirectory => "Not a directory (os error 20)"
  | isDirectory => "Is a directory (os error 21)"
  | nameTooLong => "File name too long (os error 36)"
  | zeroCharacter => "file name contained an unexpected NUL byte"

namespace FileTree

/-- The folder that holds nothing. -/
def empty : FileTree := folder []

/-- The entries of a folder that can be opened. -/
def entries : FileTree → List (String × FileTree)
  | folder entries => entries
  | _ => []

/-- Entries with one replaced, or added at the end. -/
def setEntry (name : String) (node : FileTree) :
    List (String × FileTree) → List (String × FileTree)
  | [] => [(name, node)]
  | (other, old) :: rest =>
    if other = name then (name, node) :: rest else (other, old) :: setEntry name node rest

/-- The tree with `node` at the place that the names lead to from the top. Folders that are missing
on the way are made. -/
def put (tree : FileTree) (names : List String) (node : FileTree) : FileTree :=
  match names with
  | [] => node
  | name :: names =>
    folder (setEntry name (put ((tree.entries.lookup name).getD empty) names node) tree.entries)

/-- What the names lead to from the top. -/
def get? (tree : FileTree) (names : List String) : Option FileTree :=
  match names with
  | [] => some tree
  | name :: names =>
    match tree.entries.lookup name with
    | some child => get? child names
    | none => none

theorem lookup_setEntry (name other : String) (node : FileTree)
    (entries : List (String × FileTree)) :
    (setEntry name node entries).lookup other =
      if other = name then some node else entries.lookup other := by
  induction entries with
  | nil => by_cases h : other = name <;> simp [setEntry, List.lookup_cons, h, beq_eq_false_iff_ne.2]
  | cons entry rest ih =>
    obtain ⟨first, old⟩ := entry
    by_cases hf : first = name
    · subst hf
      by_cases h : other = first <;> simp [setEntry, List.lookup_cons, h, beq_eq_false_iff_ne.2]
    · by_cases h : other = first
      · simp [setEntry, h, hf]
      · simp [setEntry, List.lookup_cons, hf, ih, beq_eq_false_iff_ne.2 h]

@[simp] theorem entries_folder (entries : List (String × FileTree)) :
    (folder entries).entries = entries := rfl

theorem get?_put_self (tree : FileTree) (names : List String) (node : FileTree) :
    (tree.put names node).get? names = some node := by
  induction names generalizing tree with
  | nil => rfl
  | cons name names ih => simp [put, get?, lookup_setEntry, ih]

end FileTree
end ClassXref
