import ClassXref.FileTree.Basic
import ClassXref.FileTree.Path

/-! Where paths lead in a tree, and what can be read and written there. Every part of a path is
looked up in a folder; a path that goes on behind a file leads nowhere. -/
namespace ClassXref

/-- A place in a tree: the folders that it lies in, innermost first, each with the name of the entry
that was taken from it, and what stands there. -/
structure Place where
  above : List (String × FileTree)
  here : FileTree

namespace Place

/-- The names that lead to the place from the top. -/
def names (place : Place) : List String :=
  (place.above.map (·.1)).reverse

/-- The folder that a place lies in; the top lies in itself. -/
def parent (place : Place) : Place :=
  match place.above with
  | [] => place
  | (_, folder) :: above => ⟨above, folder⟩

/-- The greatest length of a name in bytes. -/
def maxNameLength : Nat := 255

/-- Goes on by one part of a path. -/
def step (place : Place) (part : String) : Except SystemError Place :=
  match place.here with
  | .file _ | .lockedFile => .error .notDirectory
  | .lockedFolder => if part = "" then .ok place else .error .accessDenied
  | .folder entries =>
    if part = "" ∨ part = "." then .ok place
    else if part = ".." then .ok place.parent
    else if maxNameLength < part.utf8ByteSize then .error .nameTooLong
    else match entries.lookup part with
      | some child => .ok ⟨(part, place.here) :: place.above, child⟩
      | none => .error .notFound

end Place

namespace FileTree

/-- A path must be shorter than this many bytes. -/
def maxPathLength : Nat := 4096

/-- What is wrong with a path whatever the tree. -/
def pathFlaw? (path : String) : Option SystemError :=
  if '\x00' ∈ path.toList then some .zeroCharacter
  else if path = "" then some .notFound
  else if maxPathLength ≤ path.utf8ByteSize then some .nameTooLong
  else none

/-- The place that parts of a path lead to. -/
def placeOf (tree : FileTree) (parts : List String) : Except SystemError Place :=
  parts.foldlM Place.step ⟨[], tree⟩

/-- What stands where a path leads. -/
def find (tree : FileTree) (path : String) : Except SystemError FileTree :=
  match pathFlaw? path with
  | some error => .error error
  | none => (tree.placeOf (Path.parts path)).map (·.here)

/-- The content of a node that is read as a file. -/
def content : FileTree → Except SystemError ByteArray
  | file data => .ok data
  | folder _ => .error .isDirectory
  | lockedFile | lockedFolder => .error .accessDenied

def read (tree : FileTree) (path : String) : Except SystemError ByteArray :=
  (tree.find path).bind content

/-- The names that lead to the file which is written under a path: one that can be opened, or a new
one in a folder. -/
def target (tree : FileTree) (path : String) : Except SystemError (List String) :=
  match pathFlaw? path with
  | some error => .error error
  | none =>
    let parts := Path.parts path
    match parts.reverse.dropWhile (· = "") with
    | [] => .error .isDirectory
    | last :: before => do
      let place ← tree.placeOf before.reverse
      match place.here with
      | .file _ | .lockedFile => throw .notDirectory
      | .lockedFolder => throw .accessDenied
      | .folder entries =>
        if last = "." ∨ last = ".." ∨ parts.getLast? = some "" then throw .isDirectory
        else if Place.maxNameLength < last.utf8ByteSize then throw .nameTooLong
        else match entries.lookup last with
          | some (.folder _) | some .lockedFolder => throw .isDirectory
          | some .lockedFile => throw .accessDenied
          | some (.file _) | none => return place.names ++ [last]

/-- Opens a file for writing: it is made if it is not there, and emptied if it is. The names lead to it. -/
def create (tree : FileTree) (path : String) : Except SystemError (List String × FileTree) :=
  (tree.target path).map fun names => (names, tree.put names (file .empty))

/-- Writes behind what an open file holds. -/
def append (tree : FileTree) (names : List String) (data : ByteArray) : FileTree :=
  match tree.get? names with
  | some (file written) => tree.put names (file (written ++ data))
  | _ => tree

/-- The tree that holds the listed files, and folders where no content is given. -/
def ofList (listed : List (String × Option ByteArray)) : FileTree :=
  listed.foldl add empty
where
  add (tree : FileTree) : String × Option ByteArray → FileTree
    | (path, content) =>
      let names := (Path.parts path).filter fun part => part ≠ "" ∧ part ≠ "."
      match content with
      | some data => tree.put names (file data)
      | none => tree.put names ((tree.get? names).getD empty)

example : (folder [("a", folder [])]).target "a/../b" = .ok ["b"] := rfl

example : (folder [("a", lockedFile)]).target "a/" = .error .isDirectory := rfl

example : (folder [("a", lockedFile)]).target "a/b" = .error .notDirectory := rfl

end FileTree
end ClassXref
