import ClassXref.Archive.Content
import ClassXref.Archive.Directory
import ClassXref.FileTree.Place
import ClassXref.Index.Batch

/-! Collecting class files from a class file, an archive or a folder, into what has been collected before.
What lies in a folder is taken in the order of names; of it, what cannot be collected becomes one failure.
Whether a path leads to a folder is asked first, and one that cannot be looked up counts as no folder. -/
namespace ClassXref

/-- Why nothing can be collected from a path. -/
inductive Obstacle where
  | unreadable (path : String) (error : SystemError)
  | unopened (path : String) (error : SystemError)
  | noArchive (path : String) (flaw : Archive.Flaw)
  | unlisted (path : String) (error : SystemError)
  | unsupported (path : String)
  deriving Repr, DecidableEq, Inhabited

def Obstacle.message : Obstacle → String
  | unreadable path error => s!"failed to read {path}: {error.message}"
  | unopened path error => s!"failed to open {path}: {error.message}"
  | noArchive path flaw => s!"failed to read {path}: {flaw.message}"
  | unlisted path error => s!"failed to read directory {path}: {error.message}"
  | unsupported path => s!"unsupported input file: {path}"

/-- A computation that adds to what has been collected and may meet an obstacle. It is not undone then. -/
abbrev Collector := EStateM Obstacle Collected

namespace Collector

def addClass (entry : String) (data : ByteArray) : Collector Unit :=
  modify fun found => { found with classes := found.classes ++ [{ entry, data }] }

def addFailure (entry error : String) : Collector Unit :=
  modify fun found => { found with failures := found.failures ++ [{ entry, error }] }

/-- Takes the class file of an entry of an archive, or notes that it cannot be read. -/
def takeEntry (path : String) (data : ByteArray) (entry : Archive.Entry) : Collector Unit :=
  match Archive.content data entry with
  | .ok content => addClass s!"{path}:{entry.name}" content
  | .error flaw => addFailure s!"{path}:{entry.name}" flaw.message

/-- Takes the class files of an archive, in ascending order of their names. -/
def takeArchive (path : String) (data : ByteArray) : Collector Unit :=
  match Archive.entries data with
  | .ok entries => (entries.filter (·.name.endsWith ".class")).forM (takeEntry path data)
  | .error flaw => throw (.noArchive path flaw)

/-- Takes what a file holds, by the extension of its name. Other files are passed over, or are an
obstacle if `strict`. -/
def takeFile (strict : Bool) (path : String) (content : Except SystemError ByteArray) :
    Collector Unit :=
  match Path.extension? path with
  | some "class" =>
    match content with
    | .ok data => addClass path data
    | .error error => throw (.unreadable path error)
  | some "jar" | some "zip" =>
    match content with
    | .ok data => takeArchive path data
    | .error error => throw (.unopened path error)
  | _ => if strict then throw (.unsupported path) else return ()

/-- Takes a step, and notes an obstacle as a failure of the path. -/
def orFailure (path : String) (step : Collector Unit) : Collector Unit :=
  try step
  catch obstacle => addFailure path obstacle.message

/-- Takes steps in ascending order of their names. -/
def inOrder (steps : List (String × Collector Unit)) : Collector Unit :=
  (steps.mergeSort fun a b => decide (a.1 ≤ b.1)).forM (·.2)

mutual

/-- Takes what stands under a path. -/
def takeNode (strict : Bool) (path : String) (node : FileTree) : Collector Unit :=
  match FileTree.pathFlaw? path, node with
  | some error, _ => takeFile strict path (.error error)
  | none, .file data => takeFile strict path (.ok data)
  | none, .lockedFile => takeFile strict path (.error .accessDenied)
  | none, .folder entries => inOrder (stepsOf path entries)
  | none, .lockedFolder => throw (.unlisted path .accessDenied)

/-- A step for each entry of a folder, under its name. -/
def stepsOf (folder : String) : List (String × FileTree) → List (String × Collector Unit)
  | [] => []
  | (name, node) :: rest =>
    let path := Path.join folder name
    (name, orFailure path (takeNode false path node)) :: stepsOf folder rest

end

/-- All that is collected from the path of an input. -/
def collect (path : String) (node : FileTree) : Except Obstacle Collected :=
  match EStateM.run (takeNode true path node) {} with
  | .ok _ found => .ok found
  | .error obstacle _ => .error obstacle

end Collector
end ClassXref
