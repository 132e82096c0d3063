import ClassXref.Run

/-! The program. It brings what stands under the input and the configuration's path into memory, makes
the report, and writes it. -/
namespace ClassXref.Program

/-- The arguments in short. -/
def usage : String := "\n".intercalate [
  "Cross-reference and inheritance index for class files and archives.",
  "",
  "--input PATH         class file, archive or folder to index",
  "--namespace PREFIX   prefix of the symbols to index, repeatable",
  "--config PATH        configuration file",
  "--query SYMBOL       symbol whose usages are reported, repeatable",
  "--subtypes CLASS     class whose direct subtypes are reported, repeatable",
  "--supertypes CLASS   class whose supertypes are reported, repeatable",
  "--hierarchy CLASS    class whose root and subtypes are reported, repeatable",
  "--class CLASS        class whose record is reported, repeatable",
  "--class-table        include the class table",
  "--output PATH        file to write the report to",
  "--threads N          number of threads",
  "--otel URL           address for traces",
  "--quiet, --timing    what to say about the run",
  "-h, --help, -V, --version"]

def version : String := "0.1.0"

/-- A word on a command line that starts no run. -/
def wording : CommandLine.Refusal → String
  | .unknownArgument => "unexpected argument"
  | .missingValue => "a value is required"
  | .faultyValue => "invalid value"
  | .repeated => "the argument cannot be used multiple times"
  | .unneededValue => "unexpected value"
  | .missingInput => "--input PATH is required"
  | .help => usage
  | .version => version

/-- Whether a run may look into the file at a path. -/
def isWanted (arguments : CommandLine.Arguments) (path : String) : Bool :=
  arguments.config = some path || Path.extension? path ∈ [some "class", some "jar", some "zip"]

/-- What stands at a path, down to a depth. Files that no run looks into are taken as empty. -/
def load (wanted : String → Bool) : (depth : Nat) → (path : String) → IO FileTree
  | 0, _ => return .lockedFolder
  | depth + 1, path => do
    let place := (← IO.currentDir) / path
    if ← place.isDir then
      try
        let entries ← place.readDir
        let loaded ← entries.toList.mapM fun entry => do
          return (entry.fileName, ← load wanted depth (Path.join path entry.fileName))
        return .folder loaded
      catch _ => return .lockedFolder
    else if wanted path then
      try return .file (← IO.FS.readBinFile place)
      catch _ => return .lockedFile
    else return .file .empty

/-- What stands where a path leads, or that nothing does. -/
def look (arguments : CommandLine.Arguments) (path : String) :
    IO (String × Except SystemError FileTree) := do
  let place := (← IO.currentDir) / path
  if ← place.pathExists then
    return (path, .ok (← load (isWanted arguments) FileTree.maxPathLength path))
  else return (path, .error .notFound)

def systemError : IO.Error → SystemError
  | .noFileOrDirectory .. => .notFound
  | .inappropriateType .. => .isDirectory
  | _ => .accessDenied

/-- Writes a report; the result says what stood in the way. -/
def deliver (report : Report) : Run.Destination → IO (Option RunError)
  | .standardOutput => do
    IO.print report.text
    return none
  | .file path => do
    try
      IO.FS.writeFile path report.text
      return none
    catch error => return some (.outputRefused path (systemError error))

/-- Runs with arguments that were read, and tells whether there was a report. -/
def perform (arguments : CommandLine.Arguments) : IO Bool := do
  let start ← IO.monoMsNow
  let seen ← (arguments.input :: arguments.config.toList).mapM (look arguments)
  let find (path : String) := (seen.lookup path).getD (.error .notFound)
  let failure ← match Run.report find arguments with
    | .error error => pure (some error)
    | .ok report => do
      let failure ← deliver report (Run.destination arguments)
      if arguments.timing && !arguments.quiet && failure.isNone then
        let elapsed := (← IO.monoMsNow) - start
        IO.eprintln
          s!"timing: total_ms={elapsed} classes={report.classCount} usages={report.usageCount}"
      pure failure
  match failure with
  | some error =>
    IO.eprintln s!"Error: {error.message}"
    return false
  | none => return true

end ClassXref.Program

def main (line : List String) : IO UInt32 := do
  match ClassXref.CommandLine.parse line with
  | .ok arguments => return if ← ClassXref.Program.perform arguments then 0 else 1
  | .error refusal =>
    let wording := ClassXref.Program.wording refusal
    if refusal = .help ∨ refusal = .version then
      IO.println wording
      return 0
    else
      IO.eprintln s!"error: {wording}"
      return 2
