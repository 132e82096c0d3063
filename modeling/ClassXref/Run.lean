import ClassXref.Collect
import ClassXref.CommandLine.Arguments
import ClassXref.Config
import ClassXref.Endpoint

/-! A run: from arguments and a tree of files to a report, and from there to what is written. A report is made
from what can be found under paths, and changes nothing; the steps that change the world come after it. -/
namespace ClassXref

open CommandLine (Arguments)

/-- Why a run ends without a report. -/
inductive RunError where
  | inputNotFound (path : String)
  | configUnreadable (path : String) (error : SystemError)
  | configNotText (path : String)
  | configInvalid (path : String) (wording : String)
  | settings (wording : String)
  | endpoint (flaw : Url.Flaw)
  | inputRefused (obstacle : Obstacle)
  | outputRefused (path : String) (error : SystemError)
  deriving Repr, DecidableEq

def RunError.message : RunError → String
  | inputNotFound path => s!"input not found: {path}"
  | configUnreadable path error => s!"failed to read config {path}: {error.message}"
  | configNotText path => s!"failed to read config {path}: stream did not contain valid UTF-8"
  | configInvalid path wording => s!"invalid config {path}: {wording}"
  | settings wording => wording
  | endpoint flaw => Endpoint.message flaw
  | inputRefused obstacle => obstacle.message
  | outputRefused path error => s!"failed to open {path}: {error.message}"

namespace Run

/-- The configuration in what was read from a path. -/
def configOf (path : String) (content : Except SystemError ByteArray) : Except RunError Config :=
  match content with
  | .error error => .error (.configUnreadable path error)
  | .ok data =>
    match String.fromUTF8? data with
    | none => .error (.configNotText path)
    | some text => (Config.parse text).mapError (.configInvalid path)

/-- The configuration that the arguments name; without a file it is silent on everything. -/
def config (find : String → Except SystemError FileTree) (arguments : Arguments) :
    Except RunError Config :=
  match arguments.config with
  | none => .ok {}
  | some path => configOf path ((find path).bind FileTree.content)

/-- What the run goes by. The address for traces is checked here; nothing is sent to it. -/
def settings (find : String → Except SystemError FileTree) (arguments : Arguments) :
    Except RunError Settings := do
  let settings ← (Settings.resolve (← config find arguments) arguments.namespaces
    arguments.threads arguments.otelEndpoint).mapError .settings
  match settings.otelEndpoint with
  | none => return settings
  | some address =>
    let _ ← (Endpoint.normalize address).mapError .endpoint
    return settings

/-- The report that the arguments ask for, given what stands where a path leads. -/
def report (find : String → Except SystemError FileTree) (arguments : Arguments) :
    Except RunError Report :=
  match find arguments.input with
  | .error _ => .error (.inputNotFound arguments.input)
  | .ok node => do
    let settings ← settings find arguments
    let collected ← (Collector.collect arguments.input node).mapError .inputRefused
    let (index, summary) := Batch.run (.empty settings.namespaces) collected
    return index.report summary arguments.questions

/-- Where a report goes. -/
inductive Destination where
  | standardOutput
  | file (path : String)
  deriving Repr, DecidableEq, Inhabited

/-- A path that is a lone dash, whatever empty parts and dots follow, means standard output. -/
def destination (arguments : Arguments) : Destination :=
  match arguments.output with
  | none => .standardOutput
  | some path =>
    match Path.parts path with
    | "-" :: rest =>
      if rest.all fun part => part = "" ∨ part = "." then .standardOutput else .file path
    | _ => .file path

example : destination { input := "a", output := some "-/." } = .standardOutput := rfl

example : destination { input := "a", output := some "./-" } = .file "./-" := rfl

/-- What a run can change: the files, and what has been written to standard output. -/
structure World where
  files : FileTree
  standardOutput : String := ""

/-- A computation that can change the world. What it changed before an error is not undone. -/
abbrev Action := EStateM RunError World

/-- What is open for writing: standard output, or the file that names lead to. -/
inductive Output where
  | standard
  | file (names : List String)
  deriving Repr, DecidableEq, Inhabited

/-- Opens what a report goes to. -/
def openOutput : Destination → Action Output
  | .standardOutput => return .standard
  | .file path => do
    let world ← get
    match world.files.create path with
    | .ok (names, files) =>
      set { world with files }
      return .file names
    | .error error => throw (.outputRefused path error)

/-- Writes a text behind what has been written before. -/
def write (text : String) : Output → Action Unit
  | .standard => modify fun world => { world with standardOutput := world.standardOutput ++ text }
  | .file names => modify fun world => { world with files := world.files.append names text.toUTF8 }

/-- Makes the report, opens what it goes to, and writes the document and a line break. -/
def perform (arguments : Arguments) : Action Report := do
  let report ← ofExcept (report (← get).files.find arguments)
  let output ← openOutput (destination arguments)
  write report.toJson.pretty output
  write "\n" output
  return report

/-- What a run leaves: its report or the reason why there is none, what it wrote to standard output,
and the files. -/
structure Outcome where
  result : Except RunError Report
  standardOutput : String
  files : FileTree

/-- Runs on a tree of files. -/
def run (files : FileTree) (arguments : Arguments) : Outcome :=
  match EStateM.run (perform arguments) { files } with
  | .ok report world =>
    { result := .ok report, standardOutput := world.standardOutput, files := world.files }
  | .error error world =>
    { result := .error error, standardOutput := world.standardOutput, files := world.files }

end Run
end ClassXref
