import ClassXref.CommandLine.Token
import ClassXref.Report

/-! The meaning of a command line. Its words are taken from left to right, and the first that is in
the way decides. A value counts as given only when the next option begins or the line ends, so what
is wrong with it shows there. -/
namespace ClassXref.CommandLine

/-- What a command line asks for. -/
structure Arguments where
  input : String
  namespaces : List String := []
  config : Option String := none
  questions : Questions := {}
  output : Option String := none
  threads : Option Nat := none
  otelEndpoint : Option String := none
  quiet : Bool := false
  timing : Bool := false
  deriving Repr, DecidableEq, Inhabited

/-- Why a command line starts no run: it is faulty, or asks for a text on the program. -/
inductive Refusal where
  | unknownArgument
  | missingValue
  | faultyValue
  | repeated
  | unneededValue
  | missingInput
  | help
  | version
  deriving Repr, DecidableEq, Inhabited

/-- What was read of a command line: the values that were given, in order, the switches, and the
last option with its value if neither has counted yet. -/
structure Draft where
  values : List (Parameter × String) := []
  switches : List Switch := []
  pending : Option (Parameter × Option String) := none
  deriving Repr, DecidableEq, Inhabited

/-- Counts of threads are below this. -/
def threadLimit : Nat := 0x10000000000000000

/-- A count of threads: decimal digits, which may have a plus sign before them. -/
def threadCount? (text : String) : Option Nat :=
  let digits := match text.toList with
    | '+' :: digits => digits
    | digits => digits
  if digits ≠ [] ∧ digits.all Char.isDigit then
    let count := digits.foldl (fun n c => n * 10 + (c.toNat - '0'.toNat)) 0
    if count < threadLimit then some count else none
  else none

/-- What is wrong with the value of an option, if anything: a path is not empty. -/
def Parameter.flaw? (parameter : Parameter) (value : String) : Option Refusal :=
  match parameter with
  | input | config | output => if value = "" then some .missingValue else none
  | threads => if (threadCount? value).isNone then some .faultyValue else none
  | namespaces | query | subtypes | supertypes | hierarchy | ofClass | otel => none

namespace Draft

/-- The values that were given for an option. -/
def valuesOf (draft : Draft) (parameter : Parameter) : List String :=
  (draft.values.filter (·.1 = parameter)).map (·.2)

def value? (draft : Draft) (parameter : Parameter) : Option String :=
  (draft.valuesOf parameter).head?

/-- Takes a value in. -/
def give (draft : Draft) (parameter : Parameter) (value : String) : Except Refusal Draft :=
  if !parameter.isRepeatable && (draft.value? parameter).isSome then .error .repeated
  else match parameter.flaw? value with
    | some refusal => .error refusal
    | none => .ok { draft with values := draft.values ++ [(parameter, value)] }

/-- Takes in what is pending. -/
def settle (draft : Draft) : Except Refusal Draft :=
  match draft.pending with
  | none => .ok draft
  | some (_, none) => .error .missingValue
  | some (parameter, some value) => { draft with pending := none }.give parameter value

/-- Takes in one word. -/
def step (draft : Draft) : Token → Except Refusal Draft
  | .unknown | .endOfOptions => .error .unknownArgument
  | .value text =>
    match draft.pending with
    | some (parameter, none) => .ok { draft with pending := some (parameter, some text) }
    | _ => .error .unknownArgument
  | .parameter parameter none => do
    return { ← draft.settle with pending := some (parameter, none) }
  | .parameter parameter (some value) => do (← draft.settle).give parameter value
  | .switch _ (some _) => .error .unneededValue
  | .switch switch none => do
    let draft ← draft.settle
    match switch with
    | .help => throw .help
    | .version => throw .version
    | switch =>
      if switch ∈ draft.switches then throw .repeated
      else return { draft with switches := draft.switches ++ [switch] }

/-- Takes in all words. Nothing may follow the end of the options. -/
def steps (draft : Draft) : List Token → Except Refusal Draft
  | [] | [.endOfOptions] => draft.settle
  | token :: tokens => do (← draft.step token).steps tokens

/-- The arguments that a line stands for once all of it was read. -/
def arguments (draft : Draft) : Except Refusal Arguments :=
  match draft.value? .input with
  | none => .error .missingInput
  | some input => .ok
    { input
      namespaces := draft.valuesOf .namespaces
      config := draft.value? .config
      questions :=
        { usages := draft.valuesOf .query
          subtypes := draft.valuesOf .subtypes
          supertypes := draft.valuesOf .supertypes
          hierarchy := draft.valuesOf .hierarchy
          classes := draft.valuesOf .ofClass
          classTable := Switch.classTable ∈ draft.switches }
      output := draft.value? .output
      threads := (draft.value? .threads).bind threadCount?
      otelEndpoint := draft.value? .otel
      quiet := Switch.quiet ∈ draft.switches
      timing := Switch.timing ∈ draft.switches }

end Draft

/-- Reads a command line without the name of the program. -/
def parse (line : List String) : Except Refusal Arguments := do
  (← Draft.steps {} (line.map Token.ofArgument)).arguments

example : parse ["--input=a", "--quiet"] = .ok { input := "a", quiet := true } := rfl

-- an unknown word goes before a value that has not counted yet
example : parse ["--threads", "x", "--other"] = .error .unknownArgument := rfl

example : parse ["--threads", "x", "--quiet"] = .error .faultyValue := rfl

end ClassXref.CommandLine
