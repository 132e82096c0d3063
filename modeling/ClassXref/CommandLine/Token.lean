/-! The words of a command line. Names are long, except that help and version have one letter too; a
value stands behind an option's name, as a word of its own or after an equals sign. -/
namespace ClassXref.CommandLine

/-- An option that takes a value. -/
inductive Parameter where
  | input
  | namespaces
  | config
  | query
  | subtypes
  | supertypes
  | hierarchy
  | ofClass
  | output
  | threads
  | otel
  deriving Repr, DecidableEq, Inhabited

/-- An option that takes none. -/
inductive Switch where
  | classTable
  | quiet
  | timing
  | help
  | version
  deriving Repr, DecidableEq, Inhabited

/-- What an argument is by its form alone. -/
inductive Token where
  | parameter (parameter : Parameter) (attached : Option String)
  | switch (switch : Switch) (attached : Option String)
  | value (text : String)
  | endOfOptions
  | unknown
  deriving Repr, DecidableEq, Inhabited

/-- Whether the option may be given several times. -/
def Parameter.isRepeatable : Parameter → Bool
  | namespaces | query | subtypes | supertypes | hierarchy | ofClass => true
  | input | config | output | threads | otel => false

def parameters : List (String × Parameter) :=
  [("input", .input), ("namespace", .namespaces), ("config", .config), ("query", .query),
    ("subtypes", .subtypes), ("supertypes", .supertypes), ("hierarchy", .hierarchy),
    ("class", .ofClass), ("output", .output), ("threads", .threads), ("otel", .otel)]

def switches : List (String × Switch) :=
  [("class-table", .classTable), ("quiet", .quiet), ("timing", .timing), ("help", .help),
    ("version", .version)]

namespace Token

/-- What stands before the first equals sign of a text, and what stands after it. -/
def splitAtEquals (text : List Char) : List Char × Option (List Char) :=
  match text.dropWhile (· != '=') with
  | [] => (text, none)
  | _ :: attached => (text.takeWhile (· != '='), some attached)

/-- A word that begins with two dashes, from behind them on. -/
def ofLong (text : List Char) : Token :=
  let (name, attached) := splitAtEquals text
  let attached := attached.map String.ofList
  match parameters.lookup (String.ofList name), switches.lookup (String.ofList name) with
  | some option, _ => .parameter option attached
  | none, some option => .switch option attached
  | none, none => .unknown

/-- A word is never a value if it begins with a dash, unless it is only the dash. Of a run of letters
behind a dash the first decides. -/
def ofArgument (argument : String) : Token :=
  match argument.toList with
  | ['-', '-'] => .endOfOptions
  | '-' :: '-' :: text => ofLong text
  | '-' :: 'h' :: _ => .switch .help none
  | '-' :: 'V' :: _ => .switch .version none
  | '-' :: _ :: _ => .unknown
  | _ => .value argument

end Token
end ClassXref.CommandLine
