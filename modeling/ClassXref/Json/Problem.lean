import ClassXref.Decimal.Shortest
import ClassXref.Text.Quoted

/-! Why a document cannot be read as what it should be: where in the document, where in the text, and
what is wrong there. -/
namespace ClassXref.Json

/-- What stands in a document in the place of something else. -/
inductive Found where
  | null
  | boolean (b : Bool)
  | integer (n : Int)
  | float (bits : UInt64)
  | string (text : String)
  | list
  | object
  deriving Repr, DecidableEq, Inhabited

/-- Numbers with a leading digit from the hundred-thousandths to the quadrillions are written without
an exponent. -/
def floatFormat : Decimal.FloatFormat := ⟨-5, 15⟩

def Found.text : Found → String
  | null => "null"
  | boolean true => "boolean `true`"
  | boolean false => "boolean `false`"
  | integer n => s!"integer `{n}`"
  | float bits => "floating point `" ++ floatFormat.ofBits bits ++ "`"
  | string text => "string " ++ Text.quoted text
  | list => "sequence"
  | object => "map"

inductive Problem where
  | endInList
  | endInObject
  | endInString
  | endInValue
  | noColon
  | noCommaInList
  | noCommaInObject
  | noLiteral
  | noValue
  | noKey
  | trailingComma
  | trailingCharacters
  | invalidEscape
  | invalidNumber
  | numberOutOfRange
  | loneSurrogate
  | endOfHexEscape
  | controlCharacter
  | wrongType (found : Found) (expected : String)
  | wrongValue (found : Found) (expected : String)
  | unknownField (name : String) (known : List String)
  | repeatedField (name : String)
  deriving Repr, DecidableEq, Inhabited

def Problem.text : Problem → String
  | endInList => "EOF while parsing a list"
  | endInObject => "EOF while parsing an object"
  | endInString => "EOF while parsing a string"
  | endInValue => "EOF while parsing a value"
  | noColon => "expected `:`"
  | noCommaInList => "expected `,` or `]`"
  | noCommaInObject => "expected `,` or `\x7d`"
  | noLiteral => "expected ident"
  | noValue => "expected value"
  | noKey => "key must be a string"
  | trailingComma => "trailing comma"
  | trailingCharacters => "trailing characters"
  | invalidEscape => "invalid escape"
  | invalidNumber => "invalid number"
  | numberOutOfRange => "number out of range"
  | loneSurrogate => "lone leading surrogate in hex escape"
  | endOfHexEscape => "unexpected end of hex escape"
  | controlCharacter => "control character (\\u0000-\\u001F) found while parsing a string"
  | wrongType found expected => s!"invalid type: {found.text}, expected {expected}"
  | wrongValue found expected => s!"invalid value: {found.text}, expected {expected}"
  | unknownField name known =>
      s!"unknown field `{name}`, expected one of " ++
        ", ".intercalate (known.map fun k => "`" ++ k ++ "`")
  | repeatedField name => s!"duplicate field `{name}`"

/-- A step from a value to a part of it. -/
inductive Step where
  | member (key : String)
  | element (index : Nat)
  deriving Repr, DecidableEq, Inhabited

/-- A path from the whole document, with a point before each key but the first. -/
def pathText (path : List Step) : String :=
  go "" path
where
  go (out : String) : List Step → String
    | [] => out
    | .member key :: path => go (if out.isEmpty then key else out ++ "." ++ key) path
    | .element index :: path => go (out ++ s!"[{index}]") path

/-- A problem, the value in which it was met and the number of bytes up to it. -/
structure Flaw where
  path : List Step
  problem : Problem
  offset : Nat
  deriving Repr, DecidableEq, Inhabited

/-- The line of an offset, counted from one, and its column in bytes, counted from zero. -/
def lineAndColumn (text : List UInt8) (offset : Nat) : Nat × Nat :=
  (text.take offset).foldl next (1, 0)
where
  next (place : Nat × Nat) (b : UInt8) : Nat × Nat :=
    if b = 0x0a then (place.1 + 1, 0) else (place.1, place.2 + 1)

/-- The wording of a flaw in a text. A flaw in the whole document has no path. -/
def Flaw.message (flaw : Flaw) (text : List UInt8) : String :=
  let (line, column) := lineAndColumn text flaw.offset
  let path := if flaw.path.isEmpty then "" else pathText flaw.path ++ ": "
  path ++ flaw.problem.text ++ s!" at line {line} column {column}"

end ClassXref.Json
