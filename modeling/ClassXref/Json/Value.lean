/-! JSON documents and their printed form: two blanks a level, one element a line, members in the
order in which they are given. -/
namespace ClassXref

inductive Json where
  | null
  | number (n : Nat)
  | string (text : String)
  | array (elements : List Json)
  | object (members : List (String × Json))
  deriving Inhabited

namespace Json

/-- A character in a string. Only quotes, backslashes and control characters below 32 are escaped,
in lower-case hexadecimal where there is no letter for them. -/
def escapeChar (c : Char) : String :=
  if c = '"' then "\\\""
  else if c = '\\' then "\\\\"
  else if c = '\x08' then "\\b"
  else if c = '\x0c' then "\\f"
  else if c = '\n' then "\\n"
  else if c = '\x0d' then "\\r"
  else if c = '\t' then "\\t"
  else if c.toNat < 32 then
    String.ofList ['\\', 'u', '0', '0', Nat.digitChar (c.toNat / 16), Nat.digitChar (c.toNat % 16)]
  else c.toString

/-- Appends a text in quotes. -/
def writeString (out text : String) : String :=
  (text.toList.foldl (fun out c => out ++ escapeChar c) (out.push '"')).push '"'

/-- Appends a line break and the indentation of a level. -/
def writeBreak (out : String) (depth : Nat) : String :=
  (out.push '\n').pushn ' ' (2 * depth)

/-! The brackets of an empty array or object stand on one line. -/
mutual

/-- Appends a document whose first line stands at the given level. -/
def write (out : String) (depth : Nat) : Json → String
  | null => out ++ "null"
  | number n => out ++ toString n
  | string text => writeString out text
  | array [] => out ++ "[]"
  | array (x :: xs) =>
    let out := write (writeBreak (out ++ "[") (depth + 1)) (depth + 1) x
    (writeBreak (writeElements out (depth + 1) xs) depth).push ']'
  | object [] => out ++ "\x7b\x7d"
  | object ((key, value) :: members) =>
    let out := writeString (writeBreak (out ++ "\x7b") (depth + 1)) key
    let out := write (out ++ ": ") (depth + 1) value
    (writeBreak (writeMembers out (depth + 1) members) depth).push '\x7d'

/-- Appends the elements of an array after its first. -/
def writeElements (out : String) (depth : Nat) : List Json → String
  | [] => out
  | x :: xs => writeElements (write (writeBreak (out ++ ",") depth) depth x) depth xs

/-- Appends the members of an object after its first. -/
def writeMembers (out : String) (depth : Nat) : List (String × Json) → String
  | [] => out
  | (key, value) :: members =>
    let out := writeString (writeBreak (out ++ ",") depth) key
    writeMembers (write (out ++ ": ") depth value) depth members

end

/-- The printed form of a document, without a line break at its end. -/
def pretty (document : Json) : String :=
  write "" 0 document

end Json
end ClassXref
