import ClassXref.Json.Problem
import ClassXref.Text.ModifiedUtf8

/-! Reading a document piece by piece, each piece against the type that it should have. A flaw is
placed either at the last byte that was read or, where the next byte was only looked at, at that
byte; the end of the text is at its last byte. -/
namespace ClassXref.Json

/-- What is left of a text, and how many bytes were read before. -/
structure Source where
  rest : List UInt8
  offset : Nat := 0
  deriving Repr, DecidableEq, Inhabited

/-- A computation that reads from a text and may meet a flaw. -/
abbrev Reader := EStateM Flaw Source

namespace Reader

/-! ### Bytes -/

def peek? : Reader (Option UInt8) := return (← get).rest.head?

/-- Reads one byte, if there is one. -/
def next? : Reader (Option UInt8) := do
  let source ← get
  match source.rest with
  | b :: rest =>
    set { source with rest, offset := source.offset + 1 }
    return some b
  | [] => return none

/-- Passes over a byte that was looked at. -/
def pass : Reader Unit := do
  let _ ← next?
  return ()

/-- Passes over the longest run of bytes that satisfy a predicate and returns the run. -/
def run (p : UInt8 → Bool) : Reader (List UInt8) := do
  let source ← get
  let front := source.rest.takeWhile p
  set { source with rest := source.rest.dropWhile p, offset := source.offset + front.length }
  return front

def isBlank (b : UInt8) : Bool := b == 0x20 || b == 0x0a || b == 0x09 || b == 0x0d

def blanks : Reader Unit := do
  let _ ← run isBlank
  return ()

/-- Fails at the last byte read. -/
def fail (problem : Problem) : Reader α := do
  throw { path := [], problem, offset := (← get).offset }

/-- Fails at the next byte, or at the end of the text if there is none. -/
def failNext (problem : Problem) : Reader α := do
  let source ← get
  throw { path := [], problem, offset := source.offset + if source.rest.isEmpty then 0 else 1 }

/-- Reads a part of the value that is being read. -/
def within (step : Step) (reader : Reader α) : Reader α := fun source =>
  match reader source with
  | .ok a source => .ok a source
  | .error flaw source => .error { flaw with path := step :: flaw.path } source

/-! ### Literals and strings -/

/-- Reads the rest of a literal whose first letter is known. -/
def literal : List UInt8 → Reader Unit
  | [] => return ()
  | expected :: letters => do
    match ← next? with
    | none => fail .endInValue
    | some b => if b = expected then literal letters else fail .noLiteral

def letters (text : String) : List UInt8 := text.toUTF8.data.toList

def hexDigit? (b : UInt8) : Option Nat :=
  if 0x30 ≤ b ∧ b ≤ 0x39 then some (b.toNat - 0x30)
  else if 0x41 ≤ b ∧ b ≤ 0x46 then some (b.toNat - 0x37)
  else if 0x61 ≤ b ∧ b ≤ 0x66 then some (b.toNat - 0x57)
  else none

/-- The four digits of a hexadecimal escape. -/
def hexEscape : Reader Nat := do
  let source ← get
  match source.rest with
  | a :: b :: c :: d :: rest =>
    set { source with rest, offset := source.offset + 4 }
    match hexDigit? a, hexDigit? b, hexDigit? c, hexDigit? d with
    | some a, some b, some c, some d => return a * 4096 + b * 256 + c * 16 + d
    | _, _, _, _ => fail .invalidEscape
  | rest =>
    set { source with rest := [], offset := source.offset + rest.length }
    fail .endInString

/-- A byte between the two escapes of a surrogate pair. -/
def betweenSurrogates (expected : UInt8) : Reader Unit := do
  match ← next? with
  | none => fail .endInString
  | some b => if b = expected then return () else fail .endOfHexEscape

/-- The character of an escape, read from behind the `u`. -/
def unicodeEscape : Reader Char := do
  let unit ← hexEscape
  if Utf16.isLowSurrogate unit then fail .loneSurrogate
  else if Utf16.isHighSurrogate unit then
    betweenSurrogates 0x5c
    betweenSurrogates 0x75
    let low ← hexEscape
    if Utf16.isLowSurrogate low then return Utf16.joinSurrogates unit low else fail .loneSurrogate
  else return Char.ofNat unit

/-- The character of an escape, read from behind the backslash. -/
def escape : Reader Char := do
  match ← next? with
  | none => fail .endInString
  | some 0x22 => return '"'
  | some 0x5c => return '\\'
  | some 0x2f => return '/'
  | some 0x62 => return '\x08'
  | some 0x66 => return '\x0c'
  | some 0x6e => return '\n'
  | some 0x72 => return '\x0d'
  | some 0x74 => return '\t'
  | some 0x75 => unicodeEscape
  | some _ => fail .invalidEscape

def endsPlain (b : UInt8) : Bool := b == 0x22 || b == 0x5c || b < 0x20

/-- The bytes of a string up to its closing quote. Each turn reads a run of plain bytes and then the
quote or an escape, so the number of bytes left bounds the turns. -/
def stringBytes : (turns : Nat) → ByteArray → Reader ByteArray
  | 0, _ => fail .endInString
  | turns + 1, done => do
    let plain ← run (!endsPlain ·)
    let done := plain.foldl ByteArray.push done
    match ← next? with
    | none => fail .endInString
    | some 0x22 => return done
    | some 0x5c => do stringBytes turns (done ++ (← escape).toString.toUTF8)
    | some _ => fail .controlCharacter

/-- A string, read from behind its opening quote. -/
def stringBody : Reader String := do
  let bytes ← stringBytes ((← get).rest.length + 1) .empty
  return (String.fromUTF8? bytes).getD ""

/-! ### Numbers -/

/-- A number without fraction and exponent that fits 64 bits is an integer, every other number and
negative zero a double. -/
inductive Number where
  | natural (n : Nat)
  | negative (n : Nat)
  | float (value : Float)

def maxUInt64 : Nat := 0xFFFFFFFFFFFFFFFF

def isDigit (b : UInt8) : Bool := 0x30 ≤ b && b ≤ 0x39

/-- Appends digits to a significand as long as 64 bits hold it. Also counts the digits appended. -/
def extendSignificand (significand : Nat) (count : Nat) : List UInt8 → Nat × Nat
  | [] => (significand, count)
  | b :: digits =>
    let longer := significand * 10 + (b.toNat - 0x30)
    if longer ≤ maxUInt64 then extendSignificand longer (count + 1) digits
    else (significand, count)

/-- A significand times a power of ten, by steps that each round; `none` when it is too large. -/
def scale (f : Float) (exponent : Int) : Option Float :=
  if _h : exponent.natAbs ≤ 308 then
    if 0 ≤ exponent then
      let g := f * Float.ofScientific 1 false exponent.natAbs
      if g.isInf then none else some g
    else some (f / Float.ofScientific 1 false exponent.natAbs)
  else if f == 0 then some f
  else if 0 ≤ exponent then none
  else scale (f / Float.ofScientific 1 false 308) (exponent + 308)
termination_by exponent.natAbs
decreasing_by omega

def signed (negative : Bool) (f : Float) : Float := if negative then -f else f

def scaled (negative : Bool) (significand : Nat) (exponent : Int) : Reader Number := do
  match scale significand.toUInt64.toFloat exponent with
  | some f => return .float (signed negative f)
  | none => fail .numberOutOfRange

/-- Digits of an exponent, as far as they do not lead beyond `2 ^ 31 - 1`. -/
def exponentDigits (exponent : Nat) : List UInt8 → Option Nat × List UInt8
  | [] => (some exponent, [])
  | b :: digits =>
    let longer := exponent * 10 + (b.toNat - 0x30)
    if longer < 0x80000000 then exponentDigits longer digits else (none, digits)

/-- What follows the letter of an exponent. A huge exponent makes zero, or is out of range at the
digit that makes it so. -/
def exponentPart (negative : Bool) (significand : Nat) (start : Int) : Reader Number := do
  let down ← match ← peek? with
    | some 0x2b => do pass; pure false
    | some 0x2d => do pass; pure true
    | _ => pure false
  match ← next? with
  | none => fail .endInValue
  | some b =>
    if isDigit b then
      let more ← run isDigit
      match exponentDigits (b.toNat - 0x30) more with
      | (some exponent, _) =>
        scaled negative significand (if down then start - exponent else start + exponent)
      | (none, rest) =>
        if significand ≠ 0 ∧ !down then do
          throw { path := [], problem := .numberOutOfRange
                  offset := (← get).offset - rest.length }
        else return .float (signed negative 0)
    else fail .invalidNumber

def atExponent : Reader Bool := return (← peek?) == some 0x65 || (← peek?) == some 0x45

/-- An exponent if there is one. -/
def optionalExponent (negative : Bool) (significand : Nat) (exponent : Int) : Reader Number := do
  if ← atExponent then
    pass
    exponentPart negative significand exponent
  else scaled negative significand exponent

/-- What follows the point. Digits that do not fit the significand are dropped. -/
def fractionPart (negative : Bool) (significand : Nat) (exponent : Int) : Reader Number := do
  let digits ← run isDigit
  if digits.isEmpty then
    failNext (if (← peek?).isNone then .endInValue else .invalidNumber)
  else
    let (significand, count) := extendSignificand significand 0 digits
    optionalExponent negative significand (exponent - count)

/-- What follows the digits of the integer part. -/
def afterInteger (negative : Bool) (significand : Nat) (dropped : Nat) : Reader Number := do
  if (← peek?) == some 0x2e then
    pass
    fractionPart negative significand dropped
  else if dropped ≠ 0 ∨ (← atExponent) then optionalExponent negative significand dropped
  else if !negative then return .natural significand
  else if significand = 0 ∨ 0x8000000000000000 < significand then
    return .float (-significand.toUInt64.toFloat)
  else return .negative significand

/-- A number, read from behind its sign. Integer digits that do not fit the significand raise the
exponent. -/
def number (negative : Bool) : Reader Number := do
  match ← next? with
  | none => fail .endInValue
  | some 0x30 =>
    if (← peek?).any isDigit then failNext .invalidNumber else afterInteger negative 0 0
  | some b =>
    if isDigit b then
      let digits ← run isDigit
      let (significand, count) := extendSignificand (b.toNat - 0x30) 0 digits
      afterInteger negative significand (digits.length - count)
    else fail .invalidNumber

def Number.found : Number → Found
  | .natural n => .integer n
  | .negative n => .integer (-n)
  | .float f => .float f.toBits

/-! ### Values of a given type -/

/-- What a value is that was to be something else. Scalars are read, brackets only looked at. -/
def found : Reader Found := do
  match ← peek? with
  | some 0x6e => do pass; literal (letters "ull"); return .null
  | some 0x74 => do pass; literal (letters "rue"); return .boolean true
  | some 0x66 => do pass; literal (letters "alse"); return .boolean false
  | some 0x2d => do pass; return (← number true).found
  | some 0x22 => do pass; return .string (← stringBody)
  | some 0x5b => return .list
  | some 0x7b => return .object
  | some b => if isDigit b then return (← number false).found else failNext .noValue
  | none => failNext .noValue

def wrongType (expected : String) : Reader α := do
  fail (.wrongType (← found) expected)

/-- The first byte of a value, behind blanks. -/
def firstByte : Reader UInt8 := do
  blanks
  match ← peek? with
  | some b => return b
  | none => failNext .endInValue

def text : Reader String := do
  if (← firstByte) = 0x22 then
    pass
    stringBody
  else wrongType "a string"

/-- A number that is natural and below `2 ^ 64`. -/
def natural : Reader Nat := do
  let expected := "usize"
  let first ← firstByte
  if first = 0x2d ∨ isDigit first then
    if first = 0x2d then pass
    match ← number (first == 0x2d) with
    | .natural n => return n
    | .negative n => fail (.wrongValue (.integer (-n)) expected)
    | .float f => fail (.wrongType (.float f.toBits) expected)
  else wrongType expected

/-- A value or `null`. -/
def optional (reader : Reader α) : Reader (Option α) := do
  blanks
  if (← peek?) = some 0x6e then
    pass
    literal (letters "ull")
    return none
  else return some (← reader)

/-- Whether a list goes on, from behind its opening bracket or behind an element. -/
def hasElement (first : Bool) : Reader Bool := do
  blanks
  match ← peek? with
  | none => failNext .endInList
  | some 0x5d => return false
  | some b =>
    if first then return true
    else if b = 0x2c then
      pass
      blanks
      match ← peek? with
      | some 0x5d => failNext .trailingComma
      | some _ => return true
      | none => failNext .endInValue
    else failNext .noCommaInList

/-- The closing bracket of a list of which no more elements are wanted. -/
def closeList : Reader Unit := do
  blanks
  match ← peek? with
  | some 0x5d => pass
  | some 0x2c =>
    pass
    blanks
    failNext (if (← peek?) = some 0x5d then .trailingComma else .trailingCharacters)
  | some _ => failNext .trailingCharacters
  | none => failNext .endInList

/-- The elements from a given one on. Each turn but the first reads a comma, so the number of bytes
left bounds the turns. -/
def elements (element : Reader α) : (turns : Nat) → (index : Nat) → List α → Reader (List α)
  | 0, _, _ => failNext .endInList
  | turns + 1, index, done => do
    if ← hasElement (index == 0) then
      elements element turns (index + 1) ((← within (.element index) element) :: done)
    else return done.reverse

def list (element : Reader α) : Reader (List α) := do
  if (← firstByte) = 0x5b then
    pass
    let all ← elements element ((← get).rest.length + 2) 0 []
    closeList
    return all
  else wrongType "a sequence"

/-- Whether an object goes on, from behind its opening brace or behind a member. -/
def hasMember (first : Bool) : Reader Bool := do
  blanks
  let atKey : Reader Bool := do
    match ← peek? with
    | some 0x22 => return true
    | some 0x7d => failNext .trailingComma
    | some _ => failNext .noKey
    | none => failNext .endInValue
  match ← peek? with
  | none => failNext .endInObject
  | some 0x7d => return false
  | some b =>
    if first then atKey
    else if b = 0x2c then
      pass
      blanks
      atKey
    else failNext .noCommaInObject

def colon : Reader Unit := do
  blanks
  match ← peek? with
  | some 0x3a => pass
  | some _ => failNext .noColon
  | none => failNext .endInObject

/-- The closing brace of an object without further members. -/
def closeObject : Reader Unit := do
  blanks
  match ← peek? with
  | some 0x7d => pass
  | some 0x2c => failNext .trailingComma
  | some _ => failNext .trailingCharacters
  | none => failNext .endInObject

/-- Refuses the key that was just read. The flaw is placed behind the blanks after it, and behind the
brace if the object ends there. -/
def refuseKey (problem : Problem) : Reader α := do
  blanks
  if (← peek?) = some 0x7d then pass
  fail problem

end Reader

/-- Reads the value at the front of a text and does not look at what follows it. -/
def readFront (reader : Reader α) (text : List UInt8) : Except Flaw α :=
  match EStateM.run reader { rest := text } with
  | .ok a _ => .ok a
  | .error flaw _ => .error flaw

end ClassXref.Json
