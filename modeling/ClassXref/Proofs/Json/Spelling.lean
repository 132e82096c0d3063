import Mathlib.Data.List.DropRight
import ClassXref.Text.ModifiedUtf8

/-! How values are spelled in a document. A spelling relates a text to a value at its front and to what is left
of the text behind it. It speaks of characters, and not of how a text is read or stored. Blanks count for nothing
between the marks of a list or an object, and a number goes on as long as digits do. -/
namespace ClassXref.Json

/-- The values at the front of a text, each with what is left of the text behind it. -/
abbrev Spelling (α : Type) := List Char → α → List Char → Prop

def isBlankChar (c : Char) : Bool := c == ' ' || c == '\n' || c == '\t' || c == '\r'

/-- A text behind the blanks at its front. -/
def behindBlanks (text : List Char) : List Char := text.dropWhile isBlankChar

theorem behindBlanks_behindBlanks (text : List Char) :
    behindBlanks (behindBlanks text) = behindBlanks text :=
  List.dropWhile_idempotent isBlankChar text

namespace Spelled

/-! ### Strings -/

/-- The characters that have an escape of one letter, by that letter. -/
def shortEscape? : Char → Option Char
  | '"' => some '"'
  | '\\' => some '\\'
  | '/' => some '/'
  | 'b' => some '\x08'
  | 'f' => some '\x0c'
  | 'n' => some '\n'
  | 'r' => some '\x0d'
  | 't' => some '\t'
  | _ => none

/-- What a hexadecimal digit stands for. -/
def hexValue? (c : Char) : Option Nat :=
  if '0' ≤ c ∧ c ≤ '9' then some (c.toNat - '0'.toNat)
  else if 'A' ≤ c ∧ c ≤ 'F' then some (10 + (c.toNat - 'A'.toNat))
  else if 'a' ≤ c ∧ c ≤ 'f' then some (10 + (c.toNat - 'a'.toNat))
  else none

/-- A sixteen-bit unit in four hexadecimal digits. -/
inductive HexUnit : Spelling Nat
  | digits {a b c d : Char} {w x y z : Nat} {rest : List Char} : hexValue? a = some w →
      hexValue? b = some x → hexValue? c = some y → hexValue? d = some z →
        HexUnit (a :: b :: c :: d :: rest) (((w * 16 + x) * 16 + y) * 16 + z) rest

/-- A character by its escape, behind the backslash. A surrogate goes with its partner only. -/
inductive Escape : Spelling Char
  | short {letter c : Char} {rest : List Char} : shortEscape? letter = some c →
      Escape (letter :: rest) c rest
  | unit {text rest : List Char} {unit : Nat} : HexUnit text unit rest →
      Utf16.isHighSurrogate unit = false → Utf16.isLowSurrogate unit = false →
        Escape ('u' :: text) (Char.ofNat unit) rest
  | pair {text mid rest : List Char} {high low : Nat} : HexUnit text high ('\\' :: 'u' :: mid) →
      HexUnit mid low rest → Utf16.isHighSurrogate high = true → Utf16.isLowSurrogate low = true →
        Escape ('u' :: text) (Utf16.joinSurrogates high low) rest

/-- A character that stands for itself in a string. -/
def isPlainChar (c : Char) : Bool := c != '"' && c != '\\' && decide (0x20 ≤ c.toNat)

/-- The characters of a string, behind its opening quote. -/
inductive Characters : Spelling (List Char)
  | close {rest : List Char} : Characters ('"' :: rest) [] rest
  | plain {c : Char} {text chars rest : List Char} : isPlainChar c = true →
      Characters text chars rest → Characters (c :: text) (c :: chars) rest
  | escape {c : Char} {text mid chars rest : List Char} : Escape text c mid →
      Characters mid chars rest → Characters ('\\' :: text) (c :: chars) rest

inductive Text : Spelling String
  | quoted {text chars rest : List Char} : Characters text chars rest →
      Text ('"' :: text) (String.ofList chars) rest

/-! ### Numbers -/

/-- A natural number of at most 64 bits: all digits at the front, with no zero ahead of others, and with no fraction
and no exponent behind them. -/
inductive Natural : Spelling Nat
  | digits {digits rest : List Char} : digits ≠ [] → (∀ c ∈ digits, c.isDigit = true) →
      (digits.head? = some '0' → digits = ['0']) →
      (∀ c ∈ rest.head?, c.isDigit = false) → rest.head? ∉ [some '.', some 'e', some 'E'] →
      Nat.ofDigitChars 10 digits 0 < UInt64.size →
        Natural (digits ++ rest) (Nat.ofDigitChars 10 digits 0) rest

/-! ### Values within values -/

/-- A value, or `null` in its place. -/
inductive OrNull {α : Type} (value : Spelling α) : Spelling (Option α)
  | null {rest : List Char} : OrNull value ('n' :: 'u' :: 'l' :: 'l' :: rest) none rest
  | value {text rest : List Char} {a : α} : value text a rest → OrNull value text (some a) rest

/-- The items of a list or an object behind the first ones, each behind a comma, and the closing mark. -/
inductive More {α : Type} (closing : Char) (item : Spelling α) : Spelling (List α)
  | close {text rest : List Char} : behindBlanks text = closing :: rest →
      More closing item text [] rest
  | next {text mid next rest : List Char} {a : α} {as : List α} : behindBlanks text = ',' :: mid →
      item (behindBlanks mid) a next → More closing item next as rest →
        More closing item text (a :: as) rest

/-- Items between two marks. -/
inductive Between {α : Type} (opening closing : Char) (item : Spelling α) : Spelling (List α)
  | none {text rest : List Char} : behindBlanks text = closing :: rest →
      Between opening closing item (opening :: text) [] rest
  | items {text next rest : List Char} {a : α} {as : List α} : item (behindBlanks text) a next →
      More closing item next as rest → Between opening closing item (opening :: text) (a :: as) rest

end Spelled
end ClassXref.Json
