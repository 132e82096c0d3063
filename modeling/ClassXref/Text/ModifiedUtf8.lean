/-! Modified UTF-8, the encoding of text in class files: a text is written as its 16-bit code units,
each in one to three bytes, and the unit zero takes two bytes so that no zero byte occurs.
`decode?` reads more than `encode` writes: bytes that are plain UTF-8 from end to end are taken as
plain UTF-8, four-byte forms and zero bytes included. -/
namespace ClassXref

/-! ### Sixteen-bit code units -/
namespace Utf16

/-- The units of a character: one, or a high and a low surrogate. -/
def unitsOf (c : Char) : List Nat :=
  if c.toNat < 0x10000 then [c.toNat]
  else [0xD800 + (c.toNat - 0x10000) / 0x400, 0xDC00 + (c.toNat - 0x10000) % 0x400]

def encode (text : List Char) : List Nat :=
  text.flatMap unitsOf

def isHighSurrogate (unit : Nat) : Bool := 0xD800 ≤ unit && unit < 0xDC00

def isLowSurrogate (unit : Nat) : Bool := 0xDC00 ≤ unit && unit < 0xE000

/-- The character of a high and a low surrogate. -/
def joinSurrogates (high low : Nat) : Char :=
  Char.ofNat (0x10000 + (high - 0xD800) * 0x400 + (low - 0xDC00))

/-- Reads units, with the characters read so far in reverse. Refuses a surrogate without its
partner. -/
def decodeOnto (done : List Char) : List Nat → Option (List Char)
  | [] => some done.reverse
  | unit :: units =>
    if isHighSurrogate unit then
      match units with
      | low :: units =>
        if isLowSurrogate low then decodeOnto (joinSurrogates unit low :: done) units else none
      | [] => none
    else if isLowSurrogate unit then none
    else decodeOnto (Char.ofNat unit :: done) units

def decode? (units : List Nat) : Option (List Char) :=
  decodeOnto [] units

end Utf16

namespace ModifiedUtf8

/-- A unit in its shortest form, except that zero takes two bytes. -/
def bytesOfUnit (unit : Nat) : List UInt8 :=
  if unit ≠ 0 ∧ unit < 0x80 then [UInt8.ofNat unit]
  else if unit < 0x800 then [UInt8.ofNat (0xC0 + unit / 64), UInt8.ofNat (0x80 + unit % 64)]
  else [UInt8.ofNat (0xE0 + unit / 4096), UInt8.ofNat (0x80 + unit / 64 % 64),
    UInt8.ofNat (0x80 + unit % 64)]

def encode (text : List Char) : List UInt8 :=
  (Utf16.encode text).flatMap bytesOfUnit

/-- The six bits of a continuation byte. -/
def continuation? (b : UInt8) : Option Nat :=
  if 0x80 ≤ b.toNat ∧ b.toNat < 0xC0 then some (b.toNat - 0x80) else none

/-- Reads code units, with the units read so far in reverse. Refuses a zero byte, a longer form than
needed and every byte from F0 up. -/
def unitsOnto (done : List Nat) : List UInt8 → Option (List Nat)
  | [] => some done.reverse
  | a :: bytes =>
    if a.toNat < 0x80 then
      if a.toNat = 0 then none else unitsOnto (a.toNat :: done) bytes
    else match bytes with
      | [] => none
      | b :: bytes =>
        match continuation? b with
        | none => none
        | some b =>
          if 0xC0 ≤ a.toNat ∧ a.toNat < 0xE0 then
            let unit := (a.toNat - 0xC0) * 64 + b
            if unit = 0 ∨ 0x80 ≤ unit then unitsOnto (unit :: done) bytes else none
          else if 0xE0 ≤ a.toNat ∧ a.toNat < 0xF0 then
            match bytes with
            | [] => none
            | c :: bytes =>
              match continuation? c with
              | none => none
              | some c =>
                let unit := (a.toNat - 0xE0) * 4096 + b * 64 + c
                if 0x800 ≤ unit then unitsOnto (unit :: done) bytes else none
          else none

def units? (bytes : List UInt8) : Option (List Nat) :=
  unitsOnto [] bytes

/-- The text that bytes stand for: as plain UTF-8 if they are that throughout, otherwise strictly as
modified UTF-8. -/
def decode? (bytes : List UInt8) : Option String :=
  match String.fromUTF8? bytes.toByteArray with
  | some text => some text
  | none => ((units? bytes).bind Utf16.decode?).map String.ofList

end ModifiedUtf8
end ClassXref
