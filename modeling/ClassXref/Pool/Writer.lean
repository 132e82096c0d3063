import ClassXref.Bytes.BigEndian
import ClassXref.Pool.Constant
import ClassXref.Text.ModifiedUtf8

/-! Writing constants: a tag, and a body that `Constant.readBody` reads back. The pool of a class file
is its constants one after the other; the count before them is that of slots, slot zero included. -/
namespace ClassXref

open BigEndian (digits)

namespace Constant

/-- A text in modified UTF-8, with its length in two bytes before it. -/
def encodeText (text : String) : List UInt8 :=
  let bytes := ModifiedUtf8.encode text.toList
  digits 2 bytes.length ++ bytes

/-- Two indices. -/
def encodePair (first second : UInt16) : List UInt8 :=
  digits 2 first.toNat ++ digits 2 second.toNat

/-- What follows the tag of a constant. -/
def encodeBody : Constant → List UInt8
  | utf8 text => encodeText text
  | integer value => digits 4 value.toUInt32.toNat
  | float bits => digits 4 bits.toNat
  | long value => digits 8 value.toUInt64.toNat
  | double bits => digits 8 bits.toNat
  | classRef index | string index | methodType index | module index | package index =>
    digits 2 index.toNat
  | fieldRef first second | methodRef first second | interfaceMethodRef first second
  | nameAndType first second | dynamic first second | invokeDynamic first second =>
    encodePair first second
  | methodHandle kind target => kind :: digits 2 target.toNat

def encode (c : Constant) : List UInt8 :=
  c.kind.tag :: c.encodeBody

end Constant

/-- The bytes of a pool behind its count. -/
def Pool.encode (constants : List Constant) : List UInt8 :=
  constants.flatMap Constant.encode

end ClassXref
