import ClassXref.Archive.Basic
import ClassXref.Bytes.LittleEndian
import ClassXref.Text.CodePage437
import ClassXref.Text.LossyUtf8
import Std.Data.TreeMap

/-! The directory of an archive. It is found from the end of the file: the last end record that leads
to a readable directory counts. What stands before the archive moves all its offsets by the same
distance, which the first header of the directory shows. -/
namespace ClassXref.Archive

open LittleEndian (field)

def endSignature : List UInt8 := [0x50, 0x4b, 5, 6]

def directorySignature : List UInt8 := [0x50, 0x4b, 1, 2]

/-- The length of an end record without its comment. -/
def endRecordLength : Nat := 22

/-- The length of a header in the directory without its texts. -/
def directoryHeaderLength : Nat := 46

/-- The name of an entry, which a flag says to be in UTF-8. -/
def entryName (flags : Nat) (bytes : List UInt8) : String :=
  if flags.testBit 11 then LossyUtf8.decode bytes else CodePage437.decode bytes

/-- Reads `count` headers of a directory from `start` on. Offsets in them are `shift` too small. -/
def readHeaders (data : ByteArray) (shift : Nat) : (count start : Nat) → Option (List Entry)
  | 0, _ => some []
  | count + 1, start =>
    let nameStart := start + directoryHeaderLength
    let nameLength := field data (start + 28) 2
    let next := nameStart + nameLength + field data (start + 30) 2 + field data (start + 32) 2
    if signatureAt data directorySignature start ∧ next ≤ data.size then
      let flags := field data (start + 8) 2
      let entry : Entry :=
        { name := entryName flags (data.extract nameStart (nameStart + nameLength)).data.toList
          encrypted := flags.testBit 0
          method := field data (start + 10) 2
          checksum := UInt32.ofNat (field data (start + 16) 4)
          compressedSize := field data (start + 20) 4
          headerStart := field data (start + 42) 4 + shift }
      (readHeaders data shift count next).map (entry :: ·)
    else none

/-- The first of `count` places from `start` on where a header of a directory stands. -/
def firstHeader? (data : ByteArray) : (count start : Nat) → Option Nat
  | 0, _ => none
  | count + 1, start =>
    if signatureAt data directorySignature start then some start
    else firstHeader? data count (start + 1)

/-- What an end record leads to. -/
inductive Lead where
  /-- It leads nowhere. -/
  | flaw (flaw : Flaw)
  /-- It leads to a number of headers; offsets are too small by `shift`. -/
  | directory (count start shift : Nat)
  deriving Repr, DecidableEq, Inhabited

/-- Follows the end record at `stop`. -/
def follow (data : ByteArray) (stop : Nat) : Lead :=
  let count := field data (stop + 10) 2
  let start := field data (stop + 16) 4
  if data.size < stop + endRecordLength then .flaw .noEndRecord
  else if data.size < stop + endRecordLength + field data (stop + 20) 2 then .flaw .commentCutOff
  else if count = 0 then .directory 0 start (stop - start)
  else if stop ≤ start then .flaw .directoryBehindEnd
  else match firstHeader? data (stop - start) start with
    | some found => .directory count found (found - start)
    | none => .flaw .noDirectory

/-- Tries the end records before `stop`, last first. `flaw` tells what was wrong with those behind. -/
def findDirectory (data : ByteArray) (flaw : Flaw) : (stop : Nat) → Except Flaw (List Entry)
  | 0 => .error flaw
  | stop + 1 =>
    if signatureAt data endSignature stop then
      match follow data stop with
      | .directory count start shift =>
        match readHeaders data shift count start with
        | some entries => .ok entries
        | none => findDirectory data .noEndRecord stop
      | .flaw .commentCutOff =>
        findDirectory data (if flaw = .noEndRecord then .commentCutOff else flaw) stop
      | .flaw .noEndRecord => findDirectory data flaw stop
      | .flaw flaw => findDirectory data flaw stop
    else findDirectory data flaw stop

/-- The entries of an archive in ascending order of names. Of several entries of one name the last
in the directory counts. -/
def entries (data : ByteArray) : Except Flaw (List Entry) :=
  (findDirectory data .noEndRecord data.size).map fun found =>
    (Std.TreeMap.ofList (found.map fun entry => (entry.name, entry))).toList.map (·.2)

end ClassXref.Archive
