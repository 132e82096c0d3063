import ClassXref.Archive.Basic
import ClassXref.Archive.Crc32
import ClassXref.Archive.Inflate
import ClassXref.Bytes.LittleEndian

/-! The content of the files in an archive. An entry's own header only says how much stands between
it and the content; sizes, method and checksum come from the directory. -/
namespace ClassXref.Archive

def headerSignature : List UInt8 := [0x50, 0x4b, 3, 4]

/-- The length of an entry's own header without its texts. -/
def headerLength : Nat := 30

/-- The compressed content of an entry, as far as the archive has it. -/
def compressed (data : ByteArray) (entry : Entry) : Except Flaw ByteArray :=
  let start := entry.headerStart + headerLength
  if signatureAt data headerSignature entry.headerStart ∧ start ≤ data.size then
    let first := start + LittleEndian.field data (entry.headerStart + 26) 2 +
      LittleEndian.field data (entry.headerStart + 28) 2
    .ok (data.extract first (first + entry.compressedSize))
  else .error .noHeader

/-- Undoes a method of compression: 0 stores, 8 deflates. -/
def decompress (method : Nat) (content : ByteArray) : Except Flaw ByteArray :=
  match method with
  | 0 => .ok content
  | 8 =>
    match Inflate.run content with
    | some content => .ok content
    | none => .error .corruptStream
  | method => .error (.unknownMethod method)

/-- The content of an entry, which must have the checksum that the directory gives. -/
def content (data : ByteArray) (entry : Entry) : Except Flaw ByteArray := do
  if entry.encrypted then throw .encrypted
  else
    let content ← decompress entry.method (← compressed data entry)
    if Crc32.ofBytes content = entry.checksum then return content else throw .wrongChecksum

end ClassXref.Archive
