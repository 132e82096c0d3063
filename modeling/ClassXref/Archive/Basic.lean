/-! What an archive lists about the files in it, and what can be wrong with an archive. -/
namespace ClassXref.Archive

/-- A file in an archive, as the directory of the archive lists it. -/
structure Entry where
  name : String
  encrypted : Bool
  method : Nat
  checksum : UInt32
  compressedSize : Nat
  /-- Where the entry's own header stands in the archive. -/
  headerStart : Nat
  deriving Repr, DecidableEq, Inhabited

/-- Why an archive or a file in it cannot be read. -/
inductive Flaw where
  | noEndRecord
  | commentCutOff
  | directoryBehindEnd
  | noDirectory
  | noHeader
  | encrypted
  | unknownMethod (method : Nat)
  | corruptStream
  | wrongChecksum
  deriving Repr, DecidableEq, Inhabited

def Flaw.message : Flaw → String
  | noEndRecord => "invalid Zip archive: Could not find EOCD"
  | commentCutOff => "invalid Zip archive: EOCD comment exceeds file boundary"
  | directoryBehindEnd => "invalid Zip archive: Invalid CDFH offset in EOCD"
  | noDirectory => "invalid Zip archive: No CDFH found"
  | noHeader => "invalid Zip archive: Invalid local file header"
  | encrypted => "unsupported Zip archive: Password required to decrypt file"
  | unknownMethod method => s!"compression method not supported: {method}"
  | corruptStream => "corrupt deflate stream"
  | wrongChecksum => "Invalid checksum"

/-- Whether a signature stands at a place in a buffer. -/
def signatureAt (data : ByteArray) (signature : List UInt8) (start : Nat) : Bool :=
  (data.extract start (start + signature.length)).data.toList == signature

end ClassXref.Archive
