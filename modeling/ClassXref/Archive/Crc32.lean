/-! The cyclic redundancy check of archives: the remainder of a file, read as a polynomial over two
elements with the lowest bit first, modulo a fixed polynomial of degree 32. -/
namespace ClassXref.Crc32

def polynomial : UInt32 := 0xEDB88320

/-- Divides out one bit. -/
def step (r : UInt32) : UInt32 :=
  if r &&& 1 = 1 then (r >>> 1) ^^^ polynomial else r >>> 1

/-- Divides out the eight bits of a byte. -/
def stepByte (b : UInt32) : UInt32 :=
  step (step (step (step (step (step (step (step b)))))))

def table : Array UInt32 :=
  (Array.range 256).map fun n => stepByte (UInt32.ofNat n)

/-- Takes one byte into the remainder. -/
def update (r : UInt32) (b : UInt8) : UInt32 :=
  table.getD ((r ^^^ b.toUInt32) &&& 0xFF).toNat 0 ^^^ (r >>> 8)

def ofBytes (data : ByteArray) : UInt32 :=
  data.foldl update 0xFFFFFFFF ^^^ 0xFFFFFFFF

end ClassXref.Crc32
