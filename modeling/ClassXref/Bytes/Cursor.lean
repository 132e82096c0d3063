import ClassXref.Bytes.BigEndian
import ClassXref.Fault
import ClassXref.Text.ModifiedUtf8

/-! A position in a byte buffer and the reads that move it. Every read is built from `skip`, the one
place that compares a width with the bytes that are left; `rest` is the view under which a read is
"the next bytes". A `Scan` that fails leaves the cursor where its last successful read put it. -/
namespace ClassXref

structure Cursor where
  data : ByteArray
  position : Nat := 0
  deriving Inhabited

namespace Cursor

/-- How many bytes lie after the position. -/
def remaining (c : Cursor) : Nat :=
  c.data.size - c.position

/-- The bytes after the position. -/
def rest (c : Cursor) : List UInt8 :=
  c.data.data.toList.drop c.position

/-- The next `n` bytes, fewer at the end of the buffer. -/
def peek (c : Cursor) (n : Nat) : List UInt8 :=
  (c.data.extract c.position (c.position + n)).data.toList

/-- The cursor `n` bytes further on. -/
def advance (c : Cursor) (n : Nat) : Cursor :=
  { c with position := c.position + n }

@[simp] theorem data_advance (c : Cursor) (n : Nat) : (c.advance n).data = c.data := rfl

@[simp] theorem position_advance (c : Cursor) (n : Nat) :
    (c.advance n).position = c.position + n := rfl

@[simp] theorem length_rest (c : Cursor) : c.rest.length = c.remaining := by
  simp [rest, remaining]

@[simp] theorem rest_advance (c : Cursor) (n : Nat) : (c.advance n).rest = c.rest.drop n := by
  simp [rest, advance]

theorem peek_eq_take_rest (c : Cursor) (n : Nat) : c.peek n = c.rest.take n := by
  simp [peek, rest]

end Cursor

/-- A computation that reads from a cursor and may stop with a fault. -/
abbrev Scan := EStateM Fault Cursor

namespace Scan

def position : Scan Nat := return (← get).position

def remaining : Scan Nat := return (← get).remaining

/-- Passes over `n` bytes, or fails in place if fewer are left. -/
def skip (n : Nat) : Scan Unit := fun c =>
  if n ≤ c.remaining then .ok () (c.advance n)
  else .error (.truncated c.position n c.remaining) c

/-- Moves to an absolute position, which may be the end of the buffer but not beyond. -/
def seek (p : Nat) : Scan Unit := fun c =>
  if p ≤ c.data.size then .ok () { c with position := p }
  else .error (.truncated c.position (p - c.position) c.remaining) c

/-- The next `n` bytes. -/
def take (n : Nat) : Scan (List UInt8) := do
  let c ← get
  skip n
  return c.peek n

def u8 : Scan UInt8 := return UInt8.ofNat (BigEndian.value (← take 1))

def u16 : Scan UInt16 := return UInt16.ofNat (BigEndian.value (← take 2))

def u32 : Scan UInt32 := return UInt32.ofNat (BigEndian.value (← take 4))

/-- Four bytes in two's complement. -/
def i32 : Scan Int32 := return (← u32).toInt32

/-- Eight bytes, read as two halves: when only the second half is missing, the first has been read. -/
def u64 : Scan UInt64 := do
  let high ← u32
  let low ← u32
  return UInt64.ofNat (high.toNat * 0x100000000 + low.toNat)

/-- A text of `n` bytes in modified UTF-8. The bytes are consumed also when they are no such text. -/
def utf8 (n : Nat) : Scan String := do
  let offset ← position
  match ModifiedUtf8.decode? (← take n) with
  | some text => return text
  | none => throw (.malformed (.invalidUtf8 offset))

/-- Runs a scan `n` times and collects the results in order. -/
def times (n : Nat) (scan : Scan α) : Scan (List α) :=
  go n []
where
  go : Nat → List α → Scan (List α)
    | 0, found => return found.reverse
    | n + 1, found => do go n ((← scan) :: found)

/-- Runs a scan `n` times, each time from the value that the last one left. -/
def iterate (n : Nat) (step : σ → Scan σ) (start : σ) : Scan σ :=
  match n with
  | 0 => return start
  | n + 1 => do iterate n step (← step start)

/-- Runs a scan over a whole buffer from its start. -/
def run (scan : Scan α) (data : ByteArray) : Except Fault α :=
  match EStateM.run scan { data } with
  | .ok a _ => .ok a
  | .error e _ => .error e

end Scan
end ClassXref
