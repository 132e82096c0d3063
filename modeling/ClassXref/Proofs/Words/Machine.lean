import Mathlib
import ClassXref.Proofs.Bytes.SelfDelimiting
import ClassXref.Proofs.ClassFile.Medium

/-! Reading with machine words. Offsets and lengths are unsigned words of 64 bits, numbers of slots of
16. Every sum, difference and product is formed in its width, every byte and slice is looked up within
its bounds, and what is not possible there is a trap. The main statement says that within a buffer of a
size that a word can hold, a machine reads as the plain cursor does, so nothing in it traps. -/
namespace ClassXref

/-- What a machine cannot do. -/
inductive Trap where
  /-- A number outside the range of its width. -/
  | overflow
  /-- A byte or slice outside a buffer. -/
  | range
  /-- A loop that makes no headway. -/
  | standstill
  deriving Repr, DecidableEq, Inhabited

/-- Why a computation on a machine ends early. -/
inductive Halt where
  | trap (cause : Trap)
  | fault (fault : Fault)
  deriving Repr, DecidableEq, Inhabited

/-- A computation on machine words. -/
abbrev Machine (σ : Type) := EStateM Halt σ

instance {σ : Type} : MonadLift (Except Fault) (Machine σ) where
  monadLift v := match v with
    | .ok a => pure a
    | .error e => throw (.fault e)

namespace Machine

variable {σ α β : Type}

/-! ### Arithmetic -/

/-- A number as an unsigned word. -/
def unsigned (bits : Nat) (n : Int) : Machine σ Nat :=
  if 0 ≤ n ∧ n < 2 ^ bits then return n.toNat else throw (.trap .overflow)

/-- A number as a signed word in two's complement. -/
def signed (bits : Nat) (n : Int) : Machine σ Int :=
  if -2 ^ (bits - 1) ≤ n ∧ n < 2 ^ (bits - 1) then return n else throw (.trap .overflow)

def byteAt (bytes : List UInt8) (index : Nat) : Machine σ UInt8 :=
  match bytes[index]? with
  | some byte => return byte
  | none => throw (.trap .range)

/-! ### The cursor -/

def position : Machine Cursor Nat := return (← get).position

def remaining : Machine Cursor Nat := do
  let c ← get
  unsigned 64 (c.data.size - c.position)

def slice (start stop : Nat) : Machine Cursor (List UInt8) := do
  let c ← get
  if start ≤ stop ∧ stop ≤ c.data.size then return (c.data.extract start stop).data.toList
  else throw (.trap .range)

/-- Fails for want of bytes. -/
def truncated (needed : Nat) : Machine Cursor α := do
  let start ← position
  let left ← remaining
  throw (.fault (.truncated start needed left))

def take (count : Nat) : Machine Cursor (List UInt8) := do
  let left ← remaining
  if left < count then truncated count
  else do
    let start ← position
    let bytes ← slice start (← unsigned 64 (start + count))
    let next ← unsigned 64 (start + count)
    modify fun c => { c with position := next }
    return bytes

def seek (place : Nat) : Machine Cursor Unit := do
  let c ← get
  if c.data.size < place then truncated (place - c.position)
  else set { c with position := place }

def u8 : Machine Cursor UInt8 := do
  let bytes ← take 1
  byteAt bytes 0

def u16 : Machine Cursor UInt16 := do
  let bytes ← take 2
  return UInt16.ofNat (BigEndian.value [← byteAt bytes 0, ← byteAt bytes 1])

def u32 : Machine Cursor UInt32 := do
  let bytes ← take 4
  return UInt32.ofNat (BigEndian.value
    [← byteAt bytes 0, ← byteAt bytes 1, ← byteAt bytes 2, ← byteAt bytes 3])

/-- The end of an attribute of this length. -/
def enter (length : UInt32) : Machine Cursor Nat := do
  let left ← remaining
  if left < length.toNat then truncated length.toNat
  else do
    let start ← position
    unsigned 64 (start + length.toNat)

def leave (name : String) (length : UInt32) (stop : Nat) : Machine Cursor Unit := do
  let reached ← position
  if stop < reached then throw (.fault (.malformed (.attributeOverrun name length)))
  else seek stop

instance : Medium (Machine Cursor) where
  fail e := throw (.fault e)
  u8 := u8
  u16 := u16
  u32 := u32
  take := take
  position := position
  remaining := remaining
  slot index := do let _ ← unsigned 16 index
  enter := enter
  leave := leave

/-- Runs a computation over a whole buffer from its start. -/
def run (x : Machine Cursor α) (data : ByteArray) : Except Halt α :=
  match x { data } with
  | .ok a _ => .ok a
  | .error e _ => .error e

/-- Reads a class file on a machine. -/
def parse (data : ByteArray) : Except Halt ClassFile :=
  run Medium.classFile data

/-! ### What fits -/

theorem unsigned_eq {bits n : Nat} (h : n < 2 ^ bits) :
    (unsigned bits (n : Int) : Machine σ Nat) = pure n := by
  have hfits : (n : Int) < 2 ^ bits := by exact_mod_cast h
  rw [unsigned, if_pos ⟨Int.natCast_nonneg n, hfits⟩, Int.toNat_natCast]

theorem unsigned_add {bits a b : Nat} (h : a + b < 2 ^ bits) :
    (unsigned bits (a + b) : Machine σ Nat) = pure (a + b) := by
  rw [← Int.natCast_add]
  exact unsigned_eq h

theorem unsigned_sub {bits a b : Nat} (hle : b ≤ a) (h : a < 2 ^ bits) :
    (unsigned bits (a - b) : Machine σ Nat) = pure (a - b) := by
  rw [← Int.natCast_sub hle]
  exact unsigned_eq (Nat.lt_of_le_of_lt (Nat.sub_le a b) h)

theorem position_eq {data : ByteArray} {start : Nat} :
    position ⟨data, start⟩ = .ok start ⟨data, start⟩ := rfl

section Within

variable {data : ByteArray} {start : Nat} (small : data.size < 2 ^ 64) (inside : start ≤ data.size)
include small inside

theorem remaining_eq : remaining ⟨data, start⟩ = .ok (data.size - start) ⟨data, start⟩ := by
  have hsub := unsigned_sub (σ := Cursor) inside small
  exact congrFun hsub ⟨data, start⟩

theorem truncated_eq (needed : Nat) :
    (truncated needed : Machine Cursor α) ⟨data, start⟩ =
      .error (.fault (.truncated start needed (data.size - start))) ⟨data, start⟩ := by
  rw [truncated, Stateful.bind_ok position_eq, Stateful.bind_ok (remaining_eq small inside)]
  rfl

theorem take_of_le {count : Nat} (h : count ≤ data.size - start) :
    take count ⟨data, start⟩ =
      .ok (Cursor.peek ⟨data, start⟩ count) ⟨data, start + count⟩ := by
  have hnext : (unsigned 64 (start + count) : Machine Cursor Nat) = pure (start + count) :=
    unsigned_add (by omega)
  have hslice : slice start (start + count) ⟨data, start⟩ =
      .ok (Cursor.peek ⟨data, start⟩ count) ⟨data, start⟩ := by
    have hrange : start ≤ start + count ∧ start + count ≤ data.size := by omega
    simp only [slice, bind, EStateM.bind, get, getThe, MonadStateOf.get, EStateM.get, if_pos hrange]
    rfl
  rw [take, Stateful.bind_ok (remaining_eq small inside), if_neg (by omega),
    Stateful.bind_ok position_eq, hnext, pure_bind, Stateful.bind_ok hslice, pure_bind]
  rfl

theorem take_of_lt {count : Nat} (h : data.size - start < count) :
    take count ⟨data, start⟩ =
      .error (.fault (.truncated start count (data.size - start))) ⟨data, start⟩ := by
  rw [take, Stateful.bind_ok (remaining_eq small inside), if_pos h]
  exact truncated_eq small inside count

end Within

/-! ### Agreement with the plain cursor -/

/-- From every place within a buffer of a size that a word can hold, the machine ends as the plain
cursor does, at the same place within the buffer. -/
def Agrees (x : Machine Cursor α) (s : Scan α) : Prop :=
  ∀ (data : ByteArray) (start : Nat), data.size < 2 ^ 64 → start ≤ data.size →
    ∃ (verdict : Except Fault α) (stop : Nat), stop ≤ data.size ∧
      s ⟨data, start⟩ = (liftM verdict : Scan α) ⟨data, stop⟩ ∧
      x ⟨data, start⟩ = (liftM verdict : Machine Cursor α) ⟨data, stop⟩

theorem agrees_pure (a : α) : Agrees (pure a) (pure a) := by
  intro data start _ inside
  exact ⟨.ok a, start, inside, rfl, rfl⟩

theorem agrees_fail (e : Fault) : Agrees (throw (.fault e) : Machine Cursor α) (throw e) := by
  intro data start _ inside
  exact ⟨.error e, start, inside, rfl, rfl⟩

theorem agrees_bind {x : Machine Cursor α} {s : Scan α} {f : α → Machine Cursor β} {g : α → Scan β}
    (h : Agrees x s) (h' : ∀ a, Agrees (f a) (g a)) : Agrees (x >>= f) (s >>= g) := by
  intro data start small inside
  obtain ⟨verdict, middle, hmiddle, hscan, hmachine⟩ := h data start small inside
  cases verdict with
  | error e =>
    exact ⟨.error e, middle, hmiddle, Stateful.bind_error hscan, Stateful.bind_error hmachine⟩
  | ok a =>
    rw [Stateful.bind_ok hscan, Stateful.bind_ok hmachine]
    exact h' a data middle small hmiddle

theorem agrees_take (count : Nat) : Agrees (take count) (Scan.take count) := by
  intro data start small inside
  by_cases hlong : count ≤ data.size - start
  · have hstop : start + count ≤ data.size := by omega
    exact ⟨.ok (Cursor.peek ⟨data, start⟩ count), start + count, hstop, Scan.take_eq_ok hlong,
      take_of_le small inside hlong⟩
  · have hshort : data.size - start < count := Nat.not_le.mp hlong
    exact ⟨.error (.truncated start count (data.size - start)), start, inside,
      Scan.take_eq_error hshort, take_of_lt small inside hshort⟩

/-- A number is formed from as many bytes as have been taken, so each of them is there. -/
theorem agrees_numeral {count : Nat} {f : List UInt8 → Machine Cursor α} {g : List UInt8 → α}
    (h : ∀ bytes, bytes.length = count → f bytes = pure (g bytes)) :
    Agrees (take count >>= f) (do return g (← Scan.take count)) := by
  intro data start small inside
  by_cases hlong : count ≤ data.size - start
  · have hstop : start + count ≤ data.size := by omega
    have hlength : (Cursor.peek ⟨data, start⟩ count).length = count := by
      rw [Cursor.peek_eq_take_rest, List.length_take, Cursor.length_rest]
      exact Nat.min_eq_left hlong
    refine ⟨.ok (g (Cursor.peek ⟨data, start⟩ count)), start + count, hstop, ?_, ?_⟩
    · rw [Stateful.bind_ok (Scan.take_eq_ok hlong)]
      rfl
    · rw [Stateful.bind_ok (take_of_le small inside hlong), h _ hlength]
      rfl
  · have hshort : data.size - start < count := Nat.not_le.mp hlong
    exact ⟨.error (.truncated start count (data.size - start)), start, inside,
      Stateful.bind_error (Scan.take_eq_error hshort),
      Stateful.bind_error (take_of_lt small inside hshort)⟩

theorem agrees_u8 : Agrees u8 Scan.u8 := by
  apply agrees_numeral
  intro bytes hlength
  obtain ⟨b, rfl⟩ := List.length_eq_one_iff.mp hlength
  have hb : UInt8.ofNat (BigEndian.value [b]) = b := by simp [BigEndian.value]
  rw [hb]
  rfl

theorem agrees_u16 : Agrees u16 Scan.u16 := by
  apply agrees_numeral
  intro bytes hlength
  match bytes, hlength with
  | [b₀, b₁], _ => rfl

theorem agrees_u32 : Agrees u32 Scan.u32 := by
  apply agrees_numeral
  intro bytes hlength
  match bytes, hlength with
  | [b₀, b₁, b₂, b₃], _ => rfl

theorem agrees_position : Agrees position Scan.position := by
  intro data start _ inside
  exact ⟨.ok start, start, inside, rfl, rfl⟩

theorem agrees_remaining : Agrees remaining Scan.remaining := by
  intro data start small inside
  exact ⟨.ok (data.size - start), start, inside, rfl, remaining_eq small inside⟩

/-- The end of an attribute that fits in the buffer fits in a word. -/
theorem agrees_enter (length : UInt32) : Agrees (enter length) (Scan.enter length) := by
  intro data start small inside
  by_cases hshort : data.size - start < length.toNat
  · refine ⟨.error (.truncated start length.toNat (data.size - start)), start, inside,
      Scan.enter_of_lt hshort, ?_⟩
    rw [enter, Stateful.bind_ok (remaining_eq small inside), if_pos hshort]
    exact truncated_eq small inside length.toNat
  · have hend : (unsigned 64 (start + length.toNat) : Machine Cursor Nat) =
        pure (start + length.toNat) := unsigned_add (by omega)
    refine ⟨.ok (start + length.toNat), start, inside, Scan.enter_of_not_lt hshort, ?_⟩
    rw [enter, Stateful.bind_ok (remaining_eq small inside), if_neg hshort,
      Stateful.bind_ok position_eq, hend]
    rfl

theorem agrees_seek (place : Nat) : Agrees (seek place) (Scan.seek place) := by
  intro data start small inside
  have hget : (get : Machine Cursor Cursor) ⟨data, start⟩ = .ok ⟨data, start⟩ ⟨data, start⟩ := rfl
  by_cases hplace : place ≤ data.size
  · refine ⟨.ok (), place, hplace, Scan.seek_eq_ok hplace, ?_⟩
    rw [seek, Stateful.bind_ok hget, if_neg (Nat.not_lt.mpr hplace)]
    rfl
  · refine ⟨.error (.truncated start (place - start) (data.size - start)), start, inside, ?_, ?_⟩
    · exact Scan.seek_eq_error (Nat.not_le.mp hplace)
    · rw [seek, Stateful.bind_ok hget, if_pos (Nat.not_le.mp hplace)]
      exact truncated_eq small inside (place - start)

theorem agrees_leave (name : String) (length : UInt32) (stop : Nat) :
    Agrees (leave name length stop) (Scan.leave name length stop) := by
  refine agrees_bind agrees_position fun reached => ?_
  exact Simulation.branch (agrees_fail _) (agrees_seek stop)

theorem simulation : Simulation (Machine Cursor) Agrees where
  pure := agrees_pure
  bind := agrees_bind
  fail _ := agrees_fail _
  u8 := agrees_u8
  u16 := agrees_u16
  u32 := agrees_u32
  take := agrees_take
  position := agrees_position
  remaining := agrees_remaining
  slot := by
    intro index hindex data start _ inside
    have hfits : (unsigned 16 index : Machine Cursor Nat) ⟨data, start⟩ = .ok index ⟨data, start⟩ :=
      congrFun (unsigned_eq hindex) _
    exact ⟨.ok (), start, inside, rfl, Stateful.bind_ok hfits⟩
  enter := agrees_enter
  leave := agrees_leave

theorem run_eq {x : Machine Cursor α} {s : Scan α} {data : ByteArray} (h : Agrees x s)
    (small : data.size < 2 ^ 64) : run x data = (Scan.run s data).mapError Halt.fault := by
  obtain ⟨verdict, stop, -, hscan, hmachine⟩ := h data 0 small (Nat.zero_le data.size)
  rw [run, Scan.run, EStateM.run, hscan, hmachine]
  cases verdict <;> rfl

/-- A class file in a buffer that a machine can hold is read there as it is anywhere. -/
theorem parse_eq {data : ByteArray} (small : data.size < 2 ^ 64) :
    parse data = (ClassFile.parse data).mapError Halt.fault :=
  run_eq simulation.classFile small

end Machine
end ClassXref
