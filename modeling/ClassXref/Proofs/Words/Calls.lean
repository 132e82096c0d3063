import ClassXref.Proofs.Bytes.Calls
import ClassXref.Proofs.Words.Machine

/-! Calls on a cursor whose place is a machine word. The main statement says what every call does after any
calls on a buffer: the cursor is in the buffer, reads give what the bytes there stand for, and a machine with
words of 64 bits does the same without a trap, also where the argument is as large as a word can be. -/
namespace ClassXref

/-! ### Calls on a machine -/

def Read.onWords : (r : Read) → Machine Cursor r.Value
  | u8 => Machine.u8
  | u16 => Machine.u16
  | u32 => Machine.u32
  | i32 => Medium.i32
  | u64 => Medium.u64
  | take n => Machine.take n
  | utf8 n => Medium.utf8 n
  | skip n => do let _ ← Machine.take n

def Call.onWords : (call : Call) → Machine Cursor call.Value
  | read r => r.onWords
  | seek place => Machine.seek place

theorem Scan.skip_eq_take (n : Nat) : Scan.skip n = (do let _ ← Scan.take n) := by
  funext c
  rcases Nat.lt_or_ge c.remaining n with hshort | hlong
  · rw [Stateful.bind_error (take_eq_error hshort)]
    exact skip_eq_error hshort
  · rw [Stateful.bind_ok (take_eq_ok hlong)]
    exact skip_eq_ok hlong

namespace Machine

theorem agrees_read (r : Read) : Agrees r.onWords r.scan := by
  cases r with
  | u8 => exact agrees_u8
  | u16 => exact agrees_u16
  | u32 => exact agrees_u32
  | i32 => exact simulation.i32
  | u64 => exact simulation.u64
  | take n => exact agrees_take n
  | utf8 n => exact simulation.utf8 n
  | skip n =>
    have hskip : (Read.skip n).scan = (do let _ ← Scan.take n) := Scan.skip_eq_take n
    rw [hskip]
    exact agrees_bind (agrees_take n) fun _ => agrees_pure ()

theorem agrees_call (call : Call) : Agrees call.onWords call.scan := by
  cases call with
  | read r => exact agrees_read r
  | seek place => exact agrees_seek place

end Machine

/-! ### What calls do -/

namespace Call

variable {data : ByteArray} {c : Cursor}

/-- Where a cursor stands on a buffer, and what each call does from there. -/
structure Regular (data : ByteArray) (c : Cursor) : Prop where
  data_eq : c.data = data
  position_le : c.position ≤ data.size
  position_add_remaining : c.position + c.remaining = data.size
  /-- A read gives what the bytes at the old position stand for, and goes on right behind them. -/
  read_iff (r : Read) (a : r.Value) (d : Cursor) : r.scan c = .ok a d ↔
    r.width ≤ c.remaining ∧ r.Denotes (c.rest.take r.width) a ∧ d = ⟨data, c.position + r.width⟩
  /-- Any read but that of a text succeeds just if there are enough bytes. -/
  succeeds_iff (r : Read) (htext : ∀ n, r ≠ .utf8 n) :
    (∃ a d, r.scan c = .ok a d) ↔ r.width ≤ c.remaining
  seek_iff (place : Nat) (d : Cursor) :
    Scan.seek place c = .ok () d ↔ place ≤ data.size ∧ d = ⟨data, place⟩
  /-- On words of 64 bits every call ends in the same way at the same place. -/
  words (small : data.size < 2 ^ 64) (call : Call) :
    ∃ (verdict : Except Fault call.Value) (d : Cursor),
      call.scan c = (liftM verdict : Scan call.Value) d ∧
        call.onWords c = (liftM verdict : Machine Cursor call.Value) d

theorem regular_of_inside (h : Inside data c) : Regular data c := by
  obtain ⟨rfl, hplace⟩ := h
  exact {
    data_eq := rfl
    position_le := hplace
    position_add_remaining := Nat.add_sub_cancel' hplace
    read_iff := fun r a d => Read.scan_eq_ok_iff
    succeeds_iff := fun r htext => Read.exists_scan_eq_ok_iff htext
    seek_iff := fun place d => seek_eq_ok_iff
    words := by
      intro small call
      obtain ⟨verdict, stop, -, hscan, hmachine⟩ :=
        Machine.agrees_call call c.data c.position small hplace
      exact ⟨verdict, ⟨c.data, stop⟩, hscan, hmachine⟩ }

/-- After any calls on a buffer, some of which may have failed, the cursor is in the buffer and the bytes before
it and behind it make up the buffer. From there a number is read off the bytes that come next and passed over,
just if they are there; `seek` goes anywhere in the buffer and nowhere else; and no call needs a number that does
not fit in a word. -/
theorem regular_run (data : ByteArray) (calls : List Call) : Regular data (run calls { data }) :=
  regular_of_inside (inside_run_opened data calls)

end Call
end ClassXref
