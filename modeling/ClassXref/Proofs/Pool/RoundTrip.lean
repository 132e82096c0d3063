import ClassXref.Pool.Reader
import ClassXref.Pool.Writer
import ClassXref.Proofs.Bytes.Reads
import ClassXref.Proofs.Pool.Resolve

/-! Reading back a constant pool that `Pool.encode` wrote: every constant from its tag and body, and
all of them into the slots that they take, wide constants included. Each constant is then found under
the index that its place among the others gives it. -/
namespace ClassXref

open BigEndian (digits)
open Scan (Reads reads_bind reads_bind_pure reads_pure reads_u8 reads_u16)

namespace Constant

/-- A text must fit behind a length of two bytes; nothing else can be too long. -/
def Fits : Constant → Prop
  | utf8 text => (ModifiedUtf8.encode text.toList).length < 65536
  | _ => True

instance : (c : Constant) → Decidable c.Fits
  | utf8 text => inferInstanceAs (Decidable ((ModifiedUtf8.encode text.toList).length < 65536))
  | integer _ | float _ | long _ | double _ | classRef _ | string _ | fieldRef _ _ | methodRef _ _
  | interfaceMethodRef _ _ | nameAndType _ _ | methodHandle _ _ | methodType _ | dynamic _ _
  | invokeDynamic _ _ | module _ | package _ => inferInstanceAs (Decidable True)

theorem reads_index {build : UInt16 → Constant} (index : UInt16) :
    Reads (do return build (← Scan.u16)) (digits 2 index.toNat) (build index) :=
  reads_bind_pure (reads_u16 index) (reads_pure _)

theorem reads_pair {build : UInt16 → UInt16 → Constant} (first second : UInt16) :
    Reads (do return build (← Scan.u16) (← Scan.u16)) (encodePair first second)
      (build first second) :=
  reads_bind (reads_u16 first) (reads_index second)

theorem reads_text {text : String} (h : (utf8 text).Fits) :
    Reads (readBody .utf8) (encodeText text) (utf8 text) := by
  refine reads_bind (Scan.reads_u16_ofNat h) (reads_bind_pure ?_ (reads_pure _))
  rw [UInt16.toNat_ofNat_of_lt' h]
  exact Scan.reads_utf8 text

/-- A body is read back by the kind that stands before it. -/
theorem reads_body {c : Constant} (h : c.Fits) : Reads (readBody c.kind) c.encodeBody c := by
  cases c with
  | utf8 text => exact reads_text h
  | integer value => exact reads_bind_pure (Scan.reads_i32 value) (reads_pure _)
  | float bits => exact reads_bind_pure (Scan.reads_u32 bits) (reads_pure _)
  | long value =>
    refine reads_bind_pure (Scan.reads_u64 value.toUInt64) ?_
    rw [Int64.toInt64_toUInt64]
    exact reads_pure _
  | double bits => exact reads_bind_pure (Scan.reads_u64 bits) (reads_pure _)
  | classRef index | string index | methodType index | module index | package index =>
    exact reads_index index
  | fieldRef first second | methodRef first second | interfaceMethodRef first second
  | nameAndType first second | dynamic first second | invokeDynamic first second =>
    exact reads_pair first second
  | methodHandle kind target => exact reads_bind (reads_u8 kind) (reads_index target)

theorem reads_constant {c : Constant} (slot : Nat) (h : c.Fits) :
    Reads (Constant.read slot) c.encode c := by
  refine reads_bind (reads_u8 c.kind.tag) ?_
  rw [ConstantKind.ofTag?_tag]
  exact reads_body h

theorem slots_of_isWide {c : Constant} (h : c.isWide = true) : c.slots = [some c, none] := by
  rw [slots, if_pos h]

theorem slots_of_not_isWide {c : Constant} (h : ¬ c.isWide = true) : c.slots = [some c] := by
  rw [slots, if_neg h]

end Constant

namespace Pool

/-- The loop fills the slots of the constants that are left, and needs no byte behind them. -/
theorem reads_slots {count : Nat} {constants : List Constant} (slots : Array (Option Constant))
    (hcount : slots.size + (constants.flatMap Constant.slots).length = count)
    (hfits : ∀ c ∈ constants, c.Fits) :
    Reads (readSlots count slots) (Pool.encode constants)
      (slots ++ (constants.flatMap Constant.slots).toArray) := by
  induction constants generalizing slots with
  | nil =>
    have hfull : ¬ slots.size < count := by simpa using Nat.le_of_eq hcount.symm
    rw [readSlots, if_neg hfull]
    simpa [Pool.encode] using reads_pure slots
  | cons c constants ih =>
    have hc : Reads (Constant.read slots.size) c.encode c :=
      Constant.reads_constant slots.size (hfits c List.mem_cons_self)
    have hrest : ∀ d ∈ constants, d.Fits := fun d hd => hfits d (List.mem_cons_of_mem c hd)
    rw [List.flatMap_cons, List.length_append] at hcount
    have hbytes : Pool.encode (c :: constants) = c.encode ++ Pool.encode constants := by
      simp [Pool.encode]
    rw [hbytes, List.flatMap_cons, readSlots]
    by_cases hwide : c.isWide = true
    · rw [Constant.slots_of_isWide hwide] at hcount ⊢
      simp only [List.length_cons, List.length_nil] at hcount
      have htail := ih ((slots.push (some c)).push none) (by simp only [Array.size_push]; omega) hrest
      rw [if_pos (by omega)]
      refine reads_bind hc ?_
      rw [if_pos hwide, if_pos (by omega)]
      simpa using htail
    · rw [Constant.slots_of_not_isWide hwide] at hcount ⊢
      simp only [List.length_cons, List.length_nil] at hcount
      have htail := ih (slots.push (some c)) (by simp only [Array.size_push]; omega) hrest
      rw [if_pos (by omega)]
      refine reads_bind hc ?_
      rw [if_neg hwide]
      simpa using htail

theorem size_ofConstants (constants : List Constant) :
    (Pool.ofConstants constants).size = (constants.flatMap Constant.slots).length + 1 := by
  simp [Pool.ofConstants, Pool.size]

/-- A pool of at most 65535 slots is read back from its constants. -/
theorem reads_pool {constants : List Constant} (hsize : (Pool.ofConstants constants).size < 65536)
    (hfits : ∀ c ∈ constants, c.Fits) :
    Reads (Pool.read (UInt16.ofNat (Pool.ofConstants constants).size)) (Pool.encode constants)
      (Pool.ofConstants constants) := by
  have hcount : (UInt16.ofNat (Pool.ofConstants constants).size).toNat =
      (Pool.ofConstants constants).size :=
    UInt16.toNat_ofNat_of_lt' hsize
  have hpos : UInt16.ofNat (Pool.ofConstants constants).size ≠ 0 := by
    intro hzero
    rw [hzero, size_ofConstants] at hcount
    simp at hcount
  have hslots : Reads (readSlots (Pool.ofConstants constants).size #[none])
      (Pool.encode constants) (#[none] ++ (constants.flatMap Constant.slots).toArray) :=
    reads_slots #[none] (by rw [size_ofConstants, Nat.add_comm]; rfl) hfits
  rw [Pool.read, if_neg hpos, hcount]
  refine reads_bind_pure hslots ?_
  have hpool : (⟨#[none] ++ (constants.flatMap Constant.slots).toArray⟩ : Pool) =
      Pool.ofConstants constants := by
    simp [Pool.ofConstants]
  rw [hpool]
  exact reads_pure _

/-! ### Places in the pool -/

/-- One slot a constant, and a second one for each that is wide. -/
theorem length_flatMap_slots (constants : List Constant) :
    (constants.flatMap Constant.slots).length =
      constants.length + constants.countP Constant.isWide := by
  induction constants with
  | nil => rfl
  | cons c constants ih =>
    rw [List.flatMap_cons, List.length_append, ih, List.length_cons, List.countP_cons, Constant.slots]
    split <;> simp <;> omega

/-- The first slot behind these constants: one more than the number of their slots. -/
def place (before : List Constant) : Nat :=
  before.length + before.countP Constant.isWide + 1

theorem size_ofConstants_eq_place (constants : List Constant) :
    (ofConstants constants).size = place constants := by
  rw [size_ofConstants, length_flatMap_slots, place]

theorem slots_ofConstants (constants : List Constant) :
    (ofConstants constants).slots.toList = none :: constants.flatMap Constant.slots := rfl

/-- Behind the slots of the constants before it come the slots of a constant. -/
theorem getElem?_slots_place (before : List Constant) (c : Constant) (after : List Constant)
    (k : Nat) (hk : k < c.slots.length) :
    (ofConstants (before ++ c :: after)).slots[place before + k]? = c.slots[k]? := by
  have hplace : place before + k = (before.flatMap Constant.slots).length + k + 1 := by
    rw [length_flatMap_slots, place]
    omega
  rw [← Array.getElem?_toList, slots_ofConstants, hplace, List.getElem?_cons_succ,
    List.flatMap_append, List.getElem?_append_right (Nat.le_add_right _ _), Nat.add_sub_cancel_left,
    List.flatMap_cons, List.getElem?_append_left hk]

/-- The index of a constant among others finds it. -/
theorem holds_place {before after : List Constant} {c : Constant}
    (hsize : (ofConstants (before ++ c :: after)).size < 65536) :
    (ofConstants (before ++ c :: after)).Holds (UInt16.ofNat (place before)) c := by
  have hplace : place before < 65536 := by
    rw [size_ofConstants_eq_place, place, List.length_append, List.countP_append] at hsize
    rw [place]
    omega
  have hfirst : c.slots[0]? = some (some c) := by
    unfold Constant.slots
    split <;> rfl
  have hpos : 0 < c.slots.length := by
    unfold Constant.slots
    split <;> exact Nat.succ_pos _
  rw [Holds, UInt16.toNat_ofNat_of_lt' hplace, ← hfirst]
  exact getElem?_slots_place before c after 0 hpos

/-- No index finds anything in the second slot of a wide constant. -/
theorem constant_behind_wide {before after : List Constant} {c : Constant}
    (hsize : (ofConstants (before ++ c :: after)).size < 65536) (hwide : c.isWide = true) :
    (ofConstants (before ++ c :: after)).constant (UInt16.ofNat (place before + 1)) =
      .error (.badIndex (UInt16.ofNat (place before + 1))) := by
  have hplace : place before + 1 < 65536 := by
    rw [size_ofConstants_eq_place, place, List.length_append, List.countP_append,
      List.countP_cons_of_pos hwide] at hsize
    rw [place]
    omega
  have hslots := Constant.slots_of_isWide hwide
  have hslot : (ofConstants (before ++ c :: after)).slots[place before + 1]? = some none := by
    rw [getElem?_slots_place before c after 1 (hslots ▸ Nat.one_lt_two), hslots]
    rfl
  rw [constant, UInt16.toNat_ofNat_of_lt' hplace, hslot]

/-- Wherever the constants of a pool stand in a buffer, they are read back with a count that is one more
than the number of their slots, and the reader stops at the first byte behind them. Slot zero is empty
and the slots of the constants follow in order, so that the index of a constant counts the slots of those
before it, and no index finds anything behind a wide one. -/
theorem read_encode {constants : List Constant} (hcount : place constants ≤ 65535)
    (hfits : ∀ c ∈ constants, c.Fits) (front tail : List UInt8) :
    let buffer := (front ++ (Pool.encode constants ++ tail)).toByteArray
    ∃ pool d, Pool.read (UInt16.ofNat (place constants)) ⟨buffer, front.length⟩ = .ok pool d ∧
      d = ⟨buffer, front.length + (Pool.encode constants).length⟩ ∧ d.rest = tail ∧
      pool.slots.toList = none :: constants.flatMap Constant.slots ∧
      ∀ before c after, constants = before ++ c :: after →
        pool.constant (UInt16.ofNat (place before)) = .ok c ∧
          (c.isWide = true → pool.constant (UInt16.ofNat (place before + 1)) =
            .error (.badIndex (UInt16.ofNat (place before + 1)))) := by
  intro buffer
  have hsize := size_ofConstants_eq_place constants
  have hlimit : (ofConstants constants).size < 65536 := by omega
  have hrest : Cursor.rest ⟨buffer, front.length⟩ = Pool.encode constants ++ tail := by
    simp [Cursor.rest, buffer]
  refine ⟨ofConstants constants, _, ?_, rfl, ?_, slots_ofConstants constants, ?_⟩
  · rw [← hsize]
    exact reads_pool hlimit hfits _ tail hrest
  · exact Scan.rest_advance_append hrest
  · rintro before c after rfl
    exact ⟨constant_eq_ok_iff.mpr (holds_place hlimit), constant_behind_wide hlimit⟩

/-- One constant of each kind, with wide ones side by side and in the last slots, a text with a zero
and a supplementary character, and a `NaN` that carries bits of its own. -/
def oneOfEach : List Constant :=
  [.utf8 "a\x00😀", .long Int64.minValue, .double 0x7ff8000000000001, .integer (-1),
   .float 0x7fc00001, .classRef 1, .string 1, .fieldRef 8 12, .methodRef 8 12,
   .interfaceMethodRef 8 12, .nameAndType 1 1, .methodHandle 9 65535, .methodType 0, .dynamic 0 13,
   .invokeDynamic 0 13, .module 1, .package 1, .long 42]

theorem read_encode_oneOfEach : place oneOfEach ≤ 65535 ∧ (∀ c ∈ oneOfEach, c.Fits) ∧
    let buffer := ([0xff] ++ (Pool.encode oneOfEach ++ [5, 0])).toByteArray
    ∃ pool d, Pool.read (UInt16.ofNat (place oneOfEach)) ⟨buffer, 1⟩ = .ok pool d ∧
      d = ⟨buffer, 1 + (Pool.encode oneOfEach).length⟩ ∧ d.rest = [5, 0] ∧
      pool.slots.toList = none :: oneOfEach.flatMap Constant.slots ∧
      ∀ before c after, oneOfEach = before ++ c :: after →
        pool.constant (UInt16.ofNat (place before)) = .ok c ∧
          (c.isWide = true → pool.constant (UInt16.ofNat (place before + 1)) =
            .error (.badIndex (UInt16.ofNat (place before + 1)))) :=
  have hcount : place oneOfEach ≤ 65535 := by decide
  have hfits : ∀ c ∈ oneOfEach, c.Fits := by decide
  ⟨hcount, hfits, read_encode hcount hfits [0xff] [5, 0]⟩

end Pool
end ClassXref
