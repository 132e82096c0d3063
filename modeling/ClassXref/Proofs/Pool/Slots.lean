import ClassXref.Proofs.Bytes.SelfDelimiting
import ClassXref.Proofs.Pool.Chain

/-! The slots of a pool while it is read. A turn of the reader fills the slots of one constant, or stops: with
the fault of the constant's bytes, with an unknown tag, or with a wide constant that has no room for its second
slot. So a reading is a run of constants and an ending, and the slot that an ending speaks of is the place behind
the constants of the run, which counts the second slots of wide ones. A pool that was read has a slot for every
number below the count, and the empty ones are slot zero and those behind wide constants. -/
namespace ClassXref

/-! ### Faults of the bytes of a constant -/

/-- Faults of what follows a tag: too few bytes, or bytes that are no text. They name no slot. -/
def Fault.OfBody : Fault → Prop
  | truncated _ _ _ | malformed (.invalidUtf8 _) => True
  | _ => False

namespace Scan

variable {α β : Type} {scan : Scan α} {next : α → Scan β}

/-- Where the scan stops, it does so for want of bytes or of a text. -/
def FailsInBody (scan : Scan α) : Prop :=
  ∀ c e d, scan c = .error e d → e.OfBody

theorem failsInBody_pure (a : α) : FailsInBody (pure a) := by
  intro c e d h
  cases h

theorem failsInBody_bind (hscan : FailsInBody scan) (hnext : ∀ a, FailsInBody (next a)) :
    FailsInBody (scan >>= next) := by
  intro c e d h
  rcases Stateful.bind_eq_error_iff.mp h with hfirst | ⟨a, mid, -, hthen⟩
  · exact hscan c e d hfirst
  · exact hnext a mid e d hthen

theorem failsInBody_take (n : Nat) : FailsInBody (take n) := by
  intro c e d h
  rcases Nat.lt_or_ge c.remaining n with hshort | hlong
  · rw [take_eq_error hshort] at h
    cases h
    exact trivial
  · rw [take_eq_ok hlong] at h
    cases h

theorem failsInBody_u8 : FailsInBody u8 :=
  failsInBody_bind (failsInBody_take 1) fun _ => failsInBody_pure _

theorem failsInBody_u16 : FailsInBody u16 :=
  failsInBody_bind (failsInBody_take 2) fun _ => failsInBody_pure _

theorem failsInBody_u32 : FailsInBody u32 :=
  failsInBody_bind (failsInBody_take 4) fun _ => failsInBody_pure _

theorem failsInBody_i32 : FailsInBody i32 :=
  failsInBody_bind failsInBody_u32 fun _ => failsInBody_pure _

theorem failsInBody_u64 : FailsInBody u64 :=
  failsInBody_bind failsInBody_u32 fun _ => failsInBody_bind failsInBody_u32 fun _ => failsInBody_pure _

theorem failsInBody_utf8 (n : Nat) : FailsInBody (utf8 n) := by
  intro c e d h
  rw [utf8, position_bind] at h
  refine failsInBody_bind (failsInBody_take n) (fun bytes => ?_) c e d h
  split
  · exact failsInBody_pure _
  · intro c e d hthrow
    cases hthrow
    exact trivial

end Scan

namespace Constant

open Scan (FailsInBody failsInBody_bind failsInBody_pure failsInBody_u16)

theorem failsInBody_readBody (kind : ConstantKind) : FailsInBody (readBody kind) := by
  cases kind with
  | utf8 =>
    exact failsInBody_bind failsInBody_u16 fun _ =>
      failsInBody_bind (Scan.failsInBody_utf8 _) fun _ => failsInBody_pure _
  | integer => exact failsInBody_bind Scan.failsInBody_i32 fun _ => failsInBody_pure _
  | float => exact failsInBody_bind Scan.failsInBody_u32 fun _ => failsInBody_pure _
  | long | double => exact failsInBody_bind Scan.failsInBody_u64 fun _ => failsInBody_pure _
  | classRef | string | methodType | module | package =>
    exact failsInBody_bind failsInBody_u16 fun _ => failsInBody_pure _
  | fieldRef | methodRef | interfaceMethodRef | nameAndType | dynamic | invokeDynamic =>
    exact failsInBody_bind failsInBody_u16 fun _ =>
      failsInBody_bind failsInBody_u16 fun _ => failsInBody_pure _
  | methodHandle =>
    exact failsInBody_bind Scan.failsInBody_u8 fun _ =>
      failsInBody_bind failsInBody_u16 fun _ => failsInBody_pure _

variable {slot : Nat} {tag : UInt8} {c : Cursor}

/-- A tag of no kind is refused with the slot that was to be filled. -/
theorem read_of_unknownTag (hnext : c.rest.head? = some tag) (hkind : ConstantKind.ofTag? tag = none) :
    Constant.read slot c = .error (.unknownTag tag (UInt16.ofNat slot)) (c.advance 1) := by
  obtain ⟨tail, htail⟩ := List.head?_eq_some_iff.mp hnext
  rw [Constant.read, Stateful.bind_ok (Scan.reads_u8 tag c tail htail), hkind]
  rfl

/-- Reading a constant stops in its bytes, or at a tag of no kind. -/
theorem read_eq_error {e : Fault} {d : Cursor} (h : Constant.read slot c = .error e d) :
    e.OfBody ∨ ∃ tag, c.rest.head? = some tag ∧ ConstantKind.ofTag? tag = none ∧
      e = .unknownTag tag (UInt16.ofNat slot) := by
  cases hrest : c.rest with
  | nil =>
    have hempty : c.remaining < 1 := by
      rw [← Cursor.length_rest, hrest]
      exact Nat.one_pos
    have hu8 : Scan.u8 c = .error (.truncated c.position 1 c.remaining) c :=
      Stateful.bind_error (Scan.take_eq_error hempty)
    rw [Constant.read, Stateful.bind_error hu8] at h
    cases h
    exact Or.inl trivial
  | cons tag tail =>
    rw [Constant.read, Stateful.bind_ok (Scan.reads_u8 tag c tail hrest)] at h
    cases hkind : ConstantKind.ofTag? tag with
    | some kind =>
      rw [hkind] at h
      exact Or.inl (failsInBody_readBody kind _ _ _ h)
    | none =>
      rw [hkind] at h
      cases h
      exact Or.inr ⟨tag, rfl, hkind, rfl⟩

theorem length_slots_pos (c : Constant) : 0 < c.slots.length := by
  unfold slots
  split <;> exact Nat.succ_pos _

end Constant

namespace Pool

variable {count slot : Nat} {slots : Array (Option Constant)} {k : Constant} {ks : List Constant}
  {c d mid : Cursor} {e : Fault}

/-! ### Turns and runs of the reader -/

/-- Constants that are read one after the other, the first into slot `slot`. -/
inductive Entries : (slot : Nat) → List Constant → Cursor → Cursor → Prop
  | nil {slot : Nat} {c : Cursor} : Entries slot [] c c
  | cons {slot : Nat} {k : Constant} {ks : List Constant} {c mid d : Cursor} :
    Constant.read slot c = .ok k mid → Entries (slot + k.slots.length) ks mid d →
      Entries slot (k :: ks) c d

/-- A turn fills the slots of a constant that has room for them. -/
theorem readSlots_turn (hread : Constant.read slots.size c = .ok k d)
    (hroom : slots.size + k.slots.length ≤ count) :
    readSlots count slots c = readSlots count (slots ++ k.slots.toArray) d := by
  have hpos := k.length_slots_pos
  conv_lhs => rw [readSlots]
  rw [if_pos (by omega), Stateful.bind_ok hread]
  by_cases hwide : k.isWide = true
  · have hslots := Constant.slots_of_isWide hwide
    rw [hslots, List.length_cons, List.length_singleton] at hroom
    rw [if_pos hwide, if_pos (by omega), hslots]
    rfl
  · rw [if_neg hwide, Constant.slots_of_not_isWide hwide]
    rfl

/-- A constant without room for its slots is wide and lacks the second. -/
theorem readSlots_overrun (hread : Constant.read slots.size c = .ok k d) (hopen : slots.size < count)
    (hroom : count < slots.size + k.slots.length) :
    readSlots count slots c = .error (.malformed (.wideOverrun (UInt16.ofNat slots.size))) d ∧
      k.isWide = true ∧ slots.size + 1 = count := by
  by_cases hwide : k.isWide = true
  · rw [Constant.slots_of_isWide hwide, List.length_cons, List.length_singleton] at hroom
    refine ⟨?_, hwide, by omega⟩
    rw [readSlots, if_pos hopen, Stateful.bind_ok hread, if_pos hwide, if_neg (by omega)]
    rfl
  · rw [Constant.slots_of_not_isWide hwide, List.length_singleton] at hroom
    omega

theorem readSlots_fault (hread : Constant.read slots.size c = .error e d) (hopen : slots.size < count) :
    readSlots count slots c = .error e d := by
  rw [readSlots, if_pos hopen, Stateful.bind_error hread]

/-- A run of constants leaves the reader at their end, with their slots filled. -/
theorem readSlots_entries (h : Entries slot ks c mid) (hslot : slots.size = slot)
    (hroom : slot + (ks.flatMap Constant.slots).length ≤ count) :
    readSlots count slots c = readSlots count (slots ++ (ks.flatMap Constant.slots).toArray) mid := by
  induction h generalizing slots with
  | nil => simp
  | @cons slot k ks c mid d hread _ ih =>
    rw [List.flatMap_cons, List.length_append] at hroom
    subst hslot
    have hsize : (slots ++ k.slots.toArray).size = slots.size + k.slots.length := by simp
    rw [readSlots_turn hread (by omega), ih hsize (by omega), List.flatMap_cons]
    simp

/-- Every reading is a run that fills all slots, or a run with an ending behind it. -/
theorem exists_entries (hsize : slots.size ≤ count) (c : Cursor) : ∃ ks mid,
    Entries slots.size ks c mid ∧
    let filled := slots.size + (ks.flatMap Constant.slots).length
    (filled = count ∨ filled < count ∧
      ((∃ e d, Constant.read filled mid = .error e d) ∨
        ∃ k d, Constant.read filled mid = .ok k d ∧ count < filled + k.slots.length)) := by
  induction hopen : count - slots.size using Nat.strongRecOn generalizing slots c with
  | ind n ih =>
    by_cases hfull : slots.size = count
    · exact ⟨[], c, .nil, Or.inl (by simpa using hfull)⟩
    have hlt : slots.size < count := by omega
    cases hread : Constant.read slots.size c with
    | error e d => exact ⟨[], c, .nil, Or.inr ⟨by simpa using hlt, Or.inl ⟨e, d, hread⟩⟩⟩
    | ok k d =>
      by_cases hroom : slots.size + k.slots.length ≤ count
      · have hpos := k.length_slots_pos
        have hnext : (slots ++ k.slots.toArray).size = slots.size + k.slots.length := by simp
        have hfits : (slots ++ k.slots.toArray).size ≤ count := by omega
        obtain ⟨ks, mid, hentries, hend⟩ := ih _ (by omega) hfits d rfl
        rw [hnext] at hentries
        refine ⟨k :: ks, mid, .cons hread hentries, ?_⟩
        rw [List.flatMap_cons, List.length_append, ← Nat.add_assoc, ← hnext]
        exact hend
      · exact ⟨[], c, .nil, Or.inr ⟨by simpa using hlt, Or.inr ⟨k, d, hread, by simpa using hroom⟩⟩⟩

/-! ### Pools -/

section

variable {count : UInt16}

theorem one_add_length_slots (ks : List Constant) :
    1 + (ks.flatMap Constant.slots).length = place ks := by
  rw [length_flatMap_slots, place]
  omega

theorem size_filled (ks : List Constant) :
    (#[none] ++ (ks.flatMap Constant.slots).toArray).size = place ks := by
  simp only [Array.size_append, List.size_toArray, List.length_singleton]
  exact one_add_length_slots ks

theorem one_le_place (ks : List Constant) : 1 ≤ place ks :=
  Nat.le_add_left _ _

/-- A reading begins with the run of constants that it finds. -/
theorem read_of_entries (h : Entries 1 ks c mid) (hplace : place ks ≤ count.toNat) :
    Pool.read count c = (do
      return ⟨← readSlots count.toNat (#[none] ++ (ks.flatMap Constant.slots).toArray)⟩ :
        Scan Pool) mid := by
  have hpos := one_le_place ks
  have hne : count ≠ 0 := by
    rintro rfl
    exact absurd (Nat.le_trans hpos hplace) (by decide)
  have hroom : 1 + (ks.flatMap Constant.slots).length ≤ count.toNat := by
    rw [one_add_length_slots]
    exact hplace
  have hone : (#[none] : Array (Option Constant)).size = 1 := rfl
  rw [Pool.read, if_neg hne]
  simp only [bind, EStateM.bind, readSlots_entries h hone hroom]

theorem read_fault (h : Entries 1 ks c mid) (hplace : place ks < count.toNat)
    (hread : Constant.read (place ks) mid = .error e d) : Pool.read count c = .error e d := by
  rw [← size_filled] at hplace hread
  rw [read_of_entries h (by rw [← size_filled]; omega)]
  exact Stateful.bind_error (readSlots_fault hread hplace)

theorem read_overrun (h : Entries 1 ks c mid) (hplace : place ks < count.toNat)
    (hread : Constant.read (place ks) mid = .ok k d) (hroom : count.toNat < place ks + k.slots.length) :
    Pool.read count c = .error (.malformed (.wideOverrun (UInt16.ofNat (place ks)))) d ∧
      k.isWide = true ∧ place ks + 1 = count.toNat := by
  rw [← size_filled] at hplace hread hroom ⊢
  obtain ⟨hstop, hwide, hlast⟩ := readSlots_overrun hread hplace hroom
  refine ⟨?_, hwide, hlast⟩
  rw [read_of_entries h (by rw [← size_filled]; omega)]
  exact Stateful.bind_error hstop

/-- How the reading of a pool goes: no slot at all, all slots, or an ending behind a run of constants. -/
theorem read_cases (count : UInt16) (c : Cursor) : count = 0 ∨
    ∃ ks mid, Entries 1 ks c mid ∧ (place ks = count.toNat ∨ place ks < count.toNat ∧
      ((∃ e d, Constant.read (place ks) mid = .error e d) ∨
        ∃ k d, Constant.read (place ks) mid = .ok k d ∧ count.toNat < place ks + k.slots.length)) := by
  by_cases hzero : count = 0
  · exact Or.inl hzero
  have hpos : (#[none] : Array (Option Constant)).size ≤ count.toNat := by
    have hne : count.toNat ≠ 0 := fun h => hzero (UInt16.toNat_inj.mp h)
    exact Nat.one_le_iff_ne_zero.mpr hne
  obtain ⟨ks, mid, hentries, hend⟩ := exists_entries hpos c
  have hplace : (#[none] : Array (Option Constant)).size + (ks.flatMap Constant.slots).length =
      place ks := one_add_length_slots ks
  rw [hplace] at hend
  exact Or.inr ⟨ks, mid, hentries, hend⟩

theorem read_full (h : Entries 1 ks c mid) (hplace : place ks = count.toNat) :
    ∃ pool, Pool.read count c = .ok pool mid := by
  refine ⟨⟨#[none] ++ (ks.flatMap Constant.slots).toArray⟩, ?_⟩
  have hfull : readSlots count.toNat (#[none] ++ (ks.flatMap Constant.slots).toArray) mid =
      .ok (#[none] ++ (ks.flatMap Constant.slots).toArray) mid := by
    rw [readSlots, if_neg (by rw [size_filled]; omega)]
    rfl
  rw [read_of_entries h (Nat.le_of_eq hplace)]
  exact Stateful.bind_ok hfull

/-- A reading that fails has read a run of constants, and behind it no constant or a wide one without room. -/
theorem read_eq_error (h : Pool.read count c = .error e d) : e = .malformed .noPool ∨
    ∃ ks mid, Entries 1 ks c mid ∧ place ks < count.toNat ∧
      (Constant.read (place ks) mid = .error e d ∨
        ∃ k, Constant.read (place ks) mid = .ok k d ∧ k.isWide = true ∧ place ks + 1 = count.toNat ∧
          e = .malformed (.wideOverrun (UInt16.ofNat (place ks)))) := by
  rcases read_cases count c with rfl | ⟨ks, mid, hentries, hfull | ⟨hplace, hend⟩⟩
  · cases h
    exact Or.inl rfl
  · obtain ⟨pool, hpool⟩ := read_full hentries hfull
    rw [hpool] at h
    cases h
  · refine Or.inr ⟨ks, mid, hentries, hplace, ?_⟩
    rcases hend with ⟨e', d', hread⟩ | ⟨k, d', hread, hroom⟩
    · rw [read_fault hentries hplace hread] at h
      cases h
      exact Or.inl hread
    · obtain ⟨hstop, hwide, hlast⟩ := read_overrun hentries hplace hread hroom
      rw [hstop] at h
      cases h
      exact Or.inr ⟨k, hread, hwide, hlast, rfl⟩

theorem toNat_place (hplace : place ks < count.toNat) : (UInt16.ofNat (place ks)).toNat = place ks :=
  UInt16.toNat_ofNat_of_lt' (Nat.lt_trans hplace count.toNat_lt)

/-- The slot holds a wide constant. -/
def WideAt (pool : Pool) (slot : Nat) : Prop :=
  ∃ k, pool.slots[slot]? = some (some k) ∧ k.isWide = true

/-- The slots of a pool: as many as were declared, slot zero is empty, and any other is so just if a wide
constant stands before it. An index finds a constant just in a slot that is not empty. -/
structure Slotted (pool : Pool) (count : Nat) : Prop where
  size : pool.size = count
  first : pool.slots[0]? = some none
  empty : ∀ i, pool.slots[i + 1]? = some none ↔ pool.WideAt i
  finds : ∀ index : UInt16, (∃ k, pool.constant index = .ok k) ↔
    1 ≤ index.toNat ∧ index.toNat < count ∧ ¬ pool.WideAt (index.toNat - 1)
  held : ∀ index k, pool.constant index = .ok k → pool.slots[index.toNat]? = some (some k)
  refuses : ∀ index, (∀ k, pool.constant index ≠ .ok k) → pool.constant index = .error (.badIndex index)

theorem slotted_of_read {pool : Pool} (h : Pool.read count c = .ok pool d) :
    pool.Slotted count.toNat := by
  have hfinds (index : UInt16) := held?_eq_none_of_read h index
  obtain ⟨ks, rfl, hsize⟩ := constants_of_read h
  have hslots (n : Nat) : (ofConstants ks).slots[n]? = (none :: ks.flatMap Constant.slots)[n]? := by
    rw [← Array.getElem?_toList, slots_ofConstants]
  refine ⟨hsize, hslots 0, fun i => ?_, fun index => ?_, fun index k => constant_eq_ok_iff.mp,
    fun index hnone => ?_⟩
  · rw [WideAt, hslots, hslots, List.getElem?_cons_succ]
    exact getElem?_slots_eq_none_iff none (by simp) i
  · have hzero : index = 0 ↔ index.toNat = 0 := UInt16.toNat_inj.symm
    have hheld : (∃ k, (ofConstants ks).constant index = .ok k) ↔
        (ofConstants ks).held? index ≠ none := by
      simp only [constant_eq_ok_iff, ← held?_eq_some_iff, Option.ne_none_iff_exists']
    rw [hheld, Ne, hfinds index, hsize, hzero]
    simp only [not_or, WideAt, Nat.not_le, Nat.one_le_iff_ne_zero]
  · apply constant_of_held?_eq_none
    exact held?_eq_none_iff.mpr fun k hk => hnone k (constant_eq_ok_iff.mpr hk)

/-- A pool that was read has as many slots as were declared, slot zero is empty, and of the others those behind
wide constants are; an index finds a constant just in a slot that is not empty. A reading stops at a wide
constant just where its second slot would be the first one too many, and at an unknown tag just where one comes
next in place of a constant. In both cases the fault has the slot that was to be filled, and not the number of
constants before it. -/
theorem slots_exact (count : UInt16) (c : Cursor) :
    (∀ pool d, Pool.read count c = .ok pool d → pool.Slotted count.toNat) ∧
    (∀ index, (∃ d, Pool.read count c = .error (.malformed (.wideOverrun index)) d) ↔
      ∃ ks mid k d, Entries 1 ks c mid ∧ Constant.read (place ks) mid = .ok k d ∧ k.isWide = true ∧
        index.toNat = place ks ∧ place ks + 1 = count.toNat) ∧
    ∀ tag index, (∃ d, Pool.read count c = .error (.unknownTag tag index) d) ↔
      ∃ ks mid, Entries 1 ks c mid ∧ mid.rest.head? = some tag ∧ ConstantKind.ofTag? tag = none ∧
        index.toNat = place ks ∧ place ks < count.toNat := by
  refine ⟨fun pool d h => slotted_of_read h, fun index => ⟨?_, ?_⟩, fun tag index => ⟨?_, ?_⟩⟩
  · rintro ⟨d, hread⟩
    rcases read_eq_error hread with hnone | ⟨ks, mid, hentries, hplace, hbad | ⟨k, hk, hwide, hlast, he⟩⟩
    · cases hnone
    · rcases Constant.read_eq_error hbad with hbody | ⟨tag, -, -, htag⟩
      · exact False.elim hbody
      · cases htag
    · cases he
      exact ⟨ks, mid, k, d, hentries, hk, hwide, toNat_place hplace, hlast⟩
  · rintro ⟨ks, mid, k, d, hentries, hread, hwide, hindex, hlast⟩
    have hroom : count.toNat < place ks + k.slots.length := by
      rw [Constant.slots_of_isWide hwide, List.length_cons, List.length_singleton]
      omega
    obtain ⟨hstop, -⟩ := read_overrun hentries (by omega) hread hroom
    rw [← hindex, UInt16.ofNat_toNat] at hstop
    exact ⟨d, hstop⟩
  · rintro ⟨d, hread⟩
    rcases read_eq_error hread with hnone | ⟨ks, mid, hentries, hplace, hbad | ⟨k, -, -, -, he⟩⟩
    · cases hnone
    · rcases Constant.read_eq_error hbad with hbody | ⟨found, hnext, hkind, htag⟩
      · exact False.elim hbody
      · cases htag
        exact ⟨ks, mid, hentries, hnext, hkind, toNat_place hplace, hplace⟩
    · cases he
  · rintro ⟨ks, mid, hentries, hnext, hkind, hindex, hplace⟩
    have hfault : Constant.read (place ks) mid = .error (.unknownTag tag index) (mid.advance 1) := by
      rw [Constant.read_of_unknownTag hnext hkind, ← hindex, UInt16.ofNat_toNat]
    exact ⟨_, read_fault hentries hplace hfault⟩

end

end Pool
end ClassXref
