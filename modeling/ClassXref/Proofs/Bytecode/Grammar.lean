import ClassXref.Bytecode.Instruction
import ClassXref.Proofs.Bytecode.Tables
import ClassXref.Proofs.Bytes.Numeral
import ClassXref.Proofs.Stateful

/-! The grammar of instructions, written down apart from the decoder. The decoder takes exactly an
instruction of the grammar off the front, so a run of bytes splits into instructions in at most one
way. What operands designate is not looked at here. -/
namespace ClassXref.Instruction

open Stateful (verdict_bind_eq_ok_iff)

open Opcode (operand? fixedLength)

/-- What makes an instruction one of the grammar when its opcode stands at `offset`. A switch is
padded to a multiple of four, counted from the start of the code. -/
def FormedAt (offset : Nat) : Instruction → Prop
  | plain opcode operands => operand? opcode = none ∧ fixedLength opcode = operands.length + 1
  | index8 opcode operand _ => operand? opcode = some operand ∧ fixedLength opcode = 2
  | index16 opcode operand _ extra =>
    operand? opcode = some operand ∧ fixedLength opcode = extra.length + 3
  | tableSwitch padding _ low high targets =>
    padding.length < 4 ∧ (offset + 1 + padding.length) % 4 = 0 ∧ low ≤ high ∧
      (targets.length : Int) = 4 * (high.toInt - low.toInt + 1)
  | lookupSwitch padding _ pairs table =>
    padding.length < 4 ∧ (offset + 1 + padding.length) % 4 = 0 ∧ 0 ≤ pairs ∧
      (table.length : Int) = 8 * pairs.toInt
  | wide opcode operands =>
    opcode ∈ Opcode.widenable ∧ operands.length = if opcode = Opcode.iinc then 4 else 2

instance (offset : Nat) : (i : Instruction) → Decidable (i.FormedAt offset)
  | plain _ _ => inferInstanceAs (Decidable (_ = _ ∧ _ = _))
  | index8 _ _ _ => inferInstanceAs (Decidable (_ = _ ∧ _ = _))
  | index16 _ _ _ _ => inferInstanceAs (Decidable (_ = _ ∧ _ = _))
  | tableSwitch _ _ _ _ _ => inferInstanceAs (Decidable (_ < _ ∧ _ = _ ∧ _ ≤ _ ∧ _ = _))
  | lookupSwitch _ _ _ _ => inferInstanceAs (Decidable (_ < _ ∧ _ = _ ∧ _ ≤ _ ∧ _ = _))
  | wide opcode _ => inferInstanceAs (Decidable (opcode ∈ Opcode.widenable ∧ _ = _))

variable {offset : Nat} {opcode : UInt8} {bytes rest : List UInt8} {i : Instruction}

/-! ### One instruction -/

theorem operand_one_iff {front : List UInt8} :
    operand 1 bytes = .ok (front, rest) ↔ ∃ b, front = [b] ∧ bytes = b :: rest := by
  rw [operand_eq_ok_iff, List.length_eq_one_iff]
  constructor
  · rintro ⟨rfl, b, rfl⟩
    exact ⟨b, rfl, rfl⟩
  · rintro ⟨b, rfl, rfl⟩
    exact ⟨rfl, b, rfl⟩

theorem u8_single (b : UInt8) : UInt8.ofNat (BigEndian.value [b]) = b := by
  simp [BigEndian.value]

theorem operand_two_iff {front : List UInt8} :
    operand 2 bytes = .ok (front, rest) ↔
      ∃ n : UInt16, front = BigEndian.digits 2 n.toNat ∧ bytes = front ++ rest := by
  rw [operand_eq_ok_iff]
  constructor
  · rintro ⟨hbytes, hlength⟩
    exact ⟨_, (BigEndian.digits_u16 hlength).symm, hbytes⟩
  · rintro ⟨n, rfl, hbytes⟩
    exact ⟨hbytes, BigEndian.length_digits 2 n.toNat⟩

theorem int32_eq_ok_iff {n : Int32} : int32 bytes = .ok (n, rest) ↔ bytes = int32Bytes n ++ rest := by
  rw [int32, verdict_bind_eq_ok_iff]
  constructor
  · rintro ⟨⟨front, tail⟩, hfront, h⟩
    obtain ⟨rfl, hlength⟩ := operand_eq_ok_iff.mp hfront
    cases h
    rw [int32Bytes, UInt32.toUInt32_toInt32, BigEndian.digits_u32 hlength]
  · rintro rfl
    refine ⟨(int32Bytes n, rest), ?_, ?_⟩
    · exact operand_eq_ok_iff.mpr ⟨rfl, BigEndian.length_digits 4 n.toUInt32.toNat⟩
    · dsimp only
      rw [int32Bytes, BigEndian.u32_digits, Int32.toInt32_toUInt32]
      rfl

theorem length_padding_iff {padding : List UInt8} :
    padding.length = Opcode.switchPadding offset ↔
      padding.length < 4 ∧ (offset + 1 + padding.length) % 4 = 0 := by
  unfold Opcode.switchPadding
  omega

theorem decodeOperands_plain_iff {width : Nat} (h : Opcode.layout opcode = .plain width) :
    decodeOperands offset opcode bytes = .ok (i, rest) ↔
      ∃ operands, i = plain opcode operands ∧ operands.length = width ∧ bytes = operands ++ rest := by
  rw [decodeOperands, h]
  simp only [verdict_bind_eq_ok_iff, Prod.exists, operand_eq_ok_iff]
  constructor
  · rintro ⟨operands, tail, ⟨hbytes, hlength⟩, hdecode⟩
    cases hdecode
    exact ⟨operands, rfl, hlength, hbytes⟩
  · rintro ⟨operands, rfl, hlength, hbytes⟩
    exact ⟨operands, rest, ⟨hbytes, hlength⟩, rfl⟩

theorem decodeOperands_index8_iff {kind : PoolOperand} (h : Opcode.layout opcode = .index8 kind) :
    decodeOperands offset opcode bytes = .ok (i, rest) ↔
      ∃ index, i = index8 opcode kind index ∧ bytes = index :: rest := by
  rw [decodeOperands, h]
  simp only [verdict_bind_eq_ok_iff, Prod.exists, operand_one_iff]
  constructor
  · rintro ⟨_, tail, ⟨index, rfl, hbytes⟩, hdecode⟩
    rw [u8_single] at hdecode
    cases hdecode
    exact ⟨index, rfl, hbytes⟩
  · rintro ⟨index, rfl, hbytes⟩
    exact ⟨[index], rest, ⟨index, rfl, hbytes⟩, by rw [u8_single]; rfl⟩

theorem decodeOperands_index16_iff {kind : PoolOperand} {extra : Nat}
    (h : Opcode.layout opcode = .index16 kind extra) :
    decodeOperands offset opcode bytes = .ok (i, rest) ↔
      ∃ index last, i = index16 opcode kind index last ∧ last.length = extra ∧
        bytes = BigEndian.digits 2 index.toNat ++ (last ++ rest) := by
  rw [decodeOperands, h]
  simp only [verdict_bind_eq_ok_iff, Prod.exists]
  constructor
  · rintro ⟨front, _, hfront, last, tail, hlast, hdecode⟩
    obtain ⟨index, rfl, hbytes⟩ := operand_two_iff.mp hfront
    obtain ⟨rfl, hlength⟩ := operand_eq_ok_iff.mp hlast
    rw [BigEndian.u16_digits] at hdecode
    cases hdecode
    exact ⟨index, last, rfl, hlength, hbytes⟩
  · rintro ⟨index, last, rfl, hlength, hbytes⟩
    refine ⟨_, last ++ rest, operand_two_iff.mpr ⟨index, rfl, hbytes⟩, last, rest,
      operand_eq_ok_iff.mpr ⟨rfl, hlength⟩, ?_⟩
    rw [BigEndian.u16_digits]
    rfl

theorem decodeOperands_tableSwitch_iff (h : Opcode.layout opcode = .tableSwitch) :
    decodeOperands offset opcode bytes = .ok (i, rest) ↔
      ∃ padding default low high targets, i = tableSwitch padding default low high targets ∧
        i.FormedAt offset ∧ bytes = padding ++ (int32Bytes default ++
          (int32Bytes low ++ (int32Bytes high ++ (targets ++ rest)))) := by
  rw [decodeOperands, h]
  simp only [verdict_bind_eq_ok_iff, Prod.exists, operand_eq_ok_iff, int32_eq_ok_iff]
  constructor
  · rintro ⟨padding, _, ⟨rfl, hpadding⟩, default, _, rfl, low, _, rfl, high, _, rfl, hdecode⟩
    split at hdecode
    · cases hdecode
    next hle =>
      simp only [verdict_bind_eq_ok_iff, Prod.exists, operand_eq_ok_iff] at hdecode
      obtain ⟨targets, tail, ⟨rfl, htargets⟩, hdecode⟩ := hdecode
      cases hdecode
      rw [length_padding_iff] at hpadding
      refine ⟨padding, default, low, high, targets, rfl, ⟨hpadding.1, hpadding.2, ?_, ?_⟩, rfl⟩
      · exact Int32.not_lt.mp hle
      · have := Int32.not_lt.mp hle
        rw [Int32.le_iff_toInt_le] at this
        omega
  · rintro ⟨padding, default, low, high, targets, rfl, ⟨hpadding, haligned, hle, htargets⟩, rfl⟩
    refine ⟨padding, _, ⟨rfl, length_padding_iff.mpr ⟨hpadding, haligned⟩⟩, default, _, rfl, low, _,
      rfl, high, _, rfl, ?_⟩
    rw [if_neg (Int32.not_lt.mpr hle), verdict_bind_eq_ok_iff]
    rw [Int32.le_iff_toInt_le] at hle
    exact ⟨(targets, rest), operand_eq_ok_iff.mpr ⟨rfl, by omega⟩, rfl⟩

theorem decodeOperands_lookupSwitch_iff (h : Opcode.layout opcode = .lookupSwitch) :
    decodeOperands offset opcode bytes = .ok (i, rest) ↔
      ∃ padding default pairs table, i = lookupSwitch padding default pairs table ∧
        i.FormedAt offset ∧
          bytes = padding ++ (int32Bytes default ++ (int32Bytes pairs ++ (table ++ rest))) := by
  rw [decodeOperands, h]
  simp only [verdict_bind_eq_ok_iff, Prod.exists, operand_eq_ok_iff, int32_eq_ok_iff]
  constructor
  · rintro ⟨padding, _, ⟨rfl, hpadding⟩, default, _, rfl, pairs, _, rfl, hdecode⟩
    split at hdecode
    · cases hdecode
    next hle =>
      simp only [verdict_bind_eq_ok_iff, Prod.exists, operand_eq_ok_iff] at hdecode
      obtain ⟨table, tail, ⟨rfl, htable⟩, hdecode⟩ := hdecode
      cases hdecode
      rw [length_padding_iff] at hpadding
      refine ⟨padding, default, pairs, table, rfl, ⟨hpadding.1, hpadding.2, ?_, ?_⟩, rfl⟩
      · exact Int32.not_lt.mp hle
      · have := Int32.not_lt.mp hle
        rw [Int32.le_iff_toInt_le] at this
        have hzero : (0 : Int32).toInt = 0 := rfl
        omega
  · rintro ⟨padding, default, pairs, table, rfl, ⟨hpadding, haligned, hle, htable⟩, rfl⟩
    refine ⟨padding, _, ⟨rfl, length_padding_iff.mpr ⟨hpadding, haligned⟩⟩, default, _, rfl, pairs, _,
      rfl, ?_⟩
    rw [if_neg (Int32.not_lt.mpr hle), verdict_bind_eq_ok_iff]
    exact ⟨(table, rest), operand_eq_ok_iff.mpr ⟨rfl, by omega⟩, rfl⟩

theorem decodeOperands_wide_iff (h : Opcode.layout opcode = .wide) :
    decodeOperands offset opcode bytes = .ok (i, rest) ↔
      ∃ widened operands, i = wide widened operands ∧ i.FormedAt offset ∧
        bytes = widened :: (operands ++ rest) := by
  rw [decodeOperands, h]
  simp only [verdict_bind_eq_ok_iff, Prod.exists, operand_one_iff]
  constructor
  · rintro ⟨_, tail, ⟨widened, rfl, rfl⟩, hdecode⟩
    rw [u8_single] at hdecode
    split at hdecode
    · next hwidenable =>
      simp only [verdict_bind_eq_ok_iff, Prod.exists, operand_eq_ok_iff] at hdecode
      obtain ⟨operands, tail, ⟨rfl, hoperands⟩, hdecode⟩ := hdecode
      cases hdecode
      exact ⟨widened, operands, rfl, ⟨(Opcode.isWidenable_iff widened).mp hwidenable, hoperands⟩, rfl⟩
    · cases hdecode
  · rintro ⟨widened, operands, rfl, ⟨hwidenable, hoperands⟩, rfl⟩
    refine ⟨[widened], _, ⟨widened, rfl, rfl⟩, ?_⟩
    rw [u8_single, if_pos ((Opcode.isWidenable_iff widened).mpr hwidenable), verdict_bind_eq_ok_iff]
    exact ⟨(operands, rest), operand_eq_ok_iff.mpr ⟨rfl, hoperands⟩, rfl⟩

theorem formed_of_decodeOperands
    (h : decodeOperands offset opcode bytes = .ok (i, rest)) :
    opcode :: bytes = i.encode ++ rest ∧ i.FormedAt offset := by
  have htables := Opcode.tabulated_layout opcode
  cases hlayout : Opcode.layout opcode with
  | plain width =>
    rw [hlayout] at htables
    obtain ⟨operands, rfl, hlength, rfl⟩ := (decodeOperands_plain_iff hlayout).mp h
    exact ⟨rfl, htables.1, by rw [hlength]; exact htables.2⟩
  | index8 kind =>
    rw [hlayout] at htables
    obtain ⟨index, rfl, rfl⟩ := (decodeOperands_index8_iff hlayout).mp h
    exact ⟨rfl, htables⟩
  | index16 kind extra =>
    rw [hlayout] at htables
    obtain ⟨index, last, rfl, hlength, rfl⟩ := (decodeOperands_index16_iff hlayout).mp h
    exact ⟨by simp [encode], htables.1, by rw [hlength]; exact htables.2⟩
  | tableSwitch =>
    rw [hlayout] at htables
    obtain ⟨padding, default, low, high, targets, rfl, hformed, rfl⟩ :=
      (decodeOperands_tableSwitch_iff hlayout).mp h
    exact ⟨by simp [encode, show opcode = Opcode.tableSwitch from htables], hformed⟩
  | lookupSwitch =>
    rw [hlayout] at htables
    obtain ⟨padding, default, pairs, table, rfl, hformed, rfl⟩ :=
      (decodeOperands_lookupSwitch_iff hlayout).mp h
    exact ⟨by simp [encode, show opcode = Opcode.lookupSwitch from htables], hformed⟩
  | wide =>
    rw [hlayout] at htables
    obtain ⟨widened, operands, rfl, hformed, rfl⟩ := (decodeOperands_wide_iff hlayout).mp h
    exact ⟨by simp [encode, show opcode = Opcode.wide from htables], hformed⟩
  | unassigned =>
    unfold decodeOperands at h
    rw [hlayout] at h
    cases h

theorem decode_of_formed (h : i.FormedAt offset) (rest : List UInt8) :
    decode offset (i.encode ++ rest) = .ok (i, rest) := by
  cases i with
  | plain opcode operands =>
    have hlayout : Opcode.layout opcode = .plain operands.length :=
      Opcode.layout_eq_of_tabulated h
    exact (decodeOperands_plain_iff hlayout).mpr ⟨operands, rfl, rfl, rfl⟩
  | index8 opcode kind index =>
    have hlayout : Opcode.layout opcode = .index8 kind := Opcode.layout_eq_of_tabulated h
    exact (decodeOperands_index8_iff hlayout).mpr ⟨index, rfl, rfl⟩
  | index16 opcode kind index extra =>
    have hlayout : Opcode.layout opcode = .index16 kind extra.length :=
      Opcode.layout_eq_of_tabulated h
    exact (decodeOperands_index16_iff hlayout).mpr
      ⟨index, extra, rfl, rfl, List.append_assoc _ extra rest⟩
  | tableSwitch padding default low high targets =>
    have hlayout : Opcode.layout Opcode.tableSwitch = .tableSwitch := rfl
    simp only [encode, List.cons_append, List.append_assoc]
    exact (decodeOperands_tableSwitch_iff hlayout).mpr
      ⟨padding, default, low, high, targets, rfl, h, rfl⟩
  | lookupSwitch padding default pairs table =>
    have hlayout : Opcode.layout Opcode.lookupSwitch = .lookupSwitch := rfl
    simp only [encode, List.cons_append, List.append_assoc]
    exact (decodeOperands_lookupSwitch_iff hlayout).mpr
      ⟨padding, default, pairs, table, rfl, h, rfl⟩
  | wide opcode operands =>
    have hlayout : Opcode.layout Opcode.wide = .wide := rfl
    exact (decodeOperands_wide_iff hlayout).mpr ⟨opcode, operands, rfl, h, rfl⟩

/-- The decoder takes an instruction off the front just when one of the grammar stands there. -/
theorem decode_eq_ok_iff :
    decode offset bytes = .ok (i, rest) ↔ bytes = i.encode ++ rest ∧ i.FormedAt offset := by
  constructor
  · intro h
    cases bytes with
    | nil => cases h
    | cons opcode bytes => exact formed_of_decodeOperands h
  · rintro ⟨rfl, h⟩
    exact decode_of_formed h rest

/-! ### Runs of instructions -/

/-- The bytes from `offset` on are these instructions, one after the other, and nothing else. -/
inductive Split : Nat → List UInt8 → List Instruction → Prop
  | nil (offset : Nat) : Split offset [] []
  | cons {offset : Nat} {i : Instruction} {rest : List UInt8} {is : List Instruction} :
    i.FormedAt offset → Split (offset + i.size) rest is → Split offset (i.encode ++ rest) (i :: is)

theorem split_nil_iff : Split offset bytes [] ↔ bytes = [] := by
  constructor
  · intro h
    cases h
    rfl
  · rintro rfl
    exact .nil offset

theorem split_cons_iff {is : List Instruction} :
    Split offset bytes (i :: is) ↔
      ∃ rest, decode offset bytes = .ok (i, rest) ∧ Split (offset + i.size) rest is := by
  constructor
  · intro h
    cases h with
    | @cons _ _ rest _ hformed hsplit => exact ⟨rest, decode_of_formed hformed rest, hsplit⟩
  · rintro ⟨rest, hdecode, hsplit⟩
    obtain ⟨rfl, hformed⟩ := decode_eq_ok_iff.mp hdecode
    exact .cons hformed hsplit

/-- Each of the instructions is one of the grammar where it comes to stand. -/
def FormedFrom (offset : Nat) : List Instruction → Prop
  | [] => True
  | i :: is => i.FormedAt offset ∧ FormedFrom (offset + i.size) is

instance decidableFormedFrom : (offset : Nat) → (is : List Instruction) →
    Decidable (FormedFrom offset is)
  | _, [] => inferInstanceAs (Decidable True)
  | offset, i :: is =>
    have := decidableFormedFrom (offset + i.size) is
    inferInstanceAs (Decidable (i.FormedAt offset ∧ FormedFrom (offset + i.size) is))

theorem split_iff {is : List Instruction} :
    Split offset bytes is ↔ FormedFrom offset is ∧ bytes = is.flatMap encode := by
  constructor
  · intro h
    induction h with
    | nil => exact ⟨trivial, rfl⟩
    | cons hformed _ ih => exact ⟨⟨hformed, ih.1⟩, by rw [List.flatMap_cons, ← ih.2]⟩
  · rintro ⟨h, rfl⟩
    induction is generalizing offset with
    | nil => exact .nil offset
    | cons i is ih => exact .cons h.1 (ih h.2)

/-- A run of bytes splits into instructions in at most one way. -/
theorem split_unique {is js : List Instruction} (h : Split offset bytes is)
    (h' : Split offset bytes js) : is = js := by
  induction is generalizing offset bytes js with
  | nil =>
    obtain rfl := split_nil_iff.mp h
    cases js with
    | nil => rfl
    | cons j js =>
      obtain ⟨rest, hdecode, -⟩ := split_cons_iff.mp h'
      cases hdecode
  | cons i is ih =>
    obtain ⟨rest, hdecode, hsplit⟩ := split_cons_iff.mp h
    cases js with
    | nil =>
      obtain rfl := split_nil_iff.mp h'
      cases hdecode
    | cons j js =>
      obtain ⟨rest', hdecode', hsplit'⟩ := split_cons_iff.mp h'
      rw [hdecode] at hdecode'
      cases hdecode'
      rw [ih hsplit hsplit']

end ClassXref.Instruction
