import ClassXref.Bytecode.Layout

/-! The instruction set as tables: how long the instruction of each opcode is, which opcodes have an
operand in the constant pool and which of them `wide` widens. They are written down apart from
`Opcode.layout`, and at each of the 256 opcodes both say the same. -/
namespace ClassXref.Opcode

/-- The length of the instruction of each opcode, opcode included, sixteen opcodes to a row. Zero
stands for a length that the opcode does not decide and for an opcode without an instruction. -/
def lengths : List Nat :=
  [1, 1, 1, 1, 1, 1, 1, 1, 1, 1, 1, 1, 1, 1, 1, 1,
   2, 3, 2, 3, 3, 2, 2, 2, 2, 2, 1, 1, 1, 1, 1, 1,
   1, 1, 1, 1, 1, 1, 1, 1, 1, 1, 1, 1, 1, 1, 1, 1,
   1, 1, 1, 1, 1, 1, 2, 2, 2, 2, 2, 1, 1, 1, 1, 1,
   1, 1, 1, 1, 1, 1, 1, 1, 1, 1, 1, 1, 1, 1, 1, 1,
   1, 1, 1, 1, 1, 1, 1, 1, 1, 1, 1, 1, 1, 1, 1, 1,
   1, 1, 1, 1, 1, 1, 1, 1, 1, 1, 1, 1, 1, 1, 1, 1,
   1, 1, 1, 1, 1, 1, 1, 1, 1, 1, 1, 1, 1, 1, 1, 1,
   1, 1, 1, 1, 3, 1, 1, 1, 1, 1, 1, 1, 1, 1, 1, 1,
   1, 1, 1, 1, 1, 1, 1, 1, 1, 3, 3, 3, 3, 3, 3, 3,
   3, 3, 3, 3, 3, 3, 3, 3, 3, 2, 0, 0, 1, 1, 1, 1,
   1, 1, 3, 3, 3, 3, 3, 3, 3, 5, 5, 3, 2, 3, 1, 1,
   3, 3, 1, 1, 0, 4, 3, 3, 5, 5, 1, 0, 0, 0, 0, 0,
   0, 0, 0, 0, 0, 0, 0, 0, 0, 0, 0, 0, 0, 0, 0, 0,
   0, 0, 0, 0, 0, 0, 0, 0, 0, 0, 0, 0, 0, 0, 0, 0,
   0, 0, 0, 0, 0, 0, 0, 0, 0, 0, 0, 0, 0, 0, 1, 1]

def fixedLength (opcode : UInt8) : Nat :=
  lengths.getD opcode.toNat 0

/-- What the operand of an opcode designates, for the opcodes that have one in the constant pool. -/
def operand? (opcode : UInt8) : Option PoolOperand :=
  if opcode ∈ [0x12, 0x13, 0x14] then some .loadable                -- ldc, ldc_w, ldc2_w
  else if opcode ∈ [0xb2, 0xb3, 0xb4, 0xb5] then some .field        -- get and put
  else if opcode ∈ [0xb6, 0xb7, 0xb8, 0xb9] then some .method       -- invoke
  else if opcode = 0xba then some .invokeDynamic
  else if opcode ∈ [0xbb, 0xbd, 0xc0, 0xc1, 0xc5] then some .classRef -- new, casts, arrays
  else none

/-- The opcodes that `wide` widens: loads, stores, `ret` and `iinc`. -/
def widenable : List UInt8 :=
  [0x15, 0x16, 0x17, 0x18, 0x19, 0x36, 0x37, 0x38, 0x39, 0x3a, 0xa9, iinc]

/-- What the tables say about an opcode of the given layout. -/
def Tabulated (opcode : UInt8) : Layout → Prop
  | .plain width => operand? opcode = none ∧ fixedLength opcode = width + 1
  | .index8 operand => operand? opcode = some operand ∧ fixedLength opcode = 2
  | .index16 operand extra => operand? opcode = some operand ∧ fixedLength opcode = extra + 3
  | .tableSwitch => opcode = tableSwitch
  | .lookupSwitch => opcode = lookupSwitch
  | .wide => opcode = wide
  | .unassigned => fixedLength opcode = 0 ∧ opcode ∉ [tableSwitch, lookupSwitch, wide]

instance (opcode : UInt8) : (layout : Layout) → Decidable (Tabulated opcode layout)
  | .plain width => inferInstanceAs (Decidable (_ = _ ∧ fixedLength opcode = width + 1))
  | .index8 operand => inferInstanceAs (Decidable (_ = some operand ∧ _ = _))
  | .index16 operand extra =>
    inferInstanceAs (Decidable (_ = some operand ∧ fixedLength opcode = extra + 3))
  | .tableSwitch => inferInstanceAs (Decidable (opcode = tableSwitch))
  | .lookupSwitch => inferInstanceAs (Decidable (opcode = lookupSwitch))
  | .wide => inferInstanceAs (Decidable (opcode = wide))
  | .unassigned => inferInstanceAs (Decidable (fixedLength opcode = 0 ∧ ¬ _))

theorem forall_opcode {P : UInt8 → Prop} (h : ∀ n : Fin 256, P (UInt8.ofFin n)) (opcode : UInt8) :
    P opcode := by
  have hn := h opcode.toFin
  rwa [UInt8.ofFin_toFin] at hn

/-- The layout that the decoder goes by is in the tables, at every opcode. -/
theorem tabulated_layout (opcode : UInt8) : Tabulated opcode (layout opcode) :=
  forall_opcode (P := fun opcode => Tabulated opcode (layout opcode)) (by decide +kernel) opcode

theorem isWidenable_iff (opcode : UInt8) : isWidenable opcode = true ↔ opcode ∈ widenable :=
  forall_opcode (P := fun opcode => isWidenable opcode = true ↔ opcode ∈ widenable)
    (by decide +kernel) opcode

theorem fixedLength_tableSwitch : fixedLength tableSwitch = 0 := rfl

theorem fixedLength_lookupSwitch : fixedLength lookupSwitch = 0 := rfl

theorem fixedLength_wide : fixedLength wide = 0 := rfl

/-- The tables leave no choice between layouts. -/
theorem layout_eq_of_tabulated {opcode : UInt8} {found : Layout} (h : Tabulated opcode found) :
    layout opcode = found := by
  have hlayout := tabulated_layout opcode
  cases found with
  | tableSwitch | lookupSwitch | wide => subst h; rfl
  | plain width | index8 operand | index16 operand extra | unassigned =>
    generalize layout opcode = given at hlayout
    cases given <;>
      simp_all [Tabulated, fixedLength_tableSwitch, fixedLength_lookupSwitch, fixedLength_wide]

end ClassXref.Opcode
