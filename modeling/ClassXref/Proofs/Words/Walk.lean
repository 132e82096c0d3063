import ClassXref.ClassFile.References
import ClassXref.Proofs.Bytecode.Failure
import ClassXref.Proofs.ClassFile.Acceptance
import ClassXref.Proofs.Words.Machine

/-! Visiting a class file with machine words. The walk over the code of a method forms its offsets, the
padding and the tables of its switches, and the length of the code that it reports. The main statement
says that on every buffer whose size fits in a word a machine visits a class file as `ClassFile.visit`
does, so that the visit ends with a name or a fault and never with a trap. -/
namespace ClassXref

namespace Machine

variable {σ α β : Type}

/-! ### Decoding -/

/-- What a conversion to an unsigned word keeps of a number. -/
def word (n : Int) : Nat := (n % 2 ^ 64).toNat

def i32 : Machine Cursor Int32 := return (← u32).toInt32

/-- How many bytes after the opcode at `offset` bring a switch to a multiple of four. -/
def switchPadding (offset : Nat) : Machine σ Nat := do
  let next ← unsigned 64 (offset + 1)
  let missing ← unsigned 64 (4 - (next % 4 : Nat))
  return missing % 4

/-- How many bytes the targets of all keys from `low` to `high` take. -/
def targetBytes (low high : Int32) : Machine σ Nat := do
  let distance ← signed 64 (high.toInt - low.toInt)
  let entries ← signed 64 (distance + 1)
  unsigned 64 (word entries * 4)

/-- How many bytes so many pairs of key and target take. -/
def pairBytes (pairs : Int32) : Machine σ Nat :=
  unsigned 64 (word pairs.toInt * 8)

/-- Fails because the operands of the instruction at `offset` contradict each other. -/
def desync (ctx : CodeContext) (offset : Nat) : Machine Cursor α := do
  let reached ← position
  let left ← remaining
  let codeLength ← unsigned 64 (reached + left)
  throw (.fault (.desync ctx.referrer offset codeLength))

/-- The rest of the instruction with this opcode at this offset. -/
def operands (ctx : CodeContext) (offset : Nat) (opcode : UInt8) : Machine Cursor Instruction := do
  match Opcode.layout opcode with
  | .plain width => return .plain opcode (← take width)
  | .index8 kind => return .index8 opcode kind (← u8)
  | .index16 kind extra => do
    let index ← u16
    return .index16 opcode kind index (← take extra)
  | .tableSwitch => do
    let padding ← take (← switchPadding offset)
    let default ← i32
    let low ← i32
    let high ← i32
    if high < low then desync ctx offset
    else do
      let targets ← take (← targetBytes low high)
      return .tableSwitch padding default low high targets
  | .lookupSwitch => do
    let padding ← take (← switchPadding offset)
    let default ← i32
    let pairs ← i32
    if pairs < 0 then desync ctx offset
    else do
      let table ← take (← pairBytes pairs)
      return .lookupSwitch padding default pairs table
  | .wide => do
    let widened ← u8
    if Opcode.isWidenable widened then
      return .wide widened (← take (Opcode.wideWidth widened))
    else desync ctx offset
  | .unassigned => throw (.fault (.unassignedOpcode ctx.referrer opcode offset))

/-- An instruction that is cut off by the end of the code is reported like one that contradicts itself. -/
def resync (ctx : CodeContext) (offset codeLength : Nat) : Halt → Halt
  | .fault (.truncated _ _ _) => .fault (.desync ctx.referrer offset codeLength)
  | halt => halt

/-- Runs a computation on a cursor beside the state of another. -/
def runAt (x : Machine Cursor α) (c : Cursor) (handle : Halt → Halt) : Machine σ (α × Cursor) := fun r =>
  match x c with
  | .ok a d => .ok (a, d) r
  | .error halt _ => .error (handle halt) r

variable {R : Type} [Recorder R]

/-- A visit is the same on a machine, as there is nothing in it to compute. -/
def ofVisit (x : Visit R α) : Machine R α := fun r =>
  match x r with
  | .ok a t => .ok a t
  | .error e t => .error (.fault e) t

/-- Walks the instructions behind a cursor. -/
def walk (ctx : CodeContext) (c : Cursor) : Machine R Unit := do
  let (left, _) ← runAt remaining c id
  if left = 0 then return ()
  else do
    let (opcode, d) ← runAt u8 c id
    let (instruction, next) ← runAt (operands ctx c.position opcode) d
      (resync ctx c.position c.data.size)
    ofVisit (ctx.useInstruction instruction)
    if _h : next.data.size - next.position < c.data.size - c.position then walk ctx next
    else throw (.trap .standstill)
termination_by c.data.size - c.position

def useCode (ctx : CodeContext) (code : Code) : Machine R Unit := do
  walk ctx { data := code.bytes.toByteArray }
  ofVisit (ctx.useHandlers code.handlers)

def useMethod (file : ClassFile) (method : Method) : Machine R Unit := do
  let referrer := .ofMethod
    { owner := file.record.name, name := method.name, descriptor := method.descriptor }
  ofVisit (do Visit.useClasses referrer (← Descriptor.methodClasses method.descriptor))
  ofVisit (Visit.useClasses referrer method.exceptions)
  match method.code with
  | some code =>
    useCode { pool := file.pool, bootstrapMethods := file.bootstrapMethods, referrer } code
  | none => return ()

/-- Visits a class file on a machine. -/
def visit (data : ByteArray) : Machine R String := do
  let file ← MonadExcept.ofExcept (parse data)
  ofVisit (Visit.declare file.record)
  ofVisit (Visit.useClasses (.ofClass file.record.name) file.record.supertypes)
  ofVisit (file.fields.forM (ClassFile.useField file.record.name))
  file.methods.forM (useMethod file)
  return file.record.name

/-! ### Sizes that fit -/

theorem switchPadding_eq {offset : Nat} (h : offset + 1 < 2 ^ 64) :
    (switchPadding offset : Machine σ Nat) = pure (Opcode.switchPadding offset) := by
  have hnext : (unsigned 64 (offset + 1) : Machine σ Nat) = pure (offset + 1) := unsigned_add h
  have hmissing : (unsigned 64 (4 - ((offset + 1) % 4 : Nat)) : Machine σ Nat) =
      pure (4 - (offset + 1) % 4) := unsigned_sub (a := 4) (by omega) (by decide)
  rw [switchPadding, hnext, pure_bind, hmissing]
  rfl

theorem word_of_nonneg {n : Int} (hnonneg : 0 ≤ n) (h : n < 2 ^ 64) : word n = n.toNat := by
  rw [word, Int.emod_eq_of_lt hnonneg h]

theorem signed_eq {n : Int} (hlower : -2 ^ 63 ≤ n) (hupper : n < 2 ^ 63) :
    (signed 64 n : Machine σ Int) = pure n := by
  rw [signed, if_pos ⟨hlower, hupper⟩]

/-- Between two numbers of 32 bits lie no more than fit, also four times. -/
theorem targetBytes_eq {low high : Int32} (h : ¬ high < low) :
    (targetBytes low high : Machine σ Nat) = pure ((high.toInt - low.toInt + 1).toNat * 4) := by
  have horder : low.toInt ≤ high.toInt := by
    rw [Int32.lt_iff_toInt_lt] at h
    omega
  have hlow := low.le_toInt
  have hhigh := high.toInt_lt
  have hdistance : (signed 64 (high.toInt - low.toInt) : Machine σ Int) =
      pure (high.toInt - low.toInt) := signed_eq (by omega) (by omega)
  have hentries : (signed 64 (high.toInt - low.toInt + 1) : Machine σ Int) =
      pure (high.toInt - low.toInt + 1) := signed_eq (by omega) (by omega)
  have hword : word (high.toInt - low.toInt + 1) = (high.toInt - low.toInt + 1).toNat :=
    word_of_nonneg (by omega) (by omega)
  rw [targetBytes, hdistance, pure_bind, hentries, pure_bind, hword]
  exact unsigned_eq (n := (high.toInt - low.toInt + 1).toNat * 4) (by omega)

theorem pairBytes_eq {pairs : Int32} (h : ¬ pairs < 0) :
    (pairBytes pairs : Machine σ Nat) = pure (pairs.toInt.toNat * 8) := by
  have hnonneg : 0 ≤ pairs.toInt := by
    rw [Int32.lt_iff_toInt_lt, Int32.toInt_zero] at h
    omega
  have hupper := pairs.toInt_lt
  have hword : word pairs.toInt = pairs.toInt.toNat := word_of_nonneg hnonneg (by omega)
  rw [pairBytes, hword]
  exact unsigned_eq (n := pairs.toInt.toNat * 8) (by omega)

/-! ### Agreement of decoding -/

/-- From every place within a code of a size that a word can hold, the machine takes what the list
decoder takes off the front, or is stopped for the same reason. -/
def Decodes (ctx : CodeContext) (offset : Nat) (x : Machine Cursor α)
    (f : List UInt8 → Except Undecodable (α × List UInt8)) : Prop :=
  ∀ (data : ByteArray) (start : Nat), data.size < 2 ^ 64 → start ≤ data.size →
    (∃ a stop, start ≤ stop ∧ stop ≤ data.size ∧
      f (Cursor.rest ⟨data, start⟩) = .ok (a, Cursor.rest ⟨data, stop⟩) ∧
        x ⟨data, start⟩ = .ok a ⟨data, stop⟩) ∨
    (∃ reason halt d, f (Cursor.rest ⟨data, start⟩) = .error reason ∧
      x ⟨data, start⟩ = .error halt d ∧
        resync ctx offset data.size halt = .fault (ctx.undecodable offset data.size reason))

variable {ctx : CodeContext} {offset : Nat}

theorem decodes_pure (a : α) : Decodes ctx offset (pure a) (fun bytes => .ok (a, bytes)) := by
  intro data start _ inside
  exact Or.inl ⟨a, start, Nat.le_refl start, inside, rfl, rfl⟩

theorem decodes_bind {x : Machine Cursor α} {f : List UInt8 → Except Undecodable (α × List UInt8)}
    {g : α → Machine Cursor β} {k : α × List UInt8 → Except Undecodable (β × List UInt8)}
    (h : Decodes ctx offset x f) (h' : ∀ a, Decodes ctx offset (g a) fun rest => k (a, rest)) :
    Decodes ctx offset (x >>= g) fun bytes => f bytes >>= k := by
  intro data start small inside
  rcases h data start small inside with ⟨a, middle, hforward, hmiddle, hf, hx⟩ |
    ⟨reason, halt, d, hf, hx, hhalt⟩
  · dsimp only
    rw [hf, Stateful.bind_ok hx]
    rcases h' a data middle small hmiddle with ⟨b, stop, hforward', hstop, hk, hg⟩ | hstopped
    · exact Or.inl ⟨b, stop, Nat.le_trans hforward hforward', hstop, hk, hg⟩
    · exact Or.inr hstopped
  · refine Or.inr ⟨reason, halt, d, ?_, Stateful.bind_error hx, hhalt⟩
    dsimp only
    rw [hf]
    rfl

theorem decodes_desync :
    Decodes ctx offset (desync ctx offset : Machine Cursor α) (fun _ => .error .misshapen) := by
  intro data start small inside
  have hlength : (unsigned 64 (start + (data.size - start : Nat)) : Machine Cursor Nat) =
      pure (start + (data.size - start)) := unsigned_add (by omega)
  have hwhole : start + (data.size - start) = data.size := by omega
  refine Or.inr ⟨.misshapen, .fault (.desync ctx.referrer offset data.size), ⟨data, start⟩, rfl, ?_,
    rfl⟩
  rw [desync, Stateful.bind_ok position_eq, Stateful.bind_ok (remaining_eq small inside), hlength,
    pure_bind, hwhole]
  rfl

theorem operand_of_le {c : Cursor} {count : Nat} (h : count ≤ c.remaining) :
    Instruction.operand count c.rest = .ok (c.peek count, (c.advance count).rest) := by
  rw [Instruction.operand_eq_ok_iff, Cursor.peek_eq_take_rest, Cursor.rest_advance]
  refine ⟨(List.take_append_drop count c.rest).symm, ?_⟩
  rw [List.length_take, Cursor.length_rest]
  exact Nat.min_eq_left h

theorem operand_of_lt {c : Cursor} {count : Nat} (h : c.remaining < count) :
    Instruction.operand count c.rest = .error .misshapen := by
  have hshort : ¬ Instruction.splitExact?.reaches count c.rest = true := by
    rw [Instruction.reaches_iff, Cursor.length_rest]
    omega
  rw [Instruction.operand, Instruction.splitExact?, if_neg hshort]

/-- A numeral that the machine reads as the plain cursor does, and what follows it. -/
theorem decodes_numeral {x : Machine Cursor α} {f : α → Machine Cursor β} {count : Nat}
    {g : List UInt8 → α} {k : List UInt8 × List UInt8 → Except Undecodable (β × List UInt8)}
    (h : Agrees x (do return g (← Scan.take count)))
    (h' : ∀ digits, Decodes ctx offset (f (g digits)) fun rest => k (digits, rest)) :
    Decodes ctx offset (x >>= f) fun bytes => Instruction.operand count bytes >>= k := by
  intro data start small inside
  obtain ⟨verdict, stop, hstop, hscan, hmachine⟩ := h data start small inside
  by_cases hlong : count ≤ data.size - start
  · rw [Stateful.bind_ok (Scan.take_eq_ok hlong)] at hscan
    cases verdict with
    | error e => cases hscan
    | ok a =>
      cases hscan
      have hx : x ⟨data, start⟩ = .ok (g (Cursor.peek ⟨data, start⟩ count)) ⟨data, start + count⟩ :=
        hmachine
      dsimp only
      rw [operand_of_le (c := ⟨data, start⟩) hlong, Stateful.bind_ok hx]
      rcases h' (Cursor.peek ⟨data, start⟩ count) data (start + count) small hstop with
        ⟨b, stop, hforward, hstop, hk, hf⟩ | hstopped
      · exact Or.inl ⟨b, stop, by omega, hstop, hk, hf⟩
      · exact Or.inr hstopped
  · have hshort : data.size - start < count := Nat.not_le.mp hlong
    rw [Stateful.bind_error (Scan.take_eq_error hshort)] at hscan
    cases verdict with
    | ok a => cases hscan
    | error e =>
      cases hscan
      refine Or.inr ⟨.misshapen, _, _, ?_, Stateful.bind_error hmachine, rfl⟩
      dsimp only
      rw [operand_of_lt (c := ⟨data, start⟩) hshort]
      rfl

/-- A run of bytes whose length the machine has formed, and what follows it. -/
theorem decodes_sized {size : Machine Cursor Nat} {count : Nat} {f : List UInt8 → Machine Cursor β}
    {k : List UInt8 × List UInt8 → Except Undecodable (β × List UInt8)} (hsize : size = pure count)
    (h' : ∀ bytes, Decodes ctx offset (f bytes) fun rest => k (bytes, rest)) :
    Decodes ctx offset (size >>= fun n => take n >>= f)
      fun bytes => Instruction.operand count bytes >>= k := by
  have htake : Agrees (take count) (do return id (← Scan.take count)) := by
    simpa only [id, bind_pure] using agrees_take count
  rw [hsize, pure_bind]
  exact decodes_numeral htake h'

theorem decodes_i32 : Decodes ctx offset i32 Instruction.int32 :=
  decodes_numeral agrees_u32 fun _ => decodes_pure _

theorem decodes_ite {P : Prop} [Decidable P] {x y : Machine Cursor α}
    {f k : List UInt8 → Except Undecodable (α × List UInt8)} (hx : P → Decodes ctx offset x f)
    (hy : ¬ P → Decodes ctx offset y k) :
    Decodes ctx offset (if P then x else y) fun bytes => if P then f bytes else k bytes := by
  by_cases h : P
  · simp only [if_pos h]
    exact hx h
  · simp only [if_neg h]
    exact hy h

theorem decodes_unassigned (opcode : UInt8) :
    Decodes ctx offset (throw (.fault (.unassignedOpcode ctx.referrer opcode offset)) : Machine Cursor α)
      fun _ => .error (.unassigned opcode) := by
  intro data start _ _
  exact Or.inr ⟨.unassigned opcode, _, ⟨data, start⟩, rfl, rfl, rfl⟩

/-- Whatever bounds and counts a switch declares, its tables have a size that fits. -/
theorem decodes_operands (opcode : UInt8) (hoffset : offset + 1 < 2 ^ 64) :
    Decodes ctx offset (operands ctx offset opcode) (Instruction.decodeOperands offset opcode) := by
  unfold operands Instruction.decodeOperands
  cases Opcode.layout opcode with
  | plain width => exact decodes_sized rfl fun bytes => decodes_pure _
  | index8 kind => exact decodes_numeral agrees_u8 fun index => decodes_pure _
  | index16 kind extra =>
    exact decodes_numeral agrees_u16 fun index => decodes_sized rfl fun extra => decodes_pure _
  | tableSwitch =>
    refine decodes_sized (switchPadding_eq hoffset) fun padding =>
      decodes_bind decodes_i32 fun default => decodes_bind decodes_i32 fun low =>
        decodes_bind decodes_i32 fun high => decodes_ite (fun _ => decodes_desync) fun hkeys => ?_
    exact decodes_sized (targetBytes_eq hkeys) fun targets => decodes_pure _
  | lookupSwitch =>
    refine decodes_sized (switchPadding_eq hoffset) fun padding =>
      decodes_bind decodes_i32 fun default => decodes_bind decodes_i32 fun pairs =>
        decodes_ite (fun _ => decodes_desync) fun hpairs => ?_
    exact decodes_sized (pairBytes_eq hpairs) fun table => decodes_pure _
  | wide =>
    exact decodes_numeral agrees_u8 fun widened => decodes_ite
      (fun _ => decodes_sized rfl fun bytes => decodes_pure _) fun _ => decodes_desync
  | unassigned => exact decodes_unassigned opcode

/-! ### Agreement of the walk -/

theorem runAt_of_ok {x : Machine Cursor α} {c d : Cursor} {a : α} (h : x c = .ok a d)
    (handle : Halt → Halt) (r : σ) : (runAt x c handle : Machine σ _) r = .ok (a, d) r := by
  rw [runAt, h]

theorem runAt_of_error {x : Machine Cursor α} {c d : Cursor} {halt : Halt} (h : x c = .error halt d)
    (handle : Halt → Halt) (r : σ) : (runAt x c handle : Machine σ _) r = .error (handle halt) r := by
  rw [runAt, h]

theorem ofVisit_bind (x : Visit σ α) (f : α → Visit σ β) :
    ofVisit (x >>= f) = ofVisit x >>= fun a => ofVisit (f a) := by
  funext r
  simp only [ofVisit, bind, EStateM.bind]
  cases x r <;> rfl

theorem u8_of_rest {data : ByteArray} {start : Nat} {byte : UInt8} {rest : List UInt8}
    (small : data.size < 2 ^ 64) (inside : start ≤ data.size)
    (h : Cursor.rest ⟨data, start⟩ = byte :: rest) :
    u8 ⟨data, start⟩ = .ok byte ⟨data, start + 1⟩ := by
  obtain ⟨verdict, stop, -, hscan, hmachine⟩ := agrees_u8 data start small inside
  rw [Scan.reads_u8 byte ⟨data, start⟩ rest h] at hscan
  cases verdict with
  | ok found =>
    cases hscan
    exact hmachine
  | error e => cases hscan

/-- The walk over a code of a size that a word can hold goes instruction by instruction as the plain
one does. -/
theorem walk_eq {data : ByteArray} {start : Nat} (small : data.size < 2 ^ 64)
    (inside : start ≤ data.size) :
    (walk ctx ⟨data, start⟩ : Machine R Unit) =
      ofVisit (ctx.useInstructions data.size start (Cursor.rest ⟨data, start⟩)) := by
  induction hleft : data.size - start using Nat.strongRecOn generalizing start with
  | ind left ih =>
  funext r
  rw [walk, Stateful.bind_ok (runAt_of_ok (remaining_eq small inside) id r)]
  dsimp only
  by_cases hend : data.size - start = 0
  · have hnil : Cursor.rest ⟨data, start⟩ = [] := by
      rw [← List.length_eq_zero_iff, Cursor.length_rest]
      exact hend
    rw [if_pos hend, hnil, CodeContext.useInstructions]
    rfl
  · have hnonempty : Cursor.rest ⟨data, start⟩ ≠ [] := by
      rw [← List.length_pos_iff, Cursor.length_rest]
      exact Nat.pos_of_ne_zero hend
    obtain ⟨opcode, rest, hrest⟩ := List.exists_cons_of_ne_nil hnonempty
    have hfront : Cursor.rest ⟨data, start⟩ = [opcode] ++ rest := hrest
    have htail : Cursor.rest ⟨data, start + 1⟩ = rest := Scan.rest_advance_append hfront
    have hoffset : start + 1 < 2 ^ 64 := by omega
    rw [if_neg hend, Stateful.bind_ok (runAt_of_ok (u8_of_rest small inside hrest) id r)]
    dsimp only
    have hoperands : Decodes ctx start (operands ctx start opcode)
        (Instruction.decodeOperands start opcode) := decodes_operands opcode hoffset
    have hdecodes := hoperands data (start + 1) small (by omega)
    rw [htail] at hdecodes
    rcases hdecodes with ⟨i, stop, hforward, hstop, hdecode, hmachine⟩ |
      ⟨reason, halt, d, hdecode, hmachine, hhalt⟩
    · have hwhole : Instruction.decode start (Cursor.rest ⟨data, start⟩) =
          .ok (i, Cursor.rest ⟨data, stop⟩) := by
        rw [hrest]
        exact hdecode
      have hsize : start + i.size = stop := by
        have hlength := congrArg List.length (Instruction.decode_eq_ok_iff.mp hwhole).1
        rw [List.length_append, Cursor.length_rest, Cursor.length_rest] at hlength
        simp only [Cursor.remaining] at hlength
        unfold Instruction.size
        omega
      have hahead : data.size - stop < data.size - start := by omega
      have hrec := ih (data.size - stop) (by omega) hstop rfl
      rw [CodeContext.useInstructions_of_decode hwhole, ofVisit_bind,
        Stateful.bind_ok (runAt_of_ok hmachine _ r), hsize, ← hrec]
      simp only [dif_pos hahead]
    · have hwhole : Instruction.decode start (Cursor.rest ⟨data, start⟩) = .error reason := by
        rw [hrest]
        exact hdecode
      rw [CodeContext.useInstructions_of_undecodable hnonempty hwhole,
        Stateful.bind_error (runAt_of_error hmachine _ r), hhalt]
      rfl

/-! ### Agreement of the visit -/

theorem useCode_eq {code : Code} (small : code.bytes.length < 2 ^ 64) :
    (useCode ctx code : Machine R Unit) = ofVisit (ctx.useCode code) := by
  have hsize : code.bytes.toByteArray.size = code.bytes.length := List.size_toByteArray
  have hrest : Cursor.rest ⟨code.bytes.toByteArray, 0⟩ = code.bytes := by simp [Cursor.rest]
  have hwalk : (walk ctx ⟨code.bytes.toByteArray, 0⟩ : Machine R Unit) =
      ofVisit (ctx.useInstructions code.bytes.toByteArray.size 0
        (Cursor.rest ⟨code.bytes.toByteArray, 0⟩)) := walk_eq (by omega) (Nat.zero_le _)
  rw [useCode, hwalk, hrest, hsize, CodeContext.useCode, ofVisit_bind]

/-- The code of every method is small enough for the machine. -/
def SmallCode (method : Method) : Prop :=
  ∀ code, method.code = some code → code.bytes.length < 2 ^ 64

theorem useMethod_eq {file : ClassFile} {method : Method} (small : SmallCode method) :
    (useMethod file method : Machine R Unit) = ofVisit (file.useMethod method) := by
  rw [useMethod, ClassFile.useMethod]
  simp only [ofVisit_bind, bind_assoc]
  cases hcode : method.code with
  | none => rfl
  | some code =>
    simp only [useCode_eq (small code hcode)]

theorem forM_useMethod_eq {file : ClassFile} {methods : List Method}
    (small : ∀ method ∈ methods, SmallCode method) :
    (methods.forM (useMethod file) : Machine R Unit) = ofVisit (methods.forM file.useMethod) := by
  induction methods with
  | nil => rfl
  | cons method methods ih =>
    obtain ⟨hmethod, hmethods⟩ := List.forall_mem_cons.mp small
    have hsplit : (method :: methods).forM (ClassFile.useMethod (R := R) file) =
        (file.useMethod method >>= fun _ => methods.forM file.useMethod) := rfl
    rw [hsplit, ofVisit_bind, ← useMethod_eq hmethod, ← ih hmethods]
    rfl

/-- The code of an accepted class file has no more bytes than its limit, which a word can hold. -/
theorem smallCode_of_parse {data : ByteArray} {file : ClassFile}
    (accepted : ClassFile.parse data = .ok file) : ∀ method ∈ file.methods, SmallCode method := by
  obtain ⟨d, hscan⟩ := ClassFile.scan_of_parse accepted
  obtain ⟨layout, hfits, -, hresolve⟩ := ClassFile.layout_of_scan hscan
  have hpairs := ClassFile.holdsCode_of_layout hfits hresolve
  have hsmall : List.Forall₂ (fun method _ => SmallCode method ∧ True) file.methods layout.methods := by
    refine hpairs.flip.imp fun method m hlimits => ⟨fun code hcode => ?_, trivial⟩
    exact Nat.lt_of_le_of_lt (hlimits code hcode).2.2 (by decide)
  exact ((List.forall₂_and_left _ _).mp hsmall).1

/-- The machine visits a class file as the plain visit does. -/
theorem visit_eq {data : ByteArray} (small : data.size < 2 ^ 64) :
    (visit data : Machine R String) = ofVisit (ClassFile.visit data) := by
  rw [visit, ClassFile.visit, parse_eq small]
  cases hparse : ClassFile.parse data with
  | error e => rfl
  | ok file =>
    have hmethods : (file.methods.forM (useMethod file) : Machine R Unit) =
        ofVisit (file.methods.forM file.useMethod) := forM_useMethod_eq (smallCode_of_parse hparse)
    have hvisit : (liftM (.ok file : Except Fault ClassFile) >>= fun file => do
        file.useAll
        return file.record.name : Visit R String) = (do
          file.useAll
          return file.record.name) := rfl
    rw [hvisit, ClassFile.useAll]
    simp only [ofVisit_bind, bind_assoc, ← hmethods]
    rfl

/-- On every buffer whose size fits in a word, a visit on a machine ends as the plain visit does: with
the name of the class, or with a fault. It never forms a number that does not fit, never looks outside
a buffer and never stands still. -/
theorem visit_without_trap {data : ByteArray} (small : data.size < 2 ^ 64) (r : R) :
    (∃ name t, ClassFile.visit data r = .ok name t ∧ visit data r = .ok name t) ∨
      (∃ fault t, ClassFile.visit data r = .error fault t ∧
        visit data r = .error (.fault fault) t) := by
  rw [visit_eq small, ofVisit]
  cases ClassFile.visit data r with
  | ok name t => exact Or.inl ⟨name, t, rfl, rfl⟩
  | error fault t => exact Or.inr ⟨fault, t, rfl, rfl⟩

/-- `sample` has a method with two switches and every kind of operand. -/
theorem visit_without_trap_sample : ClassFile.sample.encode.toByteArray.size < 2 ^ 64 ∧
    ((∃ name t, ClassFile.visit ClassFile.sample.encode.toByteArray ({} : Events) = .ok name t ∧
        visit ClassFile.sample.encode.toByteArray {} = .ok name t) ∨
      (∃ fault t, ClassFile.visit ClassFile.sample.encode.toByteArray ({} : Events) = .error fault t ∧
        visit ClassFile.sample.encode.toByteArray {} = .error (.fault fault) t)) := by
  have hsmall : ClassFile.sample.encode.toByteArray.size < 2 ^ 64 := by
    have hlength : ClassFile.sample.encode.length = 397 := by decide +kernel
    rw [List.size_toByteArray, hlength]
    decide
  have hvisit := visit_without_trap hsmall ({} : Events)
  exact ⟨hsmall, hvisit⟩

end Machine
end ClassXref
