import ClassXref.ClassFile.Reader
import ClassXref.Proofs.Bytes.Reads
import ClassXref.Proofs.Pool.Failure

/-! The reading of a class file from any medium. A medium provides numbers, runs of bytes and the two
ends of an attribute; `Medium.classFile` is the reader written with nothing else. A medium may keep
records of its own or refuse what the plain cursor allows. Where its provisions stand in a relation to
those of the cursor that sequencing keeps, its reader stands in that relation to `ClassFile.scan`:
that is the main statement, proved once for all relations. -/
namespace ClassXref

/-- What the reading of a class file asks of the medium it reads from. -/
class Medium (m : Type → Type) extends Monad m where
  fail {α : Type} (fault : Fault) : m α
  u8 : m UInt8
  u16 : m UInt16
  u32 : m UInt32
  /-- The next bytes. -/
  take (count : Nat) : m (List UInt8)
  position : m Nat
  remaining : m Nat
  /-- Forms the number of a slot of the pool. -/
  slot (index : Nat) : m Unit
  /-- The end of an attribute whose length has just been read. -/
  enter (length : UInt32) : m Nat
  /-- Goes on at the end of an attribute whose body has been looked at. -/
  leave (name : String) (length : UInt32) (stop : Nat) : m Unit

namespace Medium

variable {m : Type → Type} [Medium m] {α σ : Type}

/-! ### Fields -/

def ofVerdict : Except Fault α → m α
  | .ok a => pure a
  | .error e => fail e

def i32 : m Int32 := return (← u32).toInt32

def u64 : m UInt64 := do
  let high ← u32
  let low ← u32
  return UInt64.ofNat (high.toNat * 0x100000000 + low.toNat)

def utf8 (count : Nat) : m String := do
  let offset ← position
  match ModifiedUtf8.decode? (← take count) with
  | some text => return text
  | none => fail (.malformed (.invalidUtf8 offset))

def times (count : Nat) (entry : m α) : m (List α) :=
  go count []
where
  go : Nat → List α → m (List α)
    | 0, found => return found.reverse
    | n + 1, found => do go n ((← entry) :: found)

def iterate (count : Nat) (step : σ → m σ) (start : σ) : m σ :=
  match count with
  | 0 => return start
  | n + 1 => do iterate n step (← step start)

def table (entry : m α) : m (List α) := do
  let count ← u16
  times count.toNat entry

/-! ### The constant pool -/

def constantBody : ConstantKind → m Constant
  | .utf8 => do
    let length ← u16
    return .utf8 (← utf8 length.toNat)
  | .integer => return .integer (← i32)
  | .float => return .float (← u32)
  | .long => return .long (← u64).toInt64
  | .double => return .double (← u64)
  | .classRef => return .classRef (← u16)
  | .string => return .string (← u16)
  | .fieldRef => return .fieldRef (← u16) (← u16)
  | .methodRef => return .methodRef (← u16) (← u16)
  | .interfaceMethodRef => return .interfaceMethodRef (← u16) (← u16)
  | .nameAndType => return .nameAndType (← u16) (← u16)
  | .methodHandle => return .methodHandle (← u8) (← u16)
  | .methodType => return .methodType (← u16)
  | .dynamic => return .dynamic (← u16) (← u16)
  | .invokeDynamic => return .invokeDynamic (← u16) (← u16)
  | .module => return .module (← u16)
  | .package => return .package (← u16)

def constant (index : Nat) : m Constant := do
  let tag ← u8
  match ConstantKind.ofTag? tag with
  | some kind => constantBody kind
  | none => fail (.unknownTag tag (UInt16.ofNat index))

/-- The slots from `index` up to `count`. The number of each further slot is formed before it is used. -/
def slots (count index : Nat) (found : Array (Option Constant)) : m (Array (Option Constant)) :=
  if index < count then do
    let entry ← constant index
    if entry.isWide then do
      slot (index + 1)
      if index + 1 < count then do
        slot (index + 1)
        slot (index + 2)
        slots count (index + 2) ((found.push (some entry)).push none)
      else fail (.malformed (.wideOverrun (UInt16.ofNat index)))
    else do
      slot (index + 1)
      slots count (index + 1) (found.push (some entry))
  else return found
termination_by count - index

def pool (count : UInt16) : m Pool :=
  if count = 0 then fail (.malformed .noPool)
  else return ⟨← slots count.toNat 1 #[none]⟩

/-! ### Attributes, fields and methods -/

def className (pool : Pool) : m String := do
  ofVerdict (pool.className (← u16))

def text (pool : Pool) : m String := do
  ofVerdict (pool.utf8 (← u16))

def readAttribute (pool : Pool) (body : String → σ → m σ) (state : σ) : m σ := do
  let name ← text pool
  let length ← u32
  let stop ← enter length
  let state ← body name state
  leave name length stop
  return state

def readAttributes (pool : Pool) (body : String → σ → m σ) (start : σ) : m σ := do
  let count ← u16
  iterate count.toNat (readAttribute pool body) start

def skipAttributes (pool : Pool) : m Unit :=
  readAttributes pool (fun _ _ => return ()) ()

def field (pool : Pool) : m Field := do
  let access ← u16
  let name ← text pool
  let descriptor ← text pool
  skipAttributes pool
  return { access, name, descriptor }

def handler (pool : Pool) : m Handler := do
  let startPc ← u16
  let endPc ← u16
  let handlerPc ← u16
  let index ← u16
  if index = 0 then return { startPc, endPc, handlerPc, catchType := none }
  else return { startPc, endPc, handlerPc, catchType := some (← ofVerdict (pool.className index)) }

def code (pool : Pool) : m Code := do
  let _maxStack ← u16
  let _maxLocals ← u16
  let length ← u32
  if length = 0 ∨ ClassFile.maxCodeLength < length then fail (.malformed (.codeLength length))
  else do
    let bytes ← take length.toNat
    let handlers ← table (handler pool)
    skipAttributes pool
    return { bytes, handlers }

def methodAttribute (pool : Pool) (name descriptor found : String) (body : ClassFile.MethodBody) :
    m ClassFile.MethodBody :=
  if found = "Code" then
    if body.code.isSome then fail (.malformed (.secondCode name descriptor))
    else return { body with code := some (← code pool) }
  else if found = "Exceptions" then
    return { body with exceptions := body.exceptions ++ (← table (className pool)) }
  else return body

def method (pool : Pool) : m Method := do
  let access ← u16
  let name ← text pool
  let descriptor ← text pool
  let body ← readAttributes pool (methodAttribute pool name descriptor) {}
  return { access, name, descriptor, exceptions := body.exceptions, code := body.code }

/-! ### The class -/

def bootstrapMethod : m BootstrapMethod := do
  let handle ← u16
  let arguments ← table u16
  return { handle, arguments }

def classAttribute (found : String) (earlier : List BootstrapMethod) : m (List BootstrapMethod) :=
  if found = "BootstrapMethods" then table bootstrapMethod else return earlier

def superName (pool : Pool) (name : String) (access : ClassAccess) : m (Option String) := do
  let index ← u16
  if index = 0 then
    if name = rootClass ∨ access.isModule then return none
    else fail (.malformed (.noSuperClass name))
  else return some (← ofVerdict (pool.className index))

def header : m UInt16 := do
  let found ← u32
  if found ≠ ClassFile.magic then fail (.malformed (.magic found))
  else do
    let _minor ← u16
    let major ← u16
    if major < ClassFile.minMajorVersion ∨ ClassFile.maxMajorVersion < major then
      fail (.malformed (.majorVersion major))
    else return major

def atEnd : m Unit := do
  let left ← remaining
  if left = 0 then return () else fail (.malformed (.trailingBytes left))

/-- A class file from its first byte to its last. -/
def classFile : m ClassFile := do
  let majorVersion ← header
  let count ← u16
  let pool ← pool count
  let access : ClassAccess := ⟨← u16⟩
  let name ← className pool
  let superName ← superName pool name access
  let interfaces ← table (className pool)
  let fields ← table (field pool)
  let methods ← table (method pool)
  let bootstrapMethods ← readAttributes pool classAttribute []
  atEnd
  return { record := { name, superName, interfaces, access }, majorVersion, pool, fields, methods,
           bootstrapMethods }

end Medium

/-! ### The ends of an attribute on the cursor -/

namespace Scan

/-- The end of an attribute of this length, which must not lie behind the end of the buffer. -/
def enter (length : UInt32) : Scan Nat := do
  let start ← position
  let left ← remaining
  if left < length.toNat then throw (.truncated start length.toNat left)
  else return start + length.toNat

/-- Goes on at the end of an attribute, which must not have been passed. -/
def leave (name : String) (length : UInt32) (stop : Nat) : Scan Unit := do
  let reached ← position
  if stop < reached then throw (.malformed (.attributeOverrun name length))
  else seek stop

variable {c : Cursor} {length : UInt32} {name : String} {stop : Nat}

theorem enter_of_lt (h : c.remaining < length.toNat) :
    enter length c = .error (.truncated c.position length.toNat c.remaining) c := by
  rw [enter, position_bind, remaining_bind, if_pos h]
  rfl

theorem enter_of_not_lt (h : ¬ c.remaining < length.toNat) :
    enter length c = .ok (c.position + length.toNat) c := by
  rw [enter, position_bind, remaining_bind, if_neg h]
  rfl

theorem leave_of_lt (h : stop < c.position) :
    leave name length stop c = .error (.malformed (.attributeOverrun name length)) c := by
  rw [leave, position_bind, if_pos h]
  rfl

theorem leave_of_not_lt (h : ¬ stop < c.position) : leave name length stop c = seek stop c := by
  rw [leave, position_bind, if_neg h]

end Scan

namespace ClassFile

variable {σ : Type} {pool : Pool}

theorem readAttribute_eq (body : String → σ → Scan σ) (state : σ) :
    readAttribute pool body state = (do
      let name ← text pool
      let length ← Scan.u32
      let stop ← Scan.enter length
      let state ← body name state
      Scan.leave name length stop
      return state) := by
  refine bind_congr fun name => bind_congr fun length => funext fun c => ?_
  rw [Scan.position_bind, Scan.remaining_bind]
  by_cases hshort : c.remaining < length.toNat
  · rw [if_pos hshort, Stateful.bind_error (Scan.enter_of_lt hshort)]
    rfl
  · rw [if_neg hshort, Stateful.bind_ok (Scan.enter_of_not_lt hshort)]
    refine congrFun (bind_congr fun state => funext fun d => ?_) c
    rw [Scan.position_bind]
    by_cases hover : c.position + length.toNat < d.position
    · rw [if_pos hover, Stateful.bind_error (Scan.leave_of_lt hover)]
      rfl
    · rw [if_neg hover]
      simp only [bind, EStateM.bind, Scan.leave_of_not_lt hover]

end ClassFile

/-! ### Simulation -/

/-- Faults of what a file says. That bytes are wanting is found by the provisions of the medium alone. -/
def Fault.OfContent : Fault → Prop
  | truncated _ _ _ => False
  | _ => True

theorem Fault.OfReference.ofContent {e : Fault} (h : e.OfReference) : e.OfContent := by
  cases e with
  | truncated _ _ _ => exact h
  | _ => exact trivial

/-- A relation between the computations of a medium and those of the cursor that holds for what a medium
provides, and that sequencing keeps. -/
structure Simulation (m : Type → Type) [Medium m] (rel : ∀ {α : Type}, m α → Scan α → Prop) :
    Prop where
  pure {α : Type} (a : α) : rel (pure a) (pure a)
  bind {α β : Type} {x : m α} {s : Scan α} {f : α → m β} {g : α → Scan β} :
    rel x s → (∀ a, rel (f a) (g a)) → rel (x >>= f) (s >>= g)
  fail {α : Type} {e : Fault} : e.OfContent → rel (Medium.fail e : m α) (throw e)
  u8 : rel (Medium.u8 : m UInt8) Scan.u8
  u16 : rel (Medium.u16 : m UInt16) Scan.u16
  u32 : rel (Medium.u32 : m UInt32) Scan.u32
  take (n : Nat) : rel (Medium.take n : m (List UInt8)) (Scan.take n)
  position : rel (Medium.position : m Nat) Scan.position
  remaining : rel (Medium.remaining : m Nat) Scan.remaining
  slot {index : Nat} : index < 65536 → rel (Medium.slot index : m Unit) (Pure.pure ())
  enter (length : UInt32) : rel (Medium.enter length : m Nat) (Scan.enter length)
  leave (name : String) (length : UInt32) (stop : Nat) :
    rel (Medium.leave name length stop : m Unit) (Scan.leave name length stop)

namespace Simulation

variable {m : Type → Type} [Medium m] {rel : ∀ {α : Type}, m α → Scan α → Prop} {α β σ : Type}
variable {x y : m α} {s t : Scan α}

omit [Medium m] in
theorem branch {P : Prop} [Decidable P] (hx : rel x s) (hy : rel y t) :
    rel (if P then x else y) (if P then s else t) := by
  by_cases h : P
  · rw [if_pos h, if_pos h]
    exact hx
  · rw [if_neg h, if_neg h]
    exact hy

variable (sim : Simulation m rel)
include sim

theorem ofVerdict {v : Except Fault α} (h : Stateful.FailsWith Fault.OfReference v) :
    rel (Medium.ofVerdict v : m α) (liftM v : Scan α) := by
  cases v with
  | ok a => exact sim.pure a
  | error e => exact sim.fail (h e rfl).ofContent

/-- A number of a slot is formed without a trace on the cursor. -/
theorem slot_bind {index : Nat} (h : index < 65536) (hx : rel x s) :
    rel (do Medium.slot index; x) s :=
  sim.bind (sim.slot h) fun _ => hx

theorem map (h : rel x s) (f : α → β) : rel (do return f (← x)) (do return f (← s)) :=
  sim.bind h fun a => sim.pure (f a)

theorem i32 : rel (Medium.i32 : m Int32) Scan.i32 :=
  sim.map sim.u32 UInt32.toInt32

theorem u64 : rel (Medium.u64 : m UInt64) Scan.u64 :=
  sim.bind sim.u32 fun _ => sim.map sim.u32 _

theorem utf8 (n : Nat) : rel (Medium.utf8 n : m String) (Scan.utf8 n) := by
  refine sim.bind sim.position fun offset => sim.bind (sim.take n) fun bytes => ?_
  cases ModifiedUtf8.decode? bytes with
  | some text => exact sim.pure text
  | none => exact sim.fail trivial

theorem times (h : rel x s) (n : Nat) : rel (Medium.times n x) (Scan.times n s) := by
  suffices hgo : ∀ found, rel (Medium.times.go x n found) (Scan.times.go s n found) from hgo []
  induction n with
  | zero =>
    intro found
    exact sim.pure found.reverse
  | succ n ih =>
    intro found
    exact sim.bind h fun a => ih (a :: found)

theorem iterate {f : σ → m σ} {g : σ → Scan σ} (h : ∀ state, rel (f state) (g state)) (n : Nat)
    (start : σ) : rel (Medium.iterate n f start) (Scan.iterate n g start) := by
  induction n generalizing start with
  | zero => exact sim.pure start
  | succ n ih => exact sim.bind (h start) ih

theorem table (h : rel x s) : rel (Medium.table x) (ClassFile.table s) :=
  sim.bind sim.u16 fun count => sim.times h count.toNat

/-! ### The constant pool -/

theorem constantIndex (build : UInt16 → Constant) :
    rel (do return build (← Medium.u16) : m Constant) (do return build (← Scan.u16)) :=
  sim.map sim.u16 build

theorem constantPair (build : UInt16 → UInt16 → Constant) :
    rel (do return build (← Medium.u16) (← Medium.u16) : m Constant)
      (do return build (← Scan.u16) (← Scan.u16)) :=
  sim.bind sim.u16 fun first => sim.constantIndex (build first)

theorem constantBody (kind : ConstantKind) :
    rel (Medium.constantBody kind : m Constant) (Constant.readBody kind) := by
  cases kind with
  | utf8 => exact sim.bind sim.u16 fun length => sim.map (sim.utf8 length.toNat) _
  | integer => exact sim.map sim.i32 _
  | float => exact sim.map sim.u32 _
  | long | double => exact sim.map sim.u64 _
  | classRef | string | methodType | module | package => exact sim.constantIndex _
  | fieldRef | methodRef | interfaceMethodRef | nameAndType | dynamic | invokeDynamic =>
    exact sim.constantPair _
  | methodHandle => exact sim.bind sim.u8 fun handle => sim.constantIndex _

theorem constant (index : Nat) : rel (Medium.constant index : m Constant) (Constant.read index) := by
  refine sim.bind sim.u8 fun tag => ?_
  cases ConstantKind.ofTag? tag with
  | none => exact sim.fail trivial
  | some kind => exact sim.constantBody kind

/-- Below the count every number of a slot fits, also that behind a wide constant. -/
theorem slots {count index : Nat} {found : Array (Option Constant)} (hcount : count < 65536)
    (hindex : index = found.size) :
    rel (Medium.slots count index found : m (Array (Option Constant)))
      (Pool.readSlots count found) := by
  induction found using Pool.readSlots.induct count generalizing index with
  | case1 found hopen ihWide ihNarrow =>
    subst hindex
    rw [Medium.slots, Pool.readSlots, if_pos hopen, if_pos hopen]
    refine sim.bind (sim.constant found.size) fun entry => ?_
    by_cases hwide : entry.isWide = true
    · rw [if_pos hwide, if_pos hwide]
      refine sim.slot_bind (by omega) ?_
      by_cases hroom : found.size + 1 < count
      · rw [if_pos hroom, if_pos hroom]
        exact sim.slot_bind (by omega) (sim.slot_bind (by omega)
          (ihWide entry hroom (by simp only [Array.size_push])))
      · rw [if_neg hroom, if_neg hroom]
        exact sim.fail trivial
    · rw [if_neg hwide, if_neg hwide]
      exact sim.slot_bind (by omega) (ihNarrow entry (by simp only [Array.size_push]))
  | case2 found hfull =>
    subst hindex
    rw [Medium.slots, Pool.readSlots, if_neg hfull, if_neg hfull]
    exact sim.pure found

theorem pool (count : UInt16) : rel (Medium.pool count : m Pool) (Pool.read count) :=
  have hslots : rel (Medium.slots count.toNat 1 #[none] : m (Array (Option Constant)))
      (Pool.readSlots count.toNat #[none]) := sim.slots count.toNat_lt rfl
  branch (sim.fail trivial) (sim.map hslots _)

/-! ### Attributes, fields and methods -/

theorem className (pool : Pool) : rel (Medium.className pool : m String) (ClassFile.className pool) :=
  sim.bind sim.u16 fun index => sim.ofVerdict (pool.failsWith_className index)

theorem text (pool : Pool) : rel (Medium.text pool : m String) (ClassFile.text pool) :=
  sim.bind sim.u16 fun index => sim.ofVerdict (pool.failsWith_utf8 index)

theorem readAttribute {pool : Pool} {f : String → σ → m σ} {g : String → σ → Scan σ}
    (h : ∀ name state, rel (f name state) (g name state)) (state : σ) :
    rel (Medium.readAttribute pool f state) (ClassFile.readAttribute pool g state) := by
  rw [ClassFile.readAttribute_eq]
  exact sim.bind (sim.text pool) fun name => sim.bind sim.u32 fun length =>
    sim.bind (sim.enter length) fun stop => sim.bind (h name state) fun state =>
      sim.bind (sim.leave name length stop) fun _ => sim.pure state

theorem readAttributes {pool : Pool} {f : String → σ → m σ} {g : String → σ → Scan σ}
    (h : ∀ name state, rel (f name state) (g name state)) (start : σ) :
    rel (Medium.readAttributes pool f start) (ClassFile.readAttributes pool g start) :=
  sim.bind sim.u16 fun count => sim.iterate (sim.readAttribute h) count.toNat start

theorem skipAttributes (pool : Pool) :
    rel (Medium.skipAttributes pool : m Unit) (ClassFile.skipAttributes pool) :=
  sim.readAttributes (fun _ _ => sim.pure ()) ()

theorem field (pool : Pool) : rel (Medium.field pool : m Field) (ClassFile.field pool) :=
  sim.bind sim.u16 fun _ => sim.bind (sim.text pool) fun _ => sim.bind (sim.text pool) fun _ =>
    sim.bind (sim.skipAttributes pool) fun _ => sim.pure _

theorem handler (pool : Pool) : rel (Medium.handler pool : m Handler) (ClassFile.handler pool) :=
  sim.bind sim.u16 fun _ => sim.bind sim.u16 fun _ => sim.bind sim.u16 fun _ =>
    sim.bind sim.u16 fun index =>
      branch (sim.pure _) (sim.map (sim.ofVerdict (pool.failsWith_className index)) _)

theorem code (pool : Pool) : rel (Medium.code pool : m Code) (ClassFile.code pool) :=
  sim.bind sim.u16 fun _ => sim.bind sim.u16 fun _ => sim.bind sim.u32 fun length =>
    branch (sim.fail trivial) (sim.bind (sim.take length.toNat) fun _ =>
      sim.bind (sim.table (sim.handler pool)) fun _ =>
        sim.bind (sim.skipAttributes pool) fun _ => sim.pure _)

theorem methodAttribute (pool : Pool) (name descriptor found : String) (body : ClassFile.MethodBody) :
    rel (Medium.methodAttribute pool name descriptor found body : m ClassFile.MethodBody)
      (ClassFile.methodAttribute pool name descriptor found body) :=
  branch (branch (sim.fail trivial) (sim.map (sim.code pool) _))
    (branch (sim.map (sim.table (sim.className pool)) _) (sim.pure body))

theorem method (pool : Pool) : rel (Medium.method pool : m Method) (ClassFile.method pool) :=
  sim.bind sim.u16 fun _ => sim.bind (sim.text pool) fun name =>
    sim.bind (sim.text pool) fun descriptor =>
      sim.bind (sim.readAttributes (sim.methodAttribute pool name descriptor) {}) fun _ => sim.pure _

/-! ### The class -/

theorem bootstrapMethod : rel (Medium.bootstrapMethod : m BootstrapMethod) ClassFile.bootstrapMethod :=
  sim.bind sim.u16 fun _ => sim.map (sim.table sim.u16) _

theorem classAttribute (found : String) (earlier : List BootstrapMethod) :
    rel (Medium.classAttribute found earlier : m (List BootstrapMethod))
      (ClassFile.classAttribute found earlier) :=
  branch (sim.table sim.bootstrapMethod) (sim.pure earlier)

theorem superName (pool : Pool) (name : String) (access : ClassAccess) :
    rel (Medium.superName pool name access : m (Option String))
      (ClassFile.superName pool name access) :=
  sim.bind sim.u16 fun index => branch (branch (sim.pure none) (sim.fail trivial))
    (sim.map (sim.ofVerdict (pool.failsWith_className index)) _)

theorem header : rel (Medium.header : m UInt16) ClassFile.header :=
  sim.bind sim.u32 fun _ => branch (sim.fail trivial) (sim.bind sim.u16 fun _ => sim.bind sim.u16 fun _ =>
    branch (sim.fail trivial) (sim.pure _))

theorem atEnd : rel (Medium.atEnd : m Unit) ClassFile.atEnd :=
  sim.bind sim.remaining fun _ => branch (sim.pure ()) (sim.fail trivial)

/-- What holds of the provisions of a medium holds of the reading of a whole class file. -/
theorem classFile : rel (Medium.classFile : m ClassFile) ClassFile.scan :=
  sim.bind sim.header fun _ => sim.bind sim.u16 fun count => sim.bind (sim.pool count) fun pool =>
    sim.bind sim.u16 fun access => sim.bind (sim.className pool) fun name =>
      sim.bind (sim.superName pool name ⟨access⟩) fun _ =>
        sim.bind (sim.table (sim.className pool)) fun _ =>
          sim.bind (sim.table (sim.field pool)) fun _ =>
            sim.bind (sim.table (sim.method pool)) fun _ =>
              sim.bind (sim.readAttributes sim.classAttribute []) fun _ =>
                sim.bind sim.atEnd fun _ => sim.pure _

end Simulation
end ClassXref
