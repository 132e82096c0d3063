import ClassXref.Proofs.Bytecode.Failure
import ClassXref.Proofs.Bytes.SelfDelimiting
import ClassXref.Proofs.ClassFile.Medium
import ClassXref.Proofs.Index.History

/-! Where a class file is said to be cut short. Bytes are found wanting on two kinds of buffer, the file
and the code of a method, but every such report that a visit ends with speaks of the file: it names the
place where the reader of the file stands and the bytes that the file has left there. `Located` says so
of a scan and is kept by sequencing; that the walk of code says nothing of the kind is what `Stop`
gives. Which of several cuts comes first is not said here. -/
namespace ClassXref

/-- A want of bytes is one at `stop`, where the buffer has fewer bytes left than are needed. -/
def Fault.StandsAt (size stop : Nat) : Fault → Prop
  | truncated offset needed remaining => offset = stop ∧ stop + remaining = size ∧ remaining < needed
  | _ => True

theorem Fault.OfContent.standsAt {e : Fault} (h : e.OfContent) (size stop : Nat) :
    e.StandsAt size stop := by
  cases e with
  | truncated _ _ _ => exact h.elim
  | _ => exact trivial

/-! ### Scans -/

namespace Scan

/-- From everywhere in a buffer the scan stays in the buffer, and what it says of wanting bytes is true
of the place where it stops. -/
def Located {α : Type} (s : Scan α) : Prop :=
  ∀ (data : ByteArray) (start : Nat), start ≤ data.size →
    ∃ (verdict : Except Fault α) (stop : Nat), stop ≤ data.size ∧
      s ⟨data, start⟩ = (liftM verdict : Scan α) ⟨data, stop⟩ ∧
        Stateful.FailsWith (Fault.StandsAt data.size stop) verdict

variable {α β : Type} {s : Scan α}

theorem located_pure (a : α) : Located (pure a) :=
  fun _ start inside => ⟨.ok a, start, inside, rfl, Stateful.failsWith_ok a⟩

theorem located_throw {e : Fault} (h : e.OfContent) : Located (throw e : Scan α) :=
  fun data start inside =>
    ⟨.error e, start, inside, rfl, Stateful.failsWith_error (h.standsAt data.size start)⟩

theorem located_bind {next : α → Scan β} (h : Located s) (h' : ∀ a, Located (next a)) :
    Located (s >>= next) := by
  intro data start inside
  obtain ⟨verdict, middle, hmiddle, hs, hfails⟩ := h data start inside
  cases verdict with
  | error e =>
    exact ⟨.error e, middle, hmiddle, Stateful.bind_error hs,
      Stateful.failsWith_error (hfails e rfl)⟩
  | ok a =>
    obtain ⟨verdict, stop, hstop, hnext, hfails'⟩ := h' a data middle hmiddle
    exact ⟨verdict, stop, hstop, (Stateful.bind_ok hs).trans hnext, hfails'⟩

theorem located_position : Located position :=
  fun _ start inside => ⟨.ok start, start, inside, rfl, Stateful.failsWith_ok start⟩

theorem located_remaining : Located remaining :=
  fun _ start inside => ⟨.ok _, start, inside, rfl, Stateful.failsWith_ok _⟩

theorem located_take (n : Nat) : Located (take n) := by
  intro data start inside
  have hleft : start + (Cursor.mk data start).remaining = data.size := Nat.add_sub_cancel' inside
  rcases Nat.lt_or_ge (Cursor.mk data start).remaining n with hshort | hlong
  · exact ⟨.error _, start, inside, take_eq_error hshort,
      Stateful.failsWith_error ⟨rfl, hleft, hshort⟩⟩
  · exact ⟨.ok _, start + n, by omega, take_eq_ok hlong, Stateful.failsWith_ok _⟩

theorem located_seek (place : Nat) : Located (seek place) := by
  intro data start inside
  by_cases hplace : place ≤ data.size
  · exact ⟨.ok (), place, hplace, seek_eq_ok hplace, Stateful.failsWith_ok ()⟩
  · have hleft : start + (Cursor.mk data start).remaining = data.size := Nat.add_sub_cancel' inside
    exact ⟨.error (.truncated start (place - start) (Cursor.mk data start).remaining), start, inside,
      seek_eq_error (Nat.not_le.mp hplace), Stateful.failsWith_error ⟨rfl, hleft, by omega⟩⟩

/-- The length of an attribute is compared with what the file has left. -/
theorem located_enter (length : UInt32) : Located (enter length) := by
  intro data start inside
  have hleft : start + (Cursor.mk data start).remaining = data.size := Nat.add_sub_cancel' inside
  by_cases hshort : (Cursor.mk data start).remaining < length.toNat
  · exact ⟨.error _, start, inside, enter_of_lt hshort,
      Stateful.failsWith_error ⟨rfl, hleft, hshort⟩⟩
  · exact ⟨.ok _, start, inside, enter_of_not_lt hshort, Stateful.failsWith_ok _⟩

theorem located_leave (name : String) (length : UInt32) (stop : Nat) :
    Located (leave name length stop) := by
  refine located_bind located_position fun reached => ?_
  by_cases hover : stop < reached
  · rw [if_pos hover]
    exact located_throw trivial
  · rw [if_neg hover]
    exact located_seek stop

/-- The cursor is a medium itself, which keeps no record of the slots. -/
instance : Medium Scan where
  fail e := throw e
  u8 := u8
  u16 := u16
  u32 := u32
  take := take
  position := position
  remaining := remaining
  slot _ := return ()
  enter := enter
  leave := leave

theorem located_simulation : Simulation Scan fun _ s => Located s where
  pure := located_pure
  bind := located_bind
  fail := located_throw
  u8 := located_bind (located_take 1) fun _ => located_pure _
  u16 := located_bind (located_take 2) fun _ => located_pure _
  u32 := located_bind (located_take 4) fun _ => located_pure _
  take := located_take
  position := located_position
  remaining := located_remaining
  slot _ := located_pure ()
  enter := located_enter
  leave := located_leave

end Scan

/-! ### Visits -/

namespace ClassFile

variable {R : Type} [Recorder R] {r t : R} {e : Fault} {data : ByteArray}
  {offset needed remaining : Nat}

/-- The reader of the file stands at `offset`, and wants more bytes than the file has left there. -/
structure RunsShort (data : ByteArray) (offset needed remaining : Nat) : Prop where
  stops : scan { data } = .error (.truncated offset needed remaining) ⟨data, offset⟩
  left : offset + remaining = data.size
  wanting : remaining < needed

theorem parse_truncated_iff :
    parse data = .error (.truncated offset needed remaining) ↔
      RunsShort data offset needed remaining := by
  constructor
  · intro h
    obtain ⟨verdict, stop, -, hscan, hfails⟩ :=
      Scan.located_simulation.classFile data 0 (Nat.zero_le _)
    rw [parse, Scan.run, EStateM.run, hscan] at h
    cases verdict with
    | ok file => cases h
    | error fault =>
      cases h
      obtain ⟨rfl, hleft, hwanting⟩ := hfails _ rfl
      exact ⟨hscan, hleft, hwanting⟩
  · intro h
    rw [parse, Scan.run, EStateM.run, h.stops]

theorem useField_eq_error {owner : String} {f : Field} (h : useField owner f r = .error e t) :
    e.OfReference := by
  have hfound := (Visit.useFound_eq_error_iff (List.map Symbol.ofClass)).mp h
  exact Descriptor.failsWith_fieldClasses f.descriptor e hfound.1

theorem useCode_ofContent {ctx : CodeContext} {code : Code} (h : ctx.useCode code r = .error e t) :
    e.OfContent := by
  obtain ⟨_, _, _, _, _, -, -, -, hstop, -⟩ :=
    CodeContext.useInstructions_eq_error (CodeContext.useCode_eq_error_iff.mp h)
  cases e with
  | truncated start needed remaining => exact hstop.ne_truncated start needed remaining rfl
  | _ => exact trivial

theorem useMethod_ofContent {file : ClassFile} {m : Method} (h : file.useMethod m r = .error e t) :
    e.OfContent := by
  unfold useMethod Visit.useClasses at h
  rcases Stateful.bind_eq_error_iff.mp h with hdescriptor | ⟨names, _, -, h⟩
  · have hfault := (Stateful.liftM_eq_error_iff.mp hdescriptor).1
    exact (Descriptor.failsWith_methodClasses m.descriptor e hfault).ofContent
  · rw [Stateful.bind_ok (Visit.useAll_run _ _ _), Stateful.bind_ok (Visit.useAll_run _ _ _)] at h
    cases hcode : m.code with
    | none =>
      rw [hcode] at h
      cases h
    | some code =>
      rw [hcode] at h
      exact useCode_ofContent h

/-- No report on what a class file refers to speaks of wanting bytes. -/
theorem useAll_ofContent {file : ClassFile} (h : file.useAll r = .error e t) : e.OfContent := by
  unfold useAll Visit.useClasses at h
  have hdeclare : (Visit.declare file.record : Visit R Unit) r =
      .ok () (Recorder.record r (.declared file.record)) := rfl
  rw [Stateful.bind_ok hdeclare, Stateful.bind_ok (Visit.useAll_run _ _ _)] at h
  rcases Stateful.bind_eq_error_iff.mp h with hfields | ⟨_, _, -, hmethods⟩
  · obtain ⟨_, _, _, _, -, -, hbad⟩ := Visit.forM_eq_error (useField_eq_ok_iff _) hfields
    exact (useField_eq_error hbad).ofContent
  · obtain ⟨_, _, _, _, -, -, hbad⟩ := Visit.forM_eq_error (useMethod_eq_ok_iff file) hmethods
    exact useMethod_ofContent hbad

theorem visit_eq_error_iff :
    visit data r = .error e t ↔
      parse data = .error e ∧ t = r ∨ ∃ file, parse data = .ok file ∧ file.useAll r = .error e t := by
  unfold visit
  simp only [Stateful.bind_eq_error_iff, Stateful.liftM_eq_error_iff, Stateful.liftM_eq_ok_iff]
  constructor
  · rintro (⟨he, rfl⟩ | ⟨file, _, ⟨hfile, rfl⟩, huses | ⟨_, _, -, hpure⟩⟩)
    · exact Or.inl ⟨he, rfl⟩
    · exact Or.inr ⟨file, hfile, huses⟩
    · cases hpure
  · rintro (⟨he, rfl⟩ | ⟨file, hfile, huses⟩)
    · exact Or.inl ⟨he, rfl⟩
    · exact Or.inr ⟨file, r, ⟨hfile, rfl⟩, Or.inl huses⟩

theorem visit_truncated_iff :
    visit data r = .error (.truncated offset needed remaining) t ↔
      RunsShort data offset needed remaining ∧ t = r := by
  rw [visit_eq_error_iff, parse_truncated_iff]
  constructor
  · rintro (h | ⟨file, -, huses⟩)
    · exact h
    · exact (useAll_ofContent huses).elim
  · exact Or.inl

/-- A visit, and so the addition to an index, fails for want of bytes just where the reader of the file
stands before more bytes than the file has left. Place and count are those of the file, and nothing has
been reported or added. -/
theorem truncation_located (R : Type) [Recorder R] (data : ByteArray)
    (offset needed remaining : Nat) :
    (∀ r t : R, visit data r = .error (.truncated offset needed remaining) t ↔
      RunsShort data offset needed remaining ∧ t = r) ∧
    (∀ index after, Index.add data index = .error (.truncated offset needed remaining) after ↔
      RunsShort data offset needed remaining ∧ after = index) := by
  refine ⟨fun r t => visit_truncated_iff, fun index after => ?_⟩
  constructor
  · intro h
    cases hvisit : visit data ({} : Events) with
    | ok name events =>
      rw [Index.add_eq_ok hvisit] at h
      cases h
    | error fault events =>
      rw [Index.add_eq_error hvisit] at h
      cases h
      exact ⟨(visit_truncated_iff.mp hvisit).1, rfl⟩
  · rintro ⟨hshort, rfl⟩
    exact Index.add_eq_error (visit_truncated_iff.mpr ⟨hshort, rfl⟩)

/-- Three bytes of the magic number. -/
example : visit ⟨#[0xca, 0xfe, 0xba]⟩ ({} : Events) = .error (.truncated 0 4 3) {} := by rfl

end ClassFile
end ClassXref
