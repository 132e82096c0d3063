import ClassXref.Proofs.ClassFile.RoundTrip
import ClassXref.Proofs.Descriptor.RoundTrip
import ClassXref.Proofs.Index.History

/-! What the keys of the index tell apart. A member is written with colons between its parts, and nothing
keeps colons out of the parts, so that members with other owners and names can share a key, also with a
class. The parts can be told from the text and the number of colons in each of them: a member whose owner
and name hold no colon shares its key only with members and classes that do. Descriptors may hold any
number of colons. Whether a member is a field or a method is not part of its key. -/
namespace ClassXref

/-- The colons in the owner and in the name of a member. -/
def MemberRef.colons (m : MemberRef) : Nat × Nat :=
  (m.owner.toList.count ':', m.name.toList.count ':')

/-- The member that a symbol stands for, if it is no class. -/
def Symbol.member? : Symbol → Option MemberRef
  | .ofClass _ => none
  | .ofMethod m | .ofField m => some m

/-! ### Texts of members -/

theorem append_cons_inj_of_count {α : Type} [DecidableEq α] {a : α} {xs xs' ys ys' : List α}
    (h : xs ++ a :: ys = xs' ++ a :: ys') (hcount : xs.count a = xs'.count a) :
    xs = xs' ∧ ys = ys' := by
  induction xs generalizing xs' with
  | nil =>
    cases xs' with
    | nil => exact ⟨rfl, List.tail_eq_of_cons_eq h⟩
    | cons x xs' =>
      obtain ⟨rfl, -⟩ := List.cons.inj h
      simp at hcount
  | cons x xs ih =>
    cases xs' with
    | nil =>
      obtain ⟨rfl, -⟩ := List.cons.inj h
      simp at hcount
    | cons x' xs' =>
      obtain ⟨rfl, htail⟩ := List.cons.inj h
      have hrest : xs.count a = xs'.count a := by
        rw [List.count_cons, List.count_cons] at hcount
        exact Nat.add_right_cancel hcount
      obtain ⟨rfl, rfl⟩ := ih htail hrest
      exact ⟨rfl, rfl⟩

namespace MemberRef

variable {m m' : MemberRef}

theorem toList_text (m : MemberRef) : m.text.toList =
    m.owner.toList ++ ':' :: (m.name.toList ++ ':' :: m.descriptor.toList) := by
  simp [text]

/-- The text and the colons of its parts determine a member. -/
theorem eq_iff_text_colons : m.text = m'.text ∧ m.colons = m'.colons ↔ m = m' := by
  constructor
  · rintro ⟨htext, hcolons⟩
    obtain ⟨howner, hname⟩ := Prod.mk.inj hcolons
    have hlist := congrArg String.toList htext
    rw [toList_text, toList_text] at hlist
    obtain ⟨hownerEq, hrest⟩ := append_cons_inj_of_count hlist howner
    obtain ⟨hnameEq, hdescriptorEq⟩ := append_cons_inj_of_count hrest hname
    obtain ⟨owner, name, descriptor⟩ := m
    obtain ⟨owner', name', descriptor'⟩ := m'
    cases String.toList_inj.mp hownerEq
    cases String.toList_inj.mp hnameEq
    cases String.toList_inj.mp hdescriptorEq
    rfl
  · rintro rfl
    exact ⟨rfl, rfl⟩

theorem exists_text_of_split {name : String} {xs ys zs : List Char}
    (h : name.toList = xs ++ ':' :: (ys ++ ':' :: zs)) : ∃ m : MemberRef, m.text = name := by
  refine ⟨⟨String.ofList xs, String.ofList ys, String.ofList zs⟩, String.toList_inj.mp ?_⟩
  rw [toList_text, h]
  simp only [String.toList_ofList]

/-- The texts of members are those with two colons or more. -/
theorem exists_text_iff {name : String} :
    (∃ m : MemberRef, m.text = name) ↔ 2 ≤ name.toList.count ':' := by
  constructor
  · rintro ⟨m, rfl⟩
    rw [toList_text, List.count_append, List.count_cons_self, List.count_append, List.count_cons_self]
    omega
  · intro htwo
    obtain ⟨xs, ys, hsplit⟩ := List.append_of_mem (List.count_pos_iff.mp (Nat.lt_of_succ_lt htwo))
    -- The other colon stands on one side of the first that was found.
    have hother : ':' ∈ xs ∨ ':' ∈ ys := by
      rw [hsplit, List.count_append, List.count_cons_self] at htwo
      rw [← List.count_pos_iff, ← List.count_pos_iff]
      omega
    rcases hother with hxs | hys
    · obtain ⟨us, vs, rfl⟩ := List.append_of_mem hxs
      rw [List.append_assoc, List.cons_append] at hsplit
      exact exists_text_of_split hsplit
    · obtain ⟨us, vs, rfl⟩ := List.append_of_mem hys
      exact exists_text_of_split hsplit

end MemberRef

/-! ### Texts of declarations -/

namespace Referrer

theorem text_ofClass_eq_iff {name : String} {r : Referrer} :
    (ofClass name).text = r.text ↔ ofClass name = r := by
  cases r <;> simp [text, String.ext_iff]

theorem text_ofField_eq_iff {m : MemberRef} {r : Referrer} :
    (ofField m).text = r.text ↔ ∃ m', r = ofField m' ∧ m.text = m'.text := by
  cases r <;> simp [text, String.ext_iff]

theorem text_ofMethod_eq_iff {m : MemberRef} {r : Referrer} :
    (ofMethod m).text = r.text ↔ ∃ m', r = ofMethod m' ∧ m.text = m'.text := by
  cases r <;> simp [text, String.ext_iff]

end Referrer

/-! ### Keys of an index -/

/-- Symbols with the key of a member are that member, or their colons stand in other parts. -/
theorem Symbol.eq_or_colons_ne {s : Symbol} {m : MemberRef} (h : s.text = m.text) :
    s.member? = some m ∨ s.member?.map MemberRef.colons ≠ some m.colons := by
  cases s with
  | ofClass name => exact Or.inr (by simp [member?])
  | ofMethod m' | ofField m' =>
    by_cases hcolons : m'.colons = m.colons
    · exact Or.inl (congrArg some (MemberRef.eq_iff_text_colons.mp ⟨h, hcolons⟩))
    · exact Or.inr (by simpa [member?] using hcolons)

namespace Index

/-- Members have the same key and as many colons in their owners and in their names only if they are the
same; a class has the key of some member just if its name holds two colons or more. Declarations of
different kinds have different texts, classes differ as their names do, and fields and methods as their
keys do. So the contexts that are listed under the key of a member are those of its own uses, and of uses
of symbols whose parts hold other numbers of colons. -/
theorem keys_exact :
    (∀ m m' : MemberRef, m.text = m'.text ∧ m.colons = m'.colons ↔ m = m') ∧
    (∀ name, (∃ m : MemberRef, m.text = (Symbol.ofClass name).text) ↔ 2 ≤ name.toList.count ':') ∧
    (∀ name (r : Referrer), (Referrer.ofClass name).text = r.text ↔ .ofClass name = r) ∧
    (∀ m (r : Referrer), (Referrer.ofField m).text = r.text ↔
      ∃ m', r = .ofField m' ∧ m.text = m'.text) ∧
    (∀ m (r : Referrer), (Referrer.ofMethod m).text = r.text ↔
      ∃ m', r = .ofMethod m' ∧ m.text = m'.text) ∧
    ∀ filter buffers (m : MemberRef) c, c ∈ (run filter buffers).usages m.text ↔
      filter.accepts m.text = true ∧ ∃ u ∈ usesIn buffers, u.referrer.text = c ∧
        u.symbol.text = m.text ∧
          (u.symbol.member? = some m ∨ u.symbol.member?.map MemberRef.colons ≠ some m.colons) := by
  refine ⟨fun _ _ => MemberRef.eq_iff_text_colons, fun _ => MemberRef.exists_text_iff,
    fun _ _ => Referrer.text_ofClass_eq_iff, fun _ _ => Referrer.text_ofField_eq_iff,
    fun _ _ => Referrer.text_ofMethod_eq_iff, fun filter buffers m c => ?_⟩
  rw [(notes_run filter buffers).mem_usages_iff, filter_run]
  refine and_congr_right fun _ => exists_congr fun u => and_congr_right fun _ => ?_
  constructor
  · rintro ⟨htext, hcontext⟩
    exact ⟨hcontext, htext, Symbol.eq_or_colons_ne htext⟩
  · rintro ⟨hcontext, htext, -⟩
    exact ⟨htext, hcontext⟩

/-- Reads of two fields and the creation of an object. -/
def clashingBytes : List UInt8 := [0xb4, 0, 10, 0xb4, 0, 15, 0xbb, 0, 17, 0xb1]

/-- A class whose only method uses two fields and a class that have one key. -/
def clashing : ClassSource where
  minorVersion := 0
  majorVersion := 52
  constants :=
    [.utf8 "k/K", .classRef 1, .utf8 "java/lang/Object", .classRef 3, .utf8 "a:b", .classRef 5,
     .utf8 "c", .utf8 "I", .nameAndType 7 8, .fieldRef 6 9, .utf8 "a", .classRef 11, .utf8 "b:c",
     .nameAndType 13 8, .fieldRef 12 14, .utf8 "a:b:c:I", .classRef 16, .utf8 "run", .utf8 "()V",
     .utf8 "Code"]
  access := 0x0021
  thisClass := 2
  superClass := 4
  interfaces := []
  fields := []
  methods :=
    [⟨1, 18, 19,
      [.code 20
        { maxStack := 1, maxLocals := 1, bytes := clashingBytes, handlers := [], attributes := [] }]⟩]
  attributes := []

def clashingMethod : Method := ⟨1, "run", "()V", [], some ⟨clashingBytes, []⟩⟩

/-- What `clashing` stands for. -/
def clashingContent : ClassFile where
  record := ⟨"k/K", some "java/lang/Object", [], ⟨0x0021⟩⟩
  majorVersion := 52
  pool := clashing.pool
  fields := []
  methods := [clashingMethod]
  bootstrapMethods := []

def clashingUses : List Usage :=
  let run := .ofMethod ⟨"k/K", "run", "()V"⟩
  [⟨.ofClass "java/lang/Object", .ofClass "k/K"⟩, ⟨.ofField ⟨"a:b", "c", "I"⟩, run⟩,
   ⟨.ofField ⟨"a", "b:c", "I"⟩, run⟩, ⟨.ofClass "a:b:c:I", run⟩]

theorem clashing_isField : clashing.pool.IsField 10 ⟨"a:b", "c", "I"⟩ ∧
    clashing.pool.IsField 15 ⟨"a", "b:c", "I"⟩ ∧ clashing.pool.IsClass 17 "a:b:c:I" :=
  ⟨⟨6, 9, rfl, ⟨5, rfl, rfl⟩, 7, 8, rfl, rfl, rfl⟩,
    ⟨12, 14, rfl, ⟨11, rfl, rfl⟩, 13, 8, rfl, rfl, rfl⟩, ⟨16, rfl, rfl⟩⟩

theorem clashing_refers : (clashingContent.methodContext clashingMethod).Refers clashingMethod.code
    [.ofField ⟨"a:b", "c", "I"⟩, .ofField ⟨"a", "b:c", "I"⟩, .ofClass "a:b:c:I"] := by
  obtain ⟨hfield, hother, hclass⟩ := clashing_isField
  have hsplit : Instruction.Split 0 clashingBytes
      [.index16 0xb4 .field 10 [], .index16 0xb4 .field 15 [], .index16 0xbb .classRef 17 [],
       .plain 0xb1 []] := by
    rw [Instruction.split_iff]
    exact ⟨by decide, by decide⟩
  refine ⟨_, [.field ⟨"a:b", "c", "I"⟩, .field ⟨"a", "b:c", "I"⟩, .classRef "a:b:c:I", .nothing],
    hsplit, ?_, rfl⟩
  exact .cons (.field hfield) (.cons (.field hother) (.cons (.classRef hclass) (.cons rfl .nil)))

theorem usesIn_clashing : usesIn [clashing.encode.toByteArray] = clashingUses := by
  have hfits : clashing.Fits := by decide
  have hresolve : clashing.resolve = .ok clashingContent := rfl
  have hparse := Scan.run_eq_ok (ClassFile.readsToEnd_scan hfits hresolve)
  have hnone : Descriptor.methodClasses "()V" = .ok [] :=
    Descriptor.methodClasses_render (d := ⟨[], ⟨0, .void⟩⟩) (by decide)
  have huses : clashingContent.useAll ({} : Events) =
      .ok () { record := some clashingContent.record, usages := clashingUses.toArray } :=
    ClassFile.useAll_eq_ok_iff.mpr
      ⟨[], [_], .nil, .cons ⟨[], _, hnone, clashing_refers, rfl⟩ .nil, rfl⟩
  have hvisit := ClassFile.visit_eq_ok_iff.mpr ⟨clashingContent, hparse, huses, rfl⟩
  rw [usesIn, List.filterMap_cons, reports?, hvisit]
  rfl

/-- Two fields and a class that are used in one method have one key, and so the index counts one symbol
for the three, beside the super class; and declarations of the two fields have one text. -/
theorem keys_conflated_clashing :
    clashing.pool.fieldRef 10 = .ok ⟨"a:b", "c", "I"⟩ ∧
    clashing.pool.fieldRef 15 = .ok ⟨"a", "b:c", "I"⟩ ∧
    (⟨"a:b", "c", "I"⟩ : MemberRef) ≠ ⟨"a", "b:c", "I"⟩ ∧
    MemberRef.text ⟨"a:b", "c", "I"⟩ = MemberRef.text ⟨"a", "b:c", "I"⟩ ∧
    (Symbol.ofClass "a:b:c:I").text = MemberRef.text ⟨"a", "b:c", "I"⟩ ∧
    (Referrer.ofField ⟨"a:b", "c", "I"⟩).text = (Referrer.ofField ⟨"a", "b:c", "I"⟩).text ∧
    usesIn [clashing.encode.toByteArray] = clashingUses ∧
    (run ⟨[]⟩ [clashing.encode.toByteArray]).usageCount = 4 ∧
    (run ⟨[]⟩ [clashing.encode.toByteArray]).symbolCount = 2 := by
  have hnotes := notes_run ⟨[]⟩ [clashing.encode.toByteArray]
  refine ⟨Pool.fieldRef_eq_ok_iff.mpr clashing_isField.1,
    Pool.fieldRef_eq_ok_iff.mpr clashing_isField.2.1, by decide, by decide, by decide, by decide,
    usesIn_clashing, ?_, ?_⟩
  · rw [hnotes.count, filter_run, usesIn_clashing]
    decide
  · rw [hnotes.symbolCount_eq, filter_run, usesIn_clashing]
    decide

end Index
end ClassXref
