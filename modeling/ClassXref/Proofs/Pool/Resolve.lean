import ClassXref.Pool.Resolve
import ClassXref.Proofs.Stateful

/-! What an index of a constant pool designates, as relations that mention neither the order in which
links are followed nor the faults of those that fail. Each lookup succeeds just when its relation
holds, so an index designates at most one thing of a kind. -/
namespace ClassXref.Pool

open Stateful (verdict_bind_eq_ok_iff)

variable {pool : Pool} {index : UInt16}

/-- The slot at an index holds this constant. -/
def Holds (pool : Pool) (index : UInt16) (c : Constant) : Prop :=
  pool.slots[index.toNat]? = some (some c)

def IsText (pool : Pool) (index : UInt16) (text : String) : Prop :=
  pool.Holds index (.utf8 text)

def IsClass (pool : Pool) (index : UInt16) (name : String) : Prop :=
  ∃ i, pool.Holds index (.classRef i) ∧ pool.IsText i name

def IsNameAndType (pool : Pool) (index : UInt16) (name descriptor : String) : Prop :=
  ∃ i j, pool.Holds index (.nameAndType i j) ∧ pool.IsText i name ∧ pool.IsText j descriptor

/-- A class and a name with its descriptor make up a member. -/
def IsMember (pool : Pool) (owner nameAndType : UInt16) (m : MemberRef) : Prop :=
  pool.IsClass owner m.owner ∧ pool.IsNameAndType nameAndType m.name m.descriptor

def IsField (pool : Pool) (index : UInt16) (m : MemberRef) : Prop :=
  ∃ i j, pool.Holds index (.fieldRef i j) ∧ pool.IsMember i j m

def IsMethod (pool : Pool) (index : UInt16) (m : MemberRef) : Prop :=
  ∃ i j, (pool.Holds index (.methodRef i j) ∨ pool.Holds index (.interfaceMethodRef i j)) ∧
    pool.IsMember i j m

/-- A handle of kind 1 to 4 gives access to a field, one of kind 5 to 9 to a method. -/
inductive IsHandle (pool : Pool) (index : UInt16) : HandleTarget → Prop
  | field {kind : UInt8} {i : UInt16} {m : MemberRef} :
    pool.Holds index (.methodHandle kind i) → 1 ≤ kind ∧ kind ≤ 4 → pool.IsField i m →
      IsHandle pool index (.field m)
  | method {kind : UInt8} {i : UInt16} {m : MemberRef} :
    pool.Holds index (.methodHandle kind i) → 5 ≤ kind ∧ kind ≤ 9 → pool.IsMethod i m →
      IsHandle pool index (.method m)

def IsMethodType (pool : Pool) (index : UInt16) (descriptor : String) : Prop :=
  ∃ i, pool.Holds index (.methodType i) ∧ pool.IsText i descriptor

theorem IsHandle.holds {target : HandleTarget} (h : pool.IsHandle index target) :
    ∃ kind i, pool.Holds index (.methodHandle kind i) := by
  cases h with
  | field hc _ _ => exact ⟨_, _, hc⟩
  | method hc _ _ => exact ⟨_, _, hc⟩

/-! ### Lookups -/

theorem constant_eq_ok_iff {c : Constant} : pool.constant index = .ok c ↔ pool.Holds index c := by
  unfold constant Holds
  split
  · next d h => rw [h, Except.ok.injEq, Option.some.injEq, Option.some.injEq]
  · next h =>
    constructor
    · intro hc
      cases hc
    · intro hc
      exact False.elim (h c hc)

theorem holds_unique {c d : Constant} (h : pool.Holds index c) (h' : pool.Holds index d) : c = d := by
  rw [Holds, h'] at h
  cases h
  rfl

/-- A lookup begins with the constant at its index. -/
theorem bind_constant_eq_ok_iff {α : Type} {next : Constant → Except Fault α} {a : α} :
    (pool.constant index >>= next) = .ok a ↔ ∃ c, pool.Holds index c ∧ next c = .ok a := by
  simp only [verdict_bind_eq_ok_iff, constant_eq_ok_iff]

theorem utf8_eq_ok_iff {text : String} : pool.utf8 index = .ok text ↔ pool.IsText index text := by
  rw [utf8, bind_constant_eq_ok_iff]
  constructor
  · rintro ⟨c, hc, h⟩
    cases c <;> cases h
    exact hc
  · intro h
    exact ⟨.utf8 text, h, rfl⟩

theorem className_eq_ok_iff {name : String} :
    pool.className index = .ok name ↔ pool.IsClass index name := by
  rw [className, bind_constant_eq_ok_iff]
  constructor
  · rintro ⟨c, hc, h⟩
    cases c with
    | classRef i => exact ⟨i, hc, utf8_eq_ok_iff.mp h⟩
    | _ => cases h
  · rintro ⟨i, hi, hname⟩
    exact ⟨.classRef i, hi, utf8_eq_ok_iff.mpr hname⟩

theorem nameAndType_eq_ok_iff {name descriptor : String} :
    pool.nameAndType index = .ok (name, descriptor) ↔ pool.IsNameAndType index name descriptor := by
  rw [nameAndType, bind_constant_eq_ok_iff]
  constructor
  · rintro ⟨c, hc, h⟩
    cases c with
    | nameAndType i j =>
      simp only [verdict_bind_eq_ok_iff] at h
      obtain ⟨_, hname, _, hdescriptor, h⟩ := h
      cases h
      exact ⟨i, j, hc, utf8_eq_ok_iff.mp hname, utf8_eq_ok_iff.mp hdescriptor⟩
    | _ => cases h
  · rintro ⟨i, j, hc, hname, hdescriptor⟩
    refine ⟨.nameAndType i j, hc, ?_⟩
    simp only [verdict_bind_eq_ok_iff]
    exact ⟨name, utf8_eq_ok_iff.mpr hname, descriptor, utf8_eq_ok_iff.mpr hdescriptor, rfl⟩

theorem member_eq_ok_iff {owner nameAndType : UInt16} {m : MemberRef} :
    pool.member owner nameAndType = .ok m ↔ pool.IsMember owner nameAndType m := by
  unfold member
  simp only [verdict_bind_eq_ok_iff, Prod.exists, className_eq_ok_iff, nameAndType_eq_ok_iff]
  constructor
  · rintro ⟨name, howner, _, _, hpair, h⟩
    cases h
    exact ⟨howner, hpair⟩
  · rintro ⟨howner, hpair⟩
    exact ⟨m.owner, howner, m.name, m.descriptor, hpair, rfl⟩

theorem fieldRef_eq_ok_iff {m : MemberRef} :
    pool.fieldRef index = .ok m ↔ pool.IsField index m := by
  rw [fieldRef, bind_constant_eq_ok_iff]
  constructor
  · rintro ⟨c, hc, h⟩
    cases c with
    | fieldRef i j => exact ⟨i, j, hc, member_eq_ok_iff.mp h⟩
    | _ => cases h
  · rintro ⟨i, j, hc, hmember⟩
    exact ⟨.fieldRef i j, hc, member_eq_ok_iff.mpr hmember⟩

theorem methodRef_eq_ok_iff {m : MemberRef} :
    pool.methodRef index = .ok m ↔ pool.IsMethod index m := by
  rw [methodRef, bind_constant_eq_ok_iff]
  constructor
  · rintro ⟨c, hc, h⟩
    cases c with
    | methodRef i j => exact ⟨i, j, Or.inl hc, member_eq_ok_iff.mp h⟩
    | interfaceMethodRef i j => exact ⟨i, j, Or.inr hc, member_eq_ok_iff.mp h⟩
    | _ => cases h
  · rintro ⟨i, j, hc | hc, hmember⟩
    · exact ⟨.methodRef i j, hc, member_eq_ok_iff.mpr hmember⟩
    · exact ⟨.interfaceMethodRef i j, hc, member_eq_ok_iff.mpr hmember⟩

theorem methodHandle_eq_ok_iff {target : HandleTarget} :
    pool.methodHandle index = .ok target ↔ pool.IsHandle index target := by
  rw [methodHandle, bind_constant_eq_ok_iff]
  constructor
  · rintro ⟨c, hc, h⟩
    cases c with
    | methodHandle kind i =>
      dsimp only at h
      split at h
      · next hkind =>
        obtain ⟨m, hm, h⟩ := verdict_bind_eq_ok_iff.mp h
        cases h
        exact .field hc hkind (fieldRef_eq_ok_iff.mp hm)
      · split at h
        · next hkind =>
          obtain ⟨m, hm, h⟩ := verdict_bind_eq_ok_iff.mp h
          cases h
          exact .method hc hkind (methodRef_eq_ok_iff.mp hm)
        · cases h
    | _ => cases h
  · intro h
    cases h with
    | @field kind i m hc hkind hm =>
      refine ⟨.methodHandle kind i, hc, ?_⟩
      dsimp only
      rw [if_pos hkind, fieldRef_eq_ok_iff.mpr hm]
      rfl
    | @method kind i m hc hkind hm =>
      have hnot : ¬ (1 ≤ kind ∧ kind ≤ 4) := by
        rw [UInt8.le_iff_toNat_le, UInt8.le_iff_toNat_le] at hkind ⊢
        have hfour : (4 : UInt8).toNat = 4 := rfl
        have hfive : (5 : UInt8).toNat = 5 := rfl
        omega
      refine ⟨.methodHandle kind i, hc, ?_⟩
      dsimp only
      rw [if_neg hnot, if_pos hkind, methodRef_eq_ok_iff.mpr hm]
      rfl

theorem methodType_eq_ok_iff {descriptor : String} :
    pool.methodType index = .ok descriptor ↔ pool.IsMethodType index descriptor := by
  rw [methodType, bind_constant_eq_ok_iff]
  constructor
  · rintro ⟨c, hc, h⟩
    cases c with
    | methodType i => exact ⟨i, hc, utf8_eq_ok_iff.mp h⟩
    | _ => cases h
  · rintro ⟨i, hi, hdescriptor⟩
    exact ⟨.methodType i, hi, utf8_eq_ok_iff.mpr hdescriptor⟩

end ClassXref.Pool
