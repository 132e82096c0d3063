import ClassXref.Proofs.ClassFile.Acceptance

/-! The chains of links behind a reference, and which link is to blame where a reference cannot be followed.
A link is an index and the kind of constant that is wanted there; the constant which an index designates
says what the links behind it are. A chain lists links in the order in which they are followed, and what is
wrong with a link is decided by that link alone, so the fault of a reference is that of the first bad link
of its chain. Constants may refer to each other in circles: behind each link another kind is wanted than at
the link itself, so a chain ends all the same. -/
namespace ClassXref

/-- An index that a constant stores, and the kind of constant that it must designate. -/
structure Link where
  index : UInt16
  wanted : ConstantKind
  deriving Repr, DecidableEq

/-- Whether a constant of this kind serves at the link: where a method is wanted, one of an interface does. -/
def Link.accepts (link : Link) (found : ConstantKind) : Bool :=
  found = link.wanted || (link.wanted = .methodRef && found = .interfaceMethodRef)

namespace Constant

/-- The links that are followed from a constant, in order. -/
def links : Constant → List Link
  | classRef name => [⟨name, .utf8⟩]
  | nameAndType name descriptor => [⟨name, .utf8⟩, ⟨descriptor, .utf8⟩]
  | fieldRef owner pair | methodRef owner pair | interfaceMethodRef owner pair =>
    [⟨owner, .classRef⟩, ⟨pair, .nameAndType⟩]
  | methodHandle kind target => [⟨target, if kind ≤ 4 then .fieldRef else .methodRef⟩]
  | _ => []

/-- What is wrong with a constant that stands at an index, whatever is wanted there: a handle must be of a
kind between 1 and 9. -/
def flaw? (index : UInt16) : Constant → Option Fault
  | methodHandle kind _ =>
    if 1 ≤ kind ∧ kind ≤ 9 then none else some (.malformed (.handleKind index kind))
  | _ => none

/-- What is wrong with a constant that a link designates. -/
def flawAt? (link : Link) (c : Constant) : Option Fault :=
  if link.accepts c.kind then c.flaw? link.index
  else some (.wrongKind link.index (.kind link.wanted) c.kind)

end Constant

namespace Pool

/-- The constant that an index designates. -/
def held? (pool : Pool) (index : UInt16) : Option Constant :=
  pool.slots[index.toNat]?.join

/-- A link and, down to a depth, the links behind it: each before those that lie behind it, and these before
its neighbour. For a member these are the member, its class, the name of the class, the name with its
descriptor, the name, and the descriptor; for a handle, the handle stands before all these. -/
def chain (pool : Pool) : (depth : Nat) → Link → List Link
  | 0, link => [link]
  | depth + 1, link =>
    link :: (pool.held? link.index).elim [] fun c => c.links.flatMap (pool.chain depth)

example : (ofConstants [.utf8 "a/B", .classRef 1, .utf8 "run", .utf8 "()V", .nameAndType 3 4,
    .methodRef 2 5, .methodHandle 9 6]).chain 3 ⟨7, .methodHandle⟩ =
      [⟨7, .methodHandle⟩, ⟨6, .methodRef⟩, ⟨2, .classRef⟩, ⟨1, .utf8⟩, ⟨5, .nameAndType⟩, ⟨3, .utf8⟩,
       ⟨4, .utf8⟩] := by decide

/-- What is wrong with a link, whatever lies behind it. -/
def linkFlaw? (pool : Pool) (link : Link) : Option Fault :=
  match pool.held? link.index with
  | some c => c.flawAt? link
  | none => some (.badIndex link.index)

/-- The fault of the first bad link, if one of them is bad. -/
def firstFlaw? (pool : Pool) (links : List Link) : Option Fault :=
  links.findSome? pool.linkFlaw?

/-- The verdict of a lookup is an error just where one of these links is bad, and then it is the fault of the
first of them. -/
def Follows {α : Type} (pool : Pool) (links : List Link) (verdict : Except Fault α) : Prop :=
  ∀ e, verdict = .error e ↔ pool.firstFlaw? links = some e

variable {α β : Type} {pool : Pool} {link : Link} {links more : List Link} {c : Constant}
  {index : UInt16}

/-! ### One link -/

theorem held?_eq_some_iff : pool.held? index = some c ↔ pool.Holds index c :=
  Option.join_eq_some_iff

theorem held?_eq_none_iff : pool.held? index = none ↔ ∀ c, ¬ pool.Holds index c := by
  simp only [← held?_eq_some_iff, Option.eq_none_iff_forall_ne_some, ne_eq]

theorem constant_of_held?_eq_none (h : pool.held? index = none) :
    pool.constant index = .error (.badIndex index) := by
  unfold constant
  split
  · next c hslot => exact absurd hslot (held?_eq_none_iff.mp h c)
  · rfl

theorem firstFlaw?_cons : pool.firstFlaw? (link :: links) =
    (pool.linkFlaw? link).or (pool.firstFlaw? links) := by
  rw [firstFlaw?, List.findSome?_cons]
  cases pool.linkFlaw? link <;> rfl

theorem firstFlaw?_append : pool.firstFlaw? (links ++ more) =
    (pool.firstFlaw? links).or (pool.firstFlaw? more) :=
  List.findSome?_append

/-! ### Lookups -/

theorem follows_ok (a : α) : pool.Follows [] (.ok a) := by
  intro e
  simp [firstFlaw?]

/-- Links are followed one after the other: the second lookup is made only if no link of the first is bad. -/
theorem follows_bind {verdict : Except Fault α} {next : α → Except Fault β}
    (h : pool.Follows links verdict) (h' : ∀ a, verdict = .ok a → pool.Follows more (next a)) :
    pool.Follows (links ++ more) (verdict >>= next) := by
  intro e
  rw [firstFlaw?_append]
  cases verdict with
  | error fault =>
    rw [(h fault).mp rfl, Option.some_or]
    simp [bind, Except.bind]
  | ok a =>
    have hgood : pool.firstFlaw? links = none := by
      refine Option.eq_none_iff_forall_ne_some.mpr fun fault hfault => ?_
      cases (h fault).mpr hfault
    rw [hgood, Option.none_or]
    exact h' a rfl e

/-- A lookup that begins at a link fails there if the link is bad, and otherwise goes on with what lies
behind the constant that it finds. -/
theorem follows_link {behind : Constant → List Link} {next : Constant → Except Fault α}
    (hbad : ∀ c e, c.flawAt? link = some e → next c = .error e)
    (hgood : ∀ c, c.flawAt? link = none → pool.Follows (behind c) (next c)) :
    pool.Follows (link :: (pool.held? link.index).elim [] behind)
      (pool.constant link.index >>= next) := by
  intro e
  rw [firstFlaw?_cons, linkFlaw?]
  cases hheld : pool.held? link.index with
  | none =>
    rw [constant_of_held?_eq_none hheld]
    simp [bind, Except.bind]
  | some c =>
    have hfound : (pool.constant link.index >>= next) = next c := by
      rw [constant_eq_ok_iff.mpr (held?_eq_some_iff.mp hheld)]
      rfl
    rw [hfound, Option.elim_some]
    dsimp only
    cases hflaw : c.flawAt? link with
    | none =>
      rw [Option.none_or]
      exact hgood c hflaw e
    | some fault =>
      rw [Option.some_or, hbad c fault hflaw]
      simp

theorem follows_utf8 (index : UInt16) : pool.Follows [⟨index, .utf8⟩] (pool.utf8 index) := by
  have hnothing : (pool.held? index).elim [] (fun _ => ([] : List Link)) = [] := by
    cases pool.held? index <;> rfl
  rw [← hnothing]
  refine follows_link (fun c e hflaw => ?_) fun c hflaw => ?_
  · cases c <;> cases hflaw <;> rfl
  · cases c with
    | utf8 text => exact follows_ok text
    | _ => cases hflaw

theorem follows_className (index : UInt16) :
    pool.Follows (pool.chain 1 ⟨index, .classRef⟩) (pool.className index) := by
  refine follows_link (fun c e hflaw => ?_) fun c hflaw => ?_
  · cases c <;> cases hflaw <;> rfl
  · cases c with
    | classRef name => exact follows_utf8 name
    | _ => cases hflaw

theorem follows_nameAndType (index : UInt16) :
    pool.Follows (pool.chain 1 ⟨index, .nameAndType⟩) (pool.nameAndType index) := by
  refine follows_link (fun c e hflaw => ?_) fun c hflaw => ?_
  · cases c <;> cases hflaw <;> rfl
  · cases c with
    | nameAndType name descriptor =>
      exact follows_bind (follows_utf8 name) fun _ _ =>
        follows_bind (follows_utf8 descriptor) fun _ _ => follows_ok _
    | _ => cases hflaw

/-- A class and its name come before the name with its descriptor. -/
theorem follows_member (owner pair : UInt16) :
    pool.Follows ([⟨owner, .classRef⟩, ⟨pair, .nameAndType⟩].flatMap (pool.chain 1))
      (pool.member owner pair) :=
  follows_bind (follows_className owner) fun _ _ =>
    follows_bind (follows_nameAndType pair) fun _ _ => follows_ok _

theorem follows_fieldRef (index : UInt16) :
    pool.Follows (pool.chain 2 ⟨index, .fieldRef⟩) (pool.fieldRef index) := by
  refine follows_link (fun c e hflaw => ?_) fun c hflaw => ?_
  · cases c <;> cases hflaw <;> rfl
  · cases c with
    | fieldRef owner pair => exact follows_member owner pair
    | _ => cases hflaw

theorem follows_methodRef (index : UInt16) :
    pool.Follows (pool.chain 2 ⟨index, .methodRef⟩) (pool.methodRef index) := by
  refine follows_link (fun c e hflaw => ?_) fun c hflaw => ?_
  · cases c <;> cases hflaw <;> rfl
  · cases c with
    | methodRef owner pair | interfaceMethodRef owner pair => exact follows_member owner pair
    | _ => cases hflaw

theorem five_le_of_not_le_four {kind : UInt8} (h : ¬ kind ≤ 4) : 5 ≤ kind := by
  simp only [UInt8.le_iff_toNat_le, UInt8.reduceToNat] at h ⊢
  omega

theorem follows_methodHandle (index : UInt16) :
    pool.Follows (pool.chain 3 ⟨index, .methodHandle⟩) (pool.methodHandle index) := by
  refine follows_link (fun c e hflaw => ?_) fun c hflaw => ?_
  · cases c with
    | methodHandle kind target =>
      have hflaw : (Constant.methodHandle kind target).flaw? index = some e := hflaw
      rw [Constant.flaw?] at hflaw
      split at hflaw
      · cases hflaw
      · next hkind =>
        cases hflaw
        have hfield : ¬ (1 ≤ kind ∧ kind ≤ 4) := fun h =>
          hkind ⟨h.1, UInt8.le_trans h.2 (by decide)⟩
        have hmethod : ¬ (5 ≤ kind ∧ kind ≤ 9) := fun h =>
          hkind ⟨UInt8.le_trans (by decide) h.1, h.2⟩
        dsimp only
        rw [if_neg hfield, if_neg hmethod]
        rfl
    | _ =>
      cases hflaw
      rfl
  · cases c with
    | methodHandle kind target =>
      have hflaw : (Constant.methodHandle kind target).flaw? index = none := hflaw
      rw [Constant.flaw?] at hflaw
      split at hflaw
      · next hkind =>
        rw [Constant.links, List.flatMap_singleton]
        dsimp only
        by_cases hlow : kind ≤ 4
        · rw [if_pos hlow, if_pos ⟨hkind.1, hlow⟩, ← List.append_nil (pool.chain 2 _)]
          exact follows_bind (follows_fieldRef target) fun _ _ => follows_ok _
        · have hmethod : 5 ≤ kind ∧ kind ≤ 9 := ⟨five_le_of_not_le_four hlow, hkind.2⟩
          rw [if_neg hlow, if_neg fun h => hlow h.2, if_pos hmethod,
            ← List.append_nil (pool.chain 2 _)]
          exact follows_bind (follows_methodRef target) fun _ _ => follows_ok _
      · cases hflaw
    | _ => cases hflaw

/-! ### Empty slots -/

/-- In the slots of constants, behind a slot that holds no wide one, the empty slots are those behind the
wide ones. -/
theorem getElem?_slots_eq_none_iff {constants : List Constant} (before : Option Constant)
    (hbefore : ¬ ∃ c, before = some c ∧ c.isWide = true) (n : Nat) :
    (constants.flatMap Constant.slots)[n]? = some none ↔
      ∃ c, (before :: constants.flatMap Constant.slots)[n]? = some (some c) ∧ c.isWide = true := by
  induction constants generalizing before n with
  | nil =>
    cases n with
    | zero => simpa using hbefore
    | succ n => simp
  | cons c constants ih =>
    rw [List.flatMap_cons]
    by_cases hwide : c.isWide = true
    · rw [Constant.slots_of_isWide hwide]
      cases n with
      | zero => simpa using hbefore
      | succ n =>
        cases n with
        | zero => simp [hwide]
        | succ n => exact ih none (by simp) n
    · rw [Constant.slots_of_not_isWide hwide]
      cases n with
      | zero => simpa using hbefore
      | succ n => exact ih (some c) (by simpa using hwide) n

/-- The indices that designate nothing in a pool that was read are zero, those behind the last slot, and
those of the second slots of wide constants. -/
theorem held?_eq_none_of_read {count : UInt16} {c d : Cursor} (h : Pool.read count c = .ok pool d)
    (index : UInt16) : pool.held? index = none ↔ index = 0 ∨ pool.size ≤ index.toNat ∨
      ∃ k, pool.slots[index.toNat - 1]? = some (some k) ∧ k.isWide = true := by
  obtain ⟨constants, rfl, -⟩ := constants_of_read h
  have hslots (n : Nat) : (ofConstants constants).slots[n]? =
      (none :: constants.flatMap Constant.slots)[n]? := by
    rw [← Array.getElem?_toList, slots_ofConstants]
  have hzero : index = 0 ↔ index.toNat = 0 := UInt16.toNat_inj.symm
  rw [held?, hslots, hslots, hzero]
  cases hindex : index.toNat with
  | zero => simp
  | succ n =>
    have hempty := @getElem?_slots_eq_none_iff constants none (by simp) n
    rw [List.getElem?_cons_succ, Nat.add_sub_cancel, size_ofConstants, Nat.add_le_add_iff_right,
      ← hempty, ← List.getElem?_eq_none_iff]
    cases (constants.flatMap Constant.slots)[n]? with
    | none => simp
    | some slot => simp

/-! ### References -/

/-- What each index leads to, for any pool. A field, a method or a handle is found just where every link has
the constant that it wants, and else the fault is that of the first bad link on the way. Where a pool was
read, a link designates nothing if its index is zero, behind the last slot, or that of the second slot of a
wide constant. -/
theorem references_exact (pool : Pool) (index : UInt16) :
    (∀ m, pool.fieldRef index = .ok m ↔ pool.IsField index m) ∧
    (∀ e, pool.fieldRef index = .error e ↔
      pool.firstFlaw? (pool.chain 2 ⟨index, .fieldRef⟩) = some e) ∧
    (∀ m, pool.methodRef index = .ok m ↔ pool.IsMethod index m) ∧
    (∀ e, pool.methodRef index = .error e ↔
      pool.firstFlaw? (pool.chain 2 ⟨index, .methodRef⟩) = some e) ∧
    (∀ target, pool.methodHandle index = .ok target ↔ pool.IsHandle index target) ∧
    (∀ e, pool.methodHandle index = .error e ↔
      pool.firstFlaw? (pool.chain 3 ⟨index, .methodHandle⟩) = some e) ∧
    (∀ count c d, Pool.read count c = .ok pool d → (pool.held? index = none ↔
      index = 0 ∨ pool.size ≤ index.toNat ∨
        ∃ k, pool.slots[index.toNat - 1]? = some (some k) ∧ k.isWide = true)) :=
  ⟨fun _ => fieldRef_eq_ok_iff, follows_fieldRef index,
    fun _ => methodRef_eq_ok_iff, follows_methodRef index,
    fun _ => methodHandle_eq_ok_iff, follows_methodHandle index,
    fun _ _ _ h => held?_eq_none_of_read h index⟩

end Pool
end ClassXref
