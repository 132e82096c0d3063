import ClassXref.Proofs.Json.Values

/-! The readers of lists are exact, and so are those that stand between the members of objects. The first item of a
list or an object begins behind blanks, every other one behind a comma too. -/
namespace ClassXref.Json

open ModifiedUtf8 (plain plain_cons)

/-! ### Items -/

section

variable {α : Type} {closing : Char} {item : Spelling α} {text rest : List Char} {all : List α}

/-- Where the next item begins. -/
def NextAt (first : Bool) (text start : List Char) : Prop :=
  if first then start = behindBlanks text else ∃ mid, behindBlanks text = ',' :: mid ∧ start = behindBlanks mid

/-- The items that are left, from the first one on or behind others, and the closing mark. -/
def From (first : Bool) (closing : Char) (item : Spelling α) : Spelling (List α) := fun text all rest =>
  all = [] ∧ behindBlanks text = closing :: rest ∨
    ∃ a as start next, all = a :: as ∧ NextAt first text start ∧ item start a next ∧
      Spelled.More closing item next as rest

theorem more_iff : Spelled.More closing item text all rest ↔ From false closing item text all rest := by
  constructor
  · intro h
    cases h with
    | close hclose => exact Or.inl ⟨rfl, hclose⟩
    | next hcomma ha has => exact Or.inr ⟨_, _, _, _, rfl, ⟨_, hcomma, rfl⟩, ha, has⟩
  · rintro (⟨rfl, hclose⟩ | ⟨a, as, start, next, rfl, ⟨mid, hcomma, rfl⟩, ha, has⟩)
    · exact .close hclose
    · exact .next hcomma ha has

theorem between_iff {opening : Char} : Spelled.Between opening closing item text all rest ↔
    ∃ mid, text = opening :: mid ∧ From true closing item mid all rest := by
  constructor
  · intro h
    cases h with
    | none hclose => exact ⟨_, rfl, Or.inl ⟨rfl, hclose⟩⟩
    | items ha has => exact ⟨_, rfl, Or.inr ⟨_, _, _, _, rfl, rfl, ha, has⟩⟩
  · rintro ⟨mid, rfl, ⟨rfl, hclose⟩ | ⟨a, as, start, next, rfl, rfl, ha, has⟩⟩
    · exact .none hclose
    · exact .items ha has

theorem behindBlanks_of_nextAt {first : Bool} {start : List Char} (h : NextAt first text start) :
    behindBlanks start = start := by
  cases first with
  | true =>
    obtain rfl : start = behindBlanks text := h
    exact behindBlanks_behindBlanks text
  | false =>
    obtain ⟨mid, -, rfl⟩ := h
    exact behindBlanks_behindBlanks mid

theorem length_behindBlanks_le (text : List Char) : (behindBlanks text).length ≤ text.length :=
  (List.dropWhile_suffix isBlankChar).length_le

theorem length_le_of_nextAt {first : Bool} {start : List Char} (h : NextAt first text start) :
    start.length ≤ text.length := by
  have hblanks := length_behindBlanks_le text
  cases first with
  | true =>
    obtain rfl : start = behindBlanks text := h
    exact hblanks
  | false =>
    obtain ⟨mid, hcomma, rfl⟩ := h
    have hmid := length_behindBlanks_le mid
    rw [hcomma, List.length_cons] at hblanks
    omega

end

namespace Reader

variable {α : Type} {s t : Source} {text rest : List Char}

/-- An item takes at least one character, and never begins with the closing mark. -/
structure ItemOf (closing : Char) (item : Spelling α) : Prop where
  shorter : ∀ text a rest, item text a rest → rest.length < text.length
  notAt : NotAt closing item

/-- Where an item is next, the text goes on, and not with the closing mark. -/
theorem ItemOf.next {closing : Char} {a : α} (h : ItemOf closing item) (ha : item text a rest) :
    text ≠ [] ∧ ¬ text.head? = some closing := by
  constructor
  · rintro rfl
    exact absurd (h.shorter _ _ _ ha) (Nat.not_lt_zero _)
  · intro hhead
    obtain ⟨more, rfl⟩ := List.head?_eq_some_iff.mp hhead
    exact h.notAt _ _ _ ha

/-- How the next byte, `f` of it, decides whether a list or an object goes on. It ends at its closing mark. What is
next otherwise is found by `start` for the first item and by `atItem` for others, which stand behind a comma. Both
leave it there, and make sure that `P` holds of it. -/
structure GoesOn (x : Char) (first : Bool) (f : Option UInt8 → Reader Bool) (P : List Char → Prop) where
  start : Reader Bool
  atItem : Reader Bool
  problem : Problem
  lt : x.toNat < 0x80
  ne_comma : x ≠ ','
  none_ne_ok : ∀ s a t, f none s ≠ .ok a t
  close : f (some (UInt8.ofNat x.toNat)) = return false
  other : ∀ b, b ≠ UInt8.ofNat x.toNat → f (some b) = if first then start else if b = 0x2c then do
    pass
    blanks
    atItem else failNext problem
  start_iff : ∀ s text, s.Holds text → text ≠ [] → text.head? ≠ some x → ∀ more t,
    start s = .ok more t ↔ more = true ∧ s = t ∧ P text
  atItem_iff : ∀ s text, s.Holds text → ∀ more t, atItem s = .ok more t ↔ more = true ∧ s = t ∧ P text
  next : ∀ text, P text → text ≠ [] ∧ text.head? ≠ some x

namespace GoesOn

variable {x : Char} {first more : Bool} {f : Option UInt8 → Reader Bool} {P : List Char → Prop}

theorem sound (h : GoesOn x first f P) (hs : s.Holds text)
    (hread : (blanks >>= fun _ => peek? >>= f) s = .ok more t) : ∃ rest, t.Holds rest ∧
      (more = false ∧ (∃ behind, behindBlanks text = x :: behind ∧ rest = x :: behind) ∨
        more = true ∧ NextAt first text rest ∧ P rest) := by
  obtain ⟨mid, hblanks, hmid⟩ := exists_blanks hs
  rw [Stateful.bind_ok hblanks, peek?_bind] at hread
  cases hhead : mid.rest.head? with
  | none =>
    rw [hhead] at hread
    exact absurd hread (h.none_ne_ok _ _ _)
  | some b =>
    rw [hhead] at hread
    have hiff := eq_mark_iff h.lt hmid hhead
    by_cases hb : b = UInt8.ofNat x.toNat
    · rw [hb, h.close] at hread
      cases hread
      obtain ⟨behind, hbehind⟩ := List.head?_eq_some_iff.mp (hiff.mp hb)
      exact ⟨_, hmid, Or.inl ⟨rfl, behind, hbehind, hbehind⟩⟩
    rw [h.other b hb] at hread
    cases first with
    | true =>
      rw [if_pos rfl] at hread
      have hother : (behindBlanks text).head? ≠ some x := fun hmark => hb (hiff.mpr hmark)
      obtain ⟨rfl, rfl, hP⟩ := (h.start_iff mid _ hmid (ne_nil_of_head? hmid hhead) hother more t).mp hread
      exact ⟨_, hmid, Or.inr ⟨rfl, rfl, hP⟩⟩
    | false =>
      rw [if_neg Bool.false_ne_true] at hread
      split at hread
      · next hmark =>
        subst hmark
        obtain ⟨behind, hbehind⟩ := exists_cons_of_head? (x := ',') (by decide) hmid hhead
        rw [hbehind] at hmid
        obtain ⟨last, hpass, hlast⟩ := exists_pass (by decide) hmid
        obtain ⟨next, hnext, hholds⟩ := exists_blanks hlast
        rw [Stateful.bind_ok hpass, Stateful.bind_ok hnext] at hread
        obtain ⟨rfl, rfl, hP⟩ := (h.atItem_iff next _ hholds more t).mp hread
        exact ⟨_, hholds, Or.inr ⟨rfl, ⟨behind, hbehind, rfl⟩, hP⟩⟩
      · exact absurd hread failNext_ne_ok

theorem complete (h : GoesOn x first f P) (hs : s.Holds text)
    (hspelled : more = false ∧ (∃ behind, behindBlanks text = x :: behind ∧ rest = x :: behind) ∨
      more = true ∧ NextAt first text rest ∧ P rest) :
    ∃ t, (blanks >>= fun _ => peek? >>= f) s = .ok more t ∧ t.Holds rest := by
  obtain ⟨mid, hblanks, hmid⟩ := exists_blanks hs
  rw [Stateful.bind_ok hblanks, peek?_bind]
  rcases hspelled with ⟨rfl, behind, hclose, rfl⟩ | ⟨rfl, hnext, hP⟩
  · rw [hclose] at hmid
    refine ⟨mid, ?_, hmid⟩
    rw [head?_of_holds h.lt hmid, h.close]
    rfl
  obtain ⟨hne, hother⟩ := h.next rest hP
  cases first with
  | true =>
    obtain rfl : rest = behindBlanks text := hnext
    obtain ⟨b, hbyte⟩ := exists_head? hmid hne
    have hb : b ≠ UInt8.ofNat x.toNat := fun hb => hother ((eq_mark_iff h.lt hmid hbyte).mp hb)
    refine ⟨mid, ?_, hmid⟩
    rw [hbyte, h.other b hb, if_pos rfl]
    exact (h.start_iff mid _ hmid hne hother true mid).mpr ⟨rfl, rfl, hP⟩
  | false =>
    obtain ⟨behind, hbehind, rfl⟩ := hnext
    rw [hbehind] at hmid
    obtain ⟨last, hpass, hlast⟩ := exists_pass (by decide) hmid
    obtain ⟨next, hnext, hholds⟩ := exists_blanks hlast
    have hb : UInt8.ofNat ','.toNat ≠ UInt8.ofNat x.toNat := by
      intro hb
      have hmark := (eq_mark_iff h.lt hmid (head?_of_holds (by decide) hmid)).mp hb
      exact h.ne_comma (Option.some.inj hmark).symm
    refine ⟨next, ?_, hholds⟩
    rw [head?_of_holds (by decide) hmid, h.other _ hb, if_neg Bool.false_ne_true]
    refine (Stateful.bind_ok hpass).trans ((Stateful.bind_ok hnext).trans ?_)
    exact (h.atItem_iff next _ hholds true next).mpr ⟨rfl, rfl, hP⟩

/-- A list or an object ends at its closing mark, or goes on with what must come next. -/
theorem exact (h : GoesOn x first f P) : Exact (blanks >>= fun _ => peek? >>= f) fun text more rest =>
    more = false ∧ (∃ behind, behindBlanks text = x :: behind ∧ rest = x :: behind) ∨
      more = true ∧ NextAt first text rest ∧ P rest :=
  ⟨h.sound, h.complete⟩

end GoesOn

/-! ### Lists -/

theorem exact_closeList : Exact closeList fun text _ rest => behindBlanks text = ']' :: rest := by
  refine exact_blanks (exact_peek?_pass (x := ']') (by decide) rfl fun o ho s a t => ?_)
  rcases o with _ | b
  · exact failNext_ne_ok
  · have hb : b ≠ 0x5d := fun h => ho (congrArg some h)
    by_cases hcomma : b = 0x2c
    · subst hcomma
      intro h
      obtain ⟨_, _, -, h⟩ := Stateful.bind_eq_ok_iff.mp h
      obtain ⟨_, _, -, h⟩ := Stateful.bind_eq_ok_iff.mp h
      obtain ⟨_, _, -, h⟩ := Stateful.bind_eq_ok_iff.mp h
      exact failNext_ne_ok h
    · simp only
      exact failNext_ne_ok

/-- Where an element must come next, anything but the closing bracket will do. -/
def StartsElement (text : List Char) : Prop :=
  text ≠ [] ∧ text.head? ≠ some ']'

theorem startsElement_cons {c : Char} (h : c ≠ ']') (text : List Char) : StartsElement (c :: text) :=
  ⟨List.cons_ne_nil _ _, fun hhead => h (Option.some.inj hhead)⟩

/-- Looks for an element behind a comma. -/
def atElement : Reader Bool := do
  match ← peek? with
  | some 0x5d => failNext .trailingComma
  | some _ => return true
  | none => failNext .endInValue

theorem atElement_eq_ok_iff {more : Bool} (hs : s.Holds text) :
    atElement s = .ok more t ↔ more = true ∧ s = t ∧ StartsElement text := by
  rw [atElement, peek?_bind]
  cases hhead : s.rest.head? with
  | none =>
    refine iff_of_false failNext_ne_ok ?_
    rintro ⟨-, -, hne, -⟩
    obtain ⟨b, hb⟩ := exists_head? hs hne
    rw [hhead] at hb
    cases hb
  | some b =>
    have hiff := eq_mark_iff (x := ']') (by decide) hs hhead
    by_cases hclose : b = 0x5d
    · subst hclose
      refine iff_of_false failNext_ne_ok ?_
      rintro ⟨-, -, -, hbracket⟩
      exact hbracket (hiff.mp rfl)
    · simp only
      rw [Stateful.pure_eq_ok_iff]
      have hstarts : StartsElement text := ⟨ne_nil_of_head? hs hhead, fun h => hclose (hiff.mpr h)⟩
      exact ⟨fun ⟨h, ht⟩ => ⟨h.symm, ht, hstarts⟩, fun ⟨h, ht, _⟩ => ⟨h.symm, ht⟩⟩

/-- A list ends, or goes on with the next element. -/
theorem exact_hasElement (first : Bool) : Exact (hasElement first) fun text more rest =>
    more = false ∧ (∃ behind, behindBlanks text = ']' :: behind ∧ rest = ']' :: behind) ∨
      more = true ∧ NextAt first text rest ∧ StartsElement rest := by
  refine GoesOn.exact
    { start := return true
      atItem := atElement
      problem := .noCommaInList
      lt := by decide
      ne_comma := by decide
      none_ne_ok := fun _ _ _ => failNext_ne_ok
      close := rfl
      other := fun b hb => ?_
      start_iff := fun s text _ hne hhead more t => ?_
      atItem_iff := fun _ _ hs _ _ => atElement_eq_ok_iff hs
      next := fun _ h => h }
  · have hb : b ≠ 0x5d := hb
    simp only
    rfl
  · rw [Stateful.pure_eq_ok_iff]
    exact ⟨fun ⟨h, ht⟩ => ⟨h.symm, ht, hne, hhead⟩, fun ⟨h, ht, _⟩ => ⟨h.symm, ht⟩⟩

variable {element : Reader α} {item : Spelling α}

theorem elements_sound (h : Exact element fun text => item (behindBlanks text)) {turns index : Nat}
    {done all : List α} (hs : s.Holds text) (hread : elements element turns index done s = .ok all t) :
    ∃ as rest, t.Holds (']' :: rest) ∧ From (index == 0) ']' item text as rest ∧ all = done.reverse ++ as := by
  induction turns generalizing index done s text with
  | zero => exact absurd hread failNext_ne_ok
  | succ turns ih =>
    obtain ⟨more, mid, hmore, hread⟩ := Stateful.bind_eq_ok_iff.mp hread
    obtain ⟨start, hmid, hspelled⟩ := (exact_hasElement _).sound hs hmore
    rcases hspelled with ⟨rfl, rest, hclose, rfl⟩ | ⟨rfl, hnext, -⟩
    · cases hread
      exact ⟨[], rest, hmid, Or.inl ⟨rfl, hclose⟩, (List.append_nil _).symm⟩
    · obtain ⟨a, behind, ha, hread⟩ := Stateful.bind_eq_ok_iff.mp hread
      obtain ⟨next, hbehind, hitem⟩ := h.sound hmid (within_eq_ok_iff.mp ha)
      rw [behindBlanks_of_nextAt hnext] at hitem
      obtain ⟨as, rest, ht, has, rfl⟩ := ih hbehind hread
      refine ⟨a :: as, rest, ht, Or.inr ⟨a, as, start, next, rfl, hnext, hitem, more_iff.mpr has⟩, ?_⟩
      rw [List.reverse_cons, List.append_assoc]
      rfl

/-- As many turns as characters, and one more, are enough. -/
theorem elements_complete (h : Exact element fun text => item (behindBlanks text)) (hitem : ItemOf ']' item)
    {turns : Nat} (index : Nat) (done : List α) {all : List α} (hs : s.Holds text)
    (hturns : text.length < turns) (hspelled : From (index == 0) ']' item text all rest) :
    ∃ t, elements element turns index done s = .ok (done.reverse ++ all) t ∧ t.Holds (']' :: rest) := by
  induction turns generalizing index done s text all with
  | zero => exact absurd hturns (Nat.not_lt_zero _)
  | succ turns ih =>
    rcases hspelled with ⟨rfl, hclose⟩ | ⟨a, as, start, next, rfl, hnext, ha, has⟩
    · obtain ⟨t, hmore, ht⟩ :=
        (exact_hasElement (index == 0)).complete hs (Or.inl ⟨rfl, rest, hclose, rfl⟩)
      refine ⟨t, (Stateful.bind_ok hmore).trans ?_, ht⟩
      rw [List.append_nil]
      rfl
    · obtain ⟨mid, hmore, hmid⟩ :=
        (exact_hasElement (index == 0)).complete hs (Or.inr ⟨rfl, hnext, hitem.next ha⟩)
      have hlength : next.length < turns := by
        have hshorter := hitem.shorter _ _ _ ha
        have hstart := length_le_of_nextAt hnext
        omega
      rw [← behindBlanks_of_nextAt hnext] at ha
      obtain ⟨behind, hread, hbehind⟩ := h.complete hmid ha
      obtain ⟨t, hrest, ht⟩ := ih (index + 1) (a :: done) hbehind hlength (more_iff.mp has)
      have hwithin : within (.element index) element mid = .ok a behind := within_eq_ok_iff.mpr hread
      refine ⟨t, (Stateful.bind_ok hmore).trans ((Stateful.bind_ok hwithin).trans (hrest.trans ?_)), ht⟩
      rw [List.reverse_cons, List.append_assoc]
      rfl

theorem exists_closeList (hs : s.Holds (']' :: rest)) : ∃ t, closeList s = .ok () t ∧ t.Holds rest :=
  exact_closeList.complete hs rfl

theorem exact_listEnd (h : Exact element fun text => item (behindBlanks text)) (hitem : ItemOf ']' item) : Exact
    (do
      let all ← elements element ((← get).rest.length + 2) 0 []
      closeList
      return all) (From true ']' item) := by
  constructor
  · intro s t text all hs hread
    rw [Stateful.get_bind] at hread
    obtain ⟨found, mid, hfound, hread⟩ := Stateful.bind_eq_ok_iff.mp hread
    obtain ⟨as, rest, hmid, has, rfl⟩ := elements_sound h hs hfound
    obtain ⟨last, hclose, hlast⟩ := exists_closeList hmid
    rw [Stateful.bind_ok hclose] at hread
    cases hread
    exact ⟨rest, hlast, has⟩
  · intro s text rest all hs hspelled
    have hturns : text.length < s.rest.length + 2 := by
      have hbytes := length_le_length_plain text
      rw [← hs] at hbytes
      omega
    obtain ⟨mid, hfound, hmid⟩ := elements_complete h hitem 0 [] hs hturns hspelled
    obtain ⟨t, hclose, ht⟩ := exists_closeList hmid
    refine ⟨t, ?_, ht⟩
    rw [Stateful.get_bind, Stateful.bind_ok hfound, Stateful.bind_ok hclose]
    rfl

theorem exact_list (h : Exact element fun text => item (behindBlanks text)) (hitem : ItemOf ']' item) :
    Exact (list element) fun text => Spelled.Between '[' ']' item (behindBlanks text) := by
  have hother (b : UInt8) (hb : b ≠ UInt8.ofNat '['.toNat) (s : Source) (a : List α) (t : Source) :
      (if b = 0x5b then do
          pass
          let all ← elements element ((← get).rest.length + 2) 0 []
          closeList
          return all
        else wrongType "a sequence" : Reader (List α)) s ≠ .ok a t := by
    have hbracket : ¬ b = 0x5b := hb
    rw [if_neg hbracket]
    exact wrongType_ne_ok
  refine (exact_firstByte_mark (by decide) rfl hother (exact_listEnd h hitem)).of_iff fun text all rest => ?_
  exact between_iff.symm

theorem length_lt_of_characters {chars : List Char} (h : Spelled.Characters text chars rest) :
    rest.length < text.length := by
  induction h with
  | close => exact Nat.lt_succ_self _
  | plain _ _ ih => exact Nat.lt_succ_of_lt ih
  | escape hspelled _ ih => exact Nat.lt_succ_of_lt (ih.trans (length_lt_of_escape hspelled))

theorem itemOf_text : ItemOf ']' Spelled.Text := by
  constructor
  · intro text a rest h
    cases h with
    | quoted hchars => exact Nat.lt_succ_of_lt (length_lt_of_characters hchars)
  · intro text a rest h
    cases h

/-! ### Objects -/

theorem exact_colon : Exact colon fun text _ rest => behindBlanks text = ':' :: rest := by
  refine exact_blanks (exact_peek?_pass (x := ':') (by decide) rfl fun o ho s a t => ?_)
  rcases o with _ | b
  · exact failNext_ne_ok
  · have hb : b ≠ 0x3a := fun h => ho (congrArg some h)
    simp only
    exact failNext_ne_ok

theorem exact_closeObject : Exact closeObject fun text _ rest => behindBlanks text = '\x7d' :: rest := by
  refine exact_blanks (exact_peek?_pass (x := '\x7d') (by decide) rfl fun o ho s a t => ?_)
  rcases o with _ | b
  · exact failNext_ne_ok
  · have hb : b ≠ 0x7d := fun h => ho (congrArg some h)
    by_cases hcomma : b = 0x2c
    · subst hcomma
      exact failNext_ne_ok
    · simp only
      exact failNext_ne_ok

/-- Looks for the quote of a key. -/
def atKey : Reader Bool := do
  match ← peek? with
  | some 0x22 => return true
  | some 0x7d => failNext .trailingComma
  | some _ => failNext .noKey
  | none => failNext .endInValue

theorem atKey_eq_ok_iff {more : Bool} (hs : s.Holds text) :
    atKey s = .ok more t ↔ more = true ∧ s = t ∧ text.head? = some '"' := by
  rw [atKey, peek?_bind]
  cases hhead : s.rest.head? with
  | none =>
    refine iff_of_false failNext_ne_ok ?_
    rintro ⟨-, -, hquote⟩
    obtain ⟨rest, rfl⟩ := List.head?_eq_some_iff.mp hquote
    rw [head?_of_holds (by decide) hs] at hhead
    cases hhead
  | some b =>
    have hiff := eq_mark_iff (x := '"') (by decide) hs hhead
    by_cases hquote : b = 0x22
    · subst hquote
      refine Stateful.pure_eq_ok_iff.trans ?_
      exact ⟨fun ⟨h, ht⟩ => ⟨h.symm, ht, hiff.mp rfl⟩, fun ⟨h, ht, _⟩ => ⟨h.symm, ht⟩⟩
    · refine iff_of_false ?_ fun ⟨_, _, h⟩ => hquote (hiff.mpr h)
      by_cases hclose : b = 0x7d
      · subst hclose
        exact failNext_ne_ok
      · simp only
        exact failNext_ne_ok

/-- An object ends, or goes on with the next key. -/
theorem exact_hasMember (first : Bool) : Exact (hasMember first) fun text more rest =>
    more = false ∧ (∃ behind, behindBlanks text = '\x7d' :: behind ∧ rest = '\x7d' :: behind) ∨
      more = true ∧ NextAt first text rest ∧ rest.head? = some '"' := by
  refine GoesOn.exact
    { start := atKey
      atItem := atKey
      problem := .noCommaInObject
      lt := by decide
      ne_comma := by decide
      none_ne_ok := fun _ _ _ => failNext_ne_ok
      close := rfl
      other := fun b hb => ?_
      start_iff := fun _ _ hs _ _ _ _ => atKey_eq_ok_iff hs
      atItem_iff := fun _ _ hs _ _ => atKey_eq_ok_iff hs
      next := fun text h => ?_ }
  · have hb : b ≠ 0x7d := hb
    simp only
    rfl
  · rw [h]
    refine ⟨?_, by decide⟩
    rintro rfl
    cases h

end Reader
end ClassXref.Json
