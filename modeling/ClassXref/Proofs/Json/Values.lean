import ClassXref.Proofs.Json.Numbers
import ClassXref.Proofs.Json.Strings

/-! The readers of texts and of natural numbers are exact, and so is a reader that takes `null` in place of a
value. Where blanks may stand, they are passed over before the next byte is looked at. -/
namespace ClassXref.Json

open ModifiedUtf8 (plain plain_cons)

namespace Reader

variable {α β : Type} {s t : Source} {text rest : List Char}

/-! ### Marks -/

theorem exact_blanks {reader : Reader α} {spelling : Spelling α} (h : Exact reader spelling) :
    Exact (blanks >>= fun _ => reader) fun text => spelling (behindBlanks text) := by
  constructor
  · intro s t text a hs hread
    obtain ⟨mid, hblanks, hmid⟩ := exists_blanks hs
    rw [Stateful.bind_ok hblanks] at hread
    exact h.sound hmid hread
  · intro s text rest a hs hspelled
    obtain ⟨mid, hblanks, hmid⟩ := exists_blanks hs
    obtain ⟨t, hread, ht⟩ := h.complete hmid hspelled
    exact ⟨t, (Stateful.bind_ok hblanks).trans hread, ht⟩

/-- A mark at the front is passed over. -/
theorem exists_pass {x : Char} (hx : x.toNat < 0x80) (hs : s.Holds (x :: text)) :
    ∃ t, pass s = .ok () t ∧ t.Holds text := by
  obtain ⟨t, hnext, ht⟩ := exists_next? (hs.trans (plain_cons_of_lt hx text))
  exact ⟨t, Stateful.bind_ok hnext, ht⟩

theorem head?_of_holds {x : Char} (hx : x.toNat < 0x80) (hs : s.Holds (x :: text)) :
    s.rest.head? = some (UInt8.ofNat x.toNat) := by
  have hrest : s.rest = plain (x :: text) := hs
  rw [hrest, plain_cons_of_lt hx]
  rfl

theorem exists_cons_of_head? {x : Char} (hx : x.toNat < 0x80) (hs : s.Holds text)
    (h : s.rest.head? = some (UInt8.ofNat x.toNat)) : ∃ rest, text = x :: rest := by
  have hrest : s.rest = plain text := hs
  rw [hrest, head?_plain_eq_some_iff hx, List.head?_eq_some_iff] at h
  exact h

section

variable {x : Char} {next : Reader α} {spelling : Spelling α} {a : α}

theorem behind_mark_sound (hx : x.toNat < 0x80) (h : Exact next spelling) (hs : s.Holds text)
    (hhead : s.rest.head? = some (UInt8.ofNat x.toNat)) (hread : (pass >>= fun _ => next) s = .ok a t) :
    ∃ rest, t.Holds rest ∧ ∃ mid, text = x :: mid ∧ spelling mid a rest := by
  obtain ⟨mid, rfl⟩ := exists_cons_of_head? hx hs hhead
  obtain ⟨behind, hpass, hbehind⟩ := exists_pass hx hs
  rw [Stateful.bind_ok hpass] at hread
  obtain ⟨rest, ht, hspelled⟩ := h.sound hbehind hread
  exact ⟨rest, ht, mid, rfl, hspelled⟩

theorem behind_mark_complete (hx : x.toNat < 0x80) (h : Exact next spelling) (hs : s.Holds (x :: text))
    (hspelled : spelling text a rest) : ∃ t, (pass >>= fun _ => next) s = .ok a t ∧ t.Holds rest := by
  obtain ⟨behind, hpass, hbehind⟩ := exists_pass hx hs
  obtain ⟨t, hread, ht⟩ := h.complete hbehind hspelled
  exact ⟨t, (Stateful.bind_ok hpass).trans hread, ht⟩

/-- A reader that goes on at one mark only. -/
theorem exact_peek?_mark (hx : x.toNat < 0x80) {f : Option UInt8 → Reader α}
    (hmark : f (some (UInt8.ofNat x.toNat)) = pass >>= fun _ => next)
    (hother : ∀ o, o ≠ some (UInt8.ofNat x.toNat) → ∀ s a t, f o s ≠ .ok a t) (h : Exact next spelling) :
    Exact (peek? >>= f) fun text a rest => ∃ mid, text = x :: mid ∧ spelling mid a rest := by
  constructor
  · intro s t text a hs hread
    rw [peek?_bind] at hread
    by_cases hhead : s.rest.head? = some (UInt8.ofNat x.toNat)
    · rw [hhead, hmark] at hread
      exact behind_mark_sound hx h hs hhead hread
    · exact absurd hread (hother _ hhead s a t)
  · rintro s text rest a hs ⟨mid, rfl, hspelled⟩
    obtain ⟨t, hread, ht⟩ := behind_mark_complete hx h hs hspelled
    refine ⟨t, ?_, ht⟩
    rw [peek?_bind, head?_of_holds hx hs, hmark]
    exact hread

end

/-- A reader that takes one mark and nothing else. -/
theorem exact_peek?_pass {x : Char} (hx : x.toNat < 0x80) {f : Option UInt8 → Reader Unit}
    (hmark : f (some (UInt8.ofNat x.toNat)) = pass)
    (hother : ∀ o, o ≠ some (UInt8.ofNat x.toNat) → ∀ s a t, f o s ≠ .ok a t) :
    Exact (peek? >>= f) fun text _ rest => text = x :: rest := by
  have hpass : f (some (UInt8.ofNat x.toNat)) = pass >>= fun _ => Pure.pure () :=
    hmark.trans (bind_pure pass).symm
  refine (exact_peek?_mark hx hpass hother (Exact.pure ())).of_iff fun text a rest => ⟨?_, ?_⟩
  · rintro ⟨mid, rfl, -, rfl⟩
    rfl
  · rintro rfl
    exact ⟨rest, rfl, rfl, rfl⟩

theorem exists_head? (hs : s.Holds text) (hne : text ≠ []) : ∃ b, s.rest.head? = some b := by
  obtain ⟨c, rest, rfl⟩ := List.exists_cons_of_ne_nil hne
  obtain ⟨b, bytes, -, hplain⟩ := exists_plain_cons c rest
  have hrest : s.rest = plain (c :: rest) := hs
  rw [hrest, hplain]
  exact ⟨b, rfl⟩

theorem ne_nil_of_head? {b : UInt8} (hs : s.Holds text) (hhead : s.rest.head? = some b) : text ≠ [] := by
  rintro rfl
  have hrest : s.rest = [] := hs
  rw [hrest] at hhead
  cases hhead

theorem eq_mark_iff {x : Char} (hx : x.toNat < 0x80) {b : UInt8} (hs : s.Holds text)
    (hhead : s.rest.head? = some b) : b = UInt8.ofNat x.toNat ↔ text.head? = some x := by
  have hrest : s.rest = plain text := hs
  rw [← head?_plain_eq_some_iff hx, ← hrest, hhead, Option.some.injEq]

/-! ### Values -/

theorem wrongType_ne_ok {expected : String} {a : α} : wrongType expected s ≠ .ok a t := by
  intro h
  obtain ⟨found, mid, -, hfail⟩ := Stateful.bind_eq_ok_iff.mp h
  exact fail_ne_ok hfail

/-- What begins with one mark, and is of another type where something else is next. -/
theorem exact_firstByte_mark {x : Char} (hx : x.toNat < 0x80) {f : UInt8 → Reader α} {next : Reader α}
    {spelling : Spelling α} (hmark : f (UInt8.ofNat x.toNat) = pass >>= fun _ => next)
    (hother : ∀ b, b ≠ UInt8.ofNat x.toNat → ∀ s a t, f b s ≠ .ok a t) (h : Exact next spelling) :
    Exact (firstByte >>= f) fun text a rest => ∃ mid, behindBlanks text = x :: mid ∧ spelling mid a rest := by
  have hfirst : firstByte >>= f = blanks >>= fun _ => peek? >>= fun o => o.elim (failNext .endInValue) f := by
    rw [firstByte, bind_assoc]
    refine congrArg (blanks >>= ·) (funext fun _ => ?_)
    rw [bind_assoc]
    refine congrArg (peek? >>= ·) (funext fun o => ?_)
    cases o <;> rfl
  rw [hfirst]
  refine exact_blanks (exact_peek?_mark hx hmark (fun o ho => ?_) h)
  rcases o with _ | b
  · exact fun _ _ _ => failNext_ne_ok
  · exact hother b fun hb => ho (congrArg some hb)

theorem exact_text : Exact Reader.text fun text => Spelled.Text (behindBlanks text) := by
  have hother (b : UInt8) (hb : b ≠ UInt8.ofNat '"'.toNat) (s : Source) (a : String) (t : Source) :
      (if b = 0x22 then do pass; stringBody else wrongType "a string" : Reader String) s ≠ .ok a t := by
    have hquote : ¬ b = 0x22 := hb
    rw [if_neg hquote]
    exact wrongType_ne_ok
  refine (exact_firstByte_mark (by decide) rfl hother exact_stringBody).of_iff fun text a rest => ?_
  constructor
  · rintro ⟨mid, hmid, chars, hchars, rfl⟩
    rw [hmid]
    exact .quoted hchars
  · intro h
    generalize hmid : behindBlanks text = whole at h
    cases h with
    | quoted hchars => exact ⟨_, rfl, _, hchars, rfl⟩

theorem neverNatural_afterInteger (significand dropped : Nat) :
    NeverNatural (afterInteger true significand dropped) := by
  refine neverNatural_bind fun o => ?_
  split
  · exact neverNatural_bind fun _ => neverNatural_fractionPart _ _ _
  · refine neverNatural_bind fun exponential => ?_
    split
    · exact neverNatural_optionalExponent _ _ _
    · rw [Bool.not_true, if_neg Bool.false_ne_true]
      intro s n t h
      split at h <;> cases h

/-- Behind a minus there is no natural number. -/
theorem neverNatural_number : NeverNatural (number true) := by
  refine neverNatural_bind fun o => ?_
  split
  · exact neverNatural_fail _
  · refine neverNatural_bind fun o => ?_
    split
    · exact fun _ _ _ => failNext_ne_ok
    · exact neverNatural_afterInteger _ _
  · split
    · exact neverNatural_bind fun digits => neverNatural_afterInteger _ _
    · exact neverNatural_fail _

/-- Of the numbers, only natural ones are taken. -/
theorem only_natural_iff {reader : Reader Number} {expected : String} {n : Nat} :
    (do
      match ← reader with
      | .natural n => return n
      | .negative n => fail (.wrongValue (.integer (-n)) expected)
      | .float f => fail (.wrongType (.float f.toBits) expected) : Reader Nat) s = .ok n t ↔
      reader s = .ok (.natural n) t := by
  constructor
  · intro h
    obtain ⟨number, mid, hread, h⟩ := Stateful.bind_eq_ok_iff.mp h
    cases number with
    | natural m =>
      cases h
      exact hread
    | negative m => exact absurd h fail_ne_ok
    | float f => exact absurd h fail_ne_ok
  · exact fun h => Stateful.bind_ok h

theorem firstByte_eq_ok {b : UInt8} (hs : s.Holds text) (h : firstByte s = .ok b t) :
    t.Holds (behindBlanks text) ∧ t.rest.head? = some b := by
  obtain ⟨mid, hblanks, hmid⟩ := exists_blanks hs
  rw [firstByte, Stateful.bind_ok hblanks, peek?_bind] at h
  cases hhead : mid.rest.head? with
  | none =>
    rw [hhead] at h
    cases h
  | some found =>
    rw [hhead] at h
    cases h
    exact ⟨hmid, hhead⟩

theorem exists_firstByte {x : Char} (hx : x.toNat < 0x80) (hs : s.Holds text)
    (h : behindBlanks text = x :: rest) :
    ∃ t, firstByte s = .ok (UInt8.ofNat x.toNat) t ∧ t.Holds (x :: rest) := by
  obtain ⟨t, hblanks, ht⟩ := exists_blanks hs
  rw [h] at ht
  refine ⟨t, ?_, ht⟩
  rw [firstByte, Stateful.bind_ok hblanks, peek?_bind, head?_of_holds hx ht]
  rfl

theorem exists_of_isDigit {b : UInt8} (hs : s.Holds text) (hhead : s.rest.head? = some b)
    (hb : isDigit b = true) : ∃ c rest, text = c :: rest ∧ c.isDigit = true ∧ b = UInt8.ofNat c.toNat := by
  have hany := head?_any_eq agree_isDigit hs
  rw [hhead, Option.any_some, hb] at hany
  cases text with
  | nil => cases hany
  | cons c rest =>
    have hc : c.isDigit = true := hany.symm
    have hbyte := head?_of_holds (toNat_lt_of_isDigit hc) hs
    rw [hhead] at hbyte
    exact ⟨c, rest, rfl, hc, Option.some.inj hbyte⟩

theorem not_natural_nil {n : Nat} : ¬ Spelled.Natural [] n rest := by
  intro h
  generalize hwhole : ([] : List Char) = whole at h
  cases h with
  | digits hne _ _ _ _ _ => exact hne (List.append_eq_nil_iff.mp hwhole.symm).1

theorem exact_natural : Exact natural fun text => Spelled.Natural (behindBlanks text) := by
  constructor
  · intro s t text n hs h
    obtain ⟨first, mid, hfirst, h⟩ := Stateful.bind_eq_ok_iff.mp h
    obtain ⟨hmid, hhead⟩ := firstByte_eq_ok hs hfirst
    by_cases hminus : first = 0x2d
    · subst hminus
      obtain ⟨_, behind, -, h⟩ := Stateful.bind_eq_ok_iff.mp h
      exact absurd (only_natural_iff.mp h) (neverNatural_number _ _ _)
    · by_cases hdigit : isDigit first = true
      · rw [if_pos (Or.inr hdigit)] at h
        dsimp only at h
        rw [if_neg hminus, beq_false_of_ne hminus] at h
        obtain ⟨c, more, htext, hc, -⟩ := exists_of_isDigit hmid hhead hdigit
        rw [htext] at hmid ⊢
        obtain ⟨behind, hbehind, hiff⟩ := exists_number_iff hc hmid
        obtain ⟨-, hmake, rfl⟩ := (hiff false n t).mp (only_natural_iff.mp h)
        exact ⟨_, hbehind, natural_cons_iff.mpr ⟨hc, hmake, rfl⟩⟩
      · rw [if_neg (not_or.mpr ⟨hminus, hdigit⟩)] at h
        exact absurd h wrongType_ne_ok
  · intro s text rest n hs h
    cases htext : behindBlanks text with
    | nil =>
      rw [htext] at h
      exact absurd h not_natural_nil
    | cons c more =>
      rw [htext] at h
      obtain ⟨hc, hmake, rfl⟩ := natural_cons_iff.mp h
      obtain ⟨mid, hfirst, hmid⟩ := exists_firstByte (toNat_lt_of_isDigit hc) hs htext
      obtain ⟨t, ht, hiff⟩ := exists_number_iff hc hmid
      refine ⟨t, (Stateful.bind_ok hfirst).trans ?_, ht⟩
      have hdigit := isDigit_ofNat hc
      have hminus : UInt8.ofNat c.toNat ≠ 0x2d := by
        intro hminus
        rw [hminus] at hdigit
        cases hdigit
      rw [if_pos (Or.inr hdigit)]
      dsimp only
      rw [if_neg hminus, beq_false_of_ne hminus]
      exact only_natural_iff.mpr ((hiff false n t).mpr ⟨rfl, hmake, rfl⟩)

/-- The letters of a literal are taken one by one. -/
theorem exact_literal {chars : List Char} (hchars : ∀ c ∈ chars, c.toNat < 0x80) :
    Exact (literal (plain chars)) fun text _ rest => text = chars ++ rest := by
  induction chars with
  | nil =>
    refine (Exact.pure ()).of_iff fun text a rest => ⟨?_, ?_⟩
    · rintro ⟨-, rfl⟩
      rfl
    · rintro rfl
      exact ⟨rfl, rfl⟩
  | cons c chars ih =>
    have hc := hchars c List.mem_cons_self
    have hrest := ih fun d hd => hchars d (List.mem_cons_of_mem c hd)
    rw [plain_cons_of_lt hc]
    constructor
    · intro s t text _ hs h
      obtain ⟨o, mid, hnext, h⟩ := Stateful.bind_eq_ok_iff.mp h
      rcases next?_eq_ok hnext with ⟨-, rfl⟩ | ⟨b, hb, rfl⟩
      · cases h
      dsimp only at h
      split at h
      · next hletter =>
        subst hletter
        obtain ⟨more, rfl, hmid⟩ := exists_of_plain_eq_char hc (hs.symm.trans hb)
        have hmid : mid.Holds more := hmid
        obtain ⟨rest, ht, rfl⟩ := hrest.sound hmid h
        exact ⟨rest, ht, rfl⟩
      · cases h
    · rintro s text rest _ hs rfl
      have hs : s.Holds (c :: (chars ++ rest)) := hs
      obtain ⟨mid, hnext, hmid⟩ := exists_next? (hs.trans (plain_cons_of_lt hc _))
      obtain ⟨t, hread, ht⟩ := hrest.complete hmid rfl
      refine ⟨t, ?_, ht⟩
      rw [literal, Stateful.bind_ok hnext]
      dsimp only
      rw [if_pos rfl]
      exact hread

/-- The spelling finds no value where this character is next. -/
def NotAt (x : Char) (value : Spelling α) : Prop :=
  ∀ text a rest, ¬ value (x :: text) a rest

theorem exact_optional {reader : Reader α} {value : Spelling α}
    (h : Exact reader fun text => value (behindBlanks text)) (hnull : NotAt 'n' value) :
    Exact (optional reader) fun text => Spelled.OrNull value (behindBlanks text) := by
  have hliteral : Exact (literal (letters "ull")) fun text _ rest => text = ['u', 'l', 'l'] ++ rest := by
    have hchars : "ull".toList = ['u', 'l', 'l'] := by decide +kernel
    rw [letters, ModifiedUtf8.toList_toUTF8, hchars]
    exact exact_literal (by simp)
  constructor
  · intro s t text a hs hread
    obtain ⟨mid, hblanks, hmid⟩ := exists_blanks hs
    rw [optional, Stateful.bind_ok hblanks, peek?_bind] at hread
    by_cases hhead : mid.rest.head? = some 0x6e
    · obtain ⟨more, hmore⟩ := exists_cons_of_head? (x := 'n') (by decide) hmid hhead
      rw [hmore] at hmid ⊢
      obtain ⟨behind, hpass, hbehind⟩ := exists_pass (by decide) hmid
      rw [if_pos hhead, Stateful.bind_ok hpass] at hread
      obtain ⟨_, last, hull, hread⟩ := Stateful.bind_eq_ok_iff.mp hread
      obtain ⟨rest, hlast, rfl⟩ := hliteral.sound hbehind hull
      cases hread
      exact ⟨rest, hlast, .null⟩
    · rw [if_neg hhead] at hread
      obtain ⟨v, last, hvalue, hread⟩ := Stateful.bind_eq_ok_iff.mp hread
      obtain ⟨rest, hlast, hspelled⟩ := h.sound hmid hvalue
      cases hread
      rw [behindBlanks_behindBlanks] at hspelled
      exact ⟨rest, hlast, .value hspelled⟩
  · intro s text rest a hs hspelled
    obtain ⟨mid, hblanks, hmid⟩ := exists_blanks hs
    rw [optional, Stateful.bind_ok hblanks, peek?_bind]
    generalize htext : behindBlanks text = whole at hspelled hmid
    cases hspelled with
    | null =>
      obtain ⟨behind, hpass, hbehind⟩ := exists_pass (by decide) hmid
      obtain ⟨t, hull, ht⟩ := hliteral.complete (a := ()) hbehind rfl
      have hhead : mid.rest.head? = some 0x6e := head?_of_holds (x := 'n') (by decide) hmid
      refine ⟨t, ?_, ht⟩
      rw [if_pos hhead, Stateful.bind_ok hpass, Stateful.bind_ok hull]
      rfl
    | value hvalue =>
      have hhead : ¬ mid.rest.head? = some 0x6e := by
        intro hhead
        obtain ⟨more, rfl⟩ := exists_cons_of_head? (x := 'n') (by decide) hmid hhead
        exact hnull _ _ _ hvalue
      rw [← htext, ← behindBlanks_behindBlanks] at hvalue
      rw [← htext] at hmid
      obtain ⟨t, hread, ht⟩ := h.complete hmid hvalue
      refine ⟨t, ?_, ht⟩
      rw [if_neg hhead, Stateful.bind_ok hread]
      rfl

end Reader
end ClassXref.Json
