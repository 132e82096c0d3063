import ClassXref.Proofs.Json.Exact

/-! The natural numbers that the reader of numbers returns are the ones that are spelled out: digits, as many as 64
bits can hold the value of, without a fraction or an exponent. All else becomes a negative number or a double. -/
namespace ClassXref.Json

open ModifiedUtf8 (plain plain_cons)

namespace Reader

variable {α β : Type} {s t : Source} {text rest : List Char}

/-- The reader may return a number, but no natural one. -/
def NeverNatural (reader : Reader Number) : Prop :=
  ∀ s n t, reader s ≠ .ok (.natural n) t

theorem neverNatural_bind {reader : Reader α} {next : α → Reader Number} (h : ∀ a, NeverNatural (next a)) :
    NeverNatural (reader >>= next) := by
  intro s n t hread
  obtain ⟨a, mid, -, hthen⟩ := Stateful.bind_eq_ok_iff.mp hread
  exact h a mid n t hthen

theorem neverNatural_fail (problem : Problem) : NeverNatural (fail problem) :=
  fun _ _ _ => fail_ne_ok

theorem neverNatural_throw (flaw : Flaw) : NeverNatural (throw flaw) := by
  intro s n t h
  cases h

theorem neverNatural_float (f : Float) : NeverNatural (return .float f) := by
  intro s n t h
  cases h

theorem neverNatural_scaled (negative : Bool) (significand : Nat) (exponent : Int) :
    NeverNatural (scaled negative significand exponent) := by
  unfold scaled
  split
  · exact neverNatural_float _
  · exact neverNatural_fail _

theorem neverNatural_exponentPart (negative : Bool) (significand : Nat) (start : Int) :
    NeverNatural (exponentPart negative significand start) := by
  refine neverNatural_bind fun sign => ?_
  dsimp only
  -- the sign of the exponent is passed over in two cases of three, and then all goes the same way
  split
  all_goals
    repeat refine neverNatural_bind fun _ => ?_
    split
    · exact neverNatural_fail _
    · split
      · refine neverNatural_bind fun more => ?_
        split
        · exact neverNatural_scaled _ _ _
        · split
          · exact neverNatural_bind fun _ => neverNatural_throw _
          · exact neverNatural_float _
      · exact neverNatural_fail _

theorem neverNatural_optionalExponent (negative : Bool) (significand : Nat) (exponent : Int) :
    NeverNatural (optionalExponent negative significand exponent) := by
  refine neverNatural_bind fun exponential => ?_
  split
  · exact neverNatural_bind fun _ => neverNatural_exponentPart _ _ _
  · exact neverNatural_scaled _ _ _

theorem neverNatural_fractionPart (negative : Bool) (significand : Nat) (exponent : Int) :
    NeverNatural (fractionPart negative significand exponent) := by
  refine neverNatural_bind fun digits => ?_
  split
  · exact neverNatural_bind fun _ => fun _ _ _ => failNext_ne_ok
  · exact neverNatural_optionalExponent _ _ _

/-- Behind the digits of a natural number stands no fraction and no exponent. -/
def EndsInteger (text : List Char) : Prop :=
  text.head? ∉ [some '.', some 'e', some 'E']

theorem atExponent_eq (hs : s.Holds text) :
    atExponent s = .ok (text.head? == some 'e' || text.head? == some 'E') s := by
  rw [← head?_beq (x := 'e') (by decide) hs, ← head?_beq (x := 'E') (by decide) hs]
  rfl

/-- A number whose digits have been read is a natural one if nothing makes it another. -/
theorem afterInteger_natural_iff {negative : Bool} {significand dropped n : Nat} (hs : s.Holds text) :
    afterInteger negative significand dropped s = .ok (.natural n) t ↔
      negative = false ∧ dropped = 0 ∧ EndsInteger text ∧ n = significand ∧ s = t := by
  rw [afterInteger, peek?_bind]
  have hpoint := head?_beq (x := '.') (by decide) hs
  by_cases hdot : text.head? = some '.'
  · have hbyte : (s.rest.head? == some 0x2e) = true := hpoint.trans (beq_iff_eq.mpr hdot)
    rw [if_pos hbyte]
    constructor
    · intro h
      exact absurd h (neverNatural_bind (fun _ => neverNatural_fractionPart _ _ _) s n t)
    · rintro ⟨-, -, hends, -⟩
      exact absurd (by simp [hdot]) hends
  · have hbyte : ¬ (s.rest.head? == some 0x2e) = true := by
      intro h
      exact hdot (beq_iff_eq.mp (hpoint.symm.trans h))
    rw [if_neg hbyte, Stateful.bind_ok (atExponent_eq hs)]
    by_cases hmore : dropped ≠ 0 ∨ (text.head? == some 'e' || text.head? == some 'E') = true
    · rw [if_pos hmore]
      constructor
      · intro h
        exact absurd h (neverNatural_optionalExponent _ _ _ s n t)
      · rintro ⟨-, hdropped, hends, -⟩
        simp only [EndsInteger, List.mem_cons, List.not_mem_nil, not_or] at hends
        simp only [hdropped, ne_eq, not_true, false_or, Bool.or_eq_true, beq_iff_eq] at hmore
        exact absurd hmore (not_or.mpr ⟨hends.2.1, hends.2.2.1⟩)
    · rw [if_neg hmore]
      simp only [ne_eq, not_or, not_not, Bool.or_eq_true, beq_iff_eq] at hmore
      have hends : EndsInteger text := by
        simp [EndsInteger, hdot, hmore]
      cases negative with
      | false =>
        rw [Bool.not_false, if_pos rfl, Stateful.pure_eq_ok_iff, Number.natural.injEq]
        exact ⟨fun ⟨h, ht⟩ => ⟨rfl, hmore.1, hends, h.symm, ht⟩, fun ⟨_, _, _, h, ht⟩ => ⟨h.symm, ht⟩⟩
      | true =>
        rw [Bool.not_true, if_neg Bool.false_ne_true]
        constructor
        · intro h
          split at h <;> cases h
        · rintro ⟨hnegative, -⟩
          cases hnegative

/-! #### Digits -/

theorem le_ofDigitChars (digits : List Char) (start : Nat) : start ≤ Nat.ofDigitChars 10 digits start := by
  induction digits generalizing start with
  | nil => exact Nat.le_refl _
  | cons c digits ih =>
    rw [Nat.ofDigitChars_cons]
    have htail := ih (10 * start + (c.toNat - '0'.toNat))
    omega

theorem toNat_lt_of_isDigit {c : Char} (h : c.isDigit = true) : c.toNat < 0x80 := by
  have hval : c.val.toNat = c.toNat := rfl
  simp only [Char.isDigit, Bool.and_eq_true, decide_eq_true_eq, UInt32.le_iff_toNat_le] at h
  exact Nat.lt_of_le_of_lt h.2 (by decide)

theorem toNat_sub_of_isDigit {c : Char} (h : c.isDigit = true) :
    (UInt8.ofNat c.toNat).toNat - 0x30 = c.toNat - '0'.toNat := by
  have hlt := toNat_lt_of_isDigit h
  rw [ModifiedUtf8.toNat_ofNat (by omega)]
  rfl

/-- The significand takes all digits if 64 bits hold the number, and otherwise leaves some. -/
theorem extendSignificand_plain {digits : List Char} (hdigits : ∀ c ∈ digits, c.isDigit = true)
    {start : Nat} (hstart : start ≤ maxUInt64) (count : Nat) :
    Nat.ofDigitChars 10 digits start ≤ maxUInt64 ∧
        extendSignificand start count (plain digits) = (Nat.ofDigitChars 10 digits start, count + digits.length) ∨
      maxUInt64 < Nat.ofDigitChars 10 digits start ∧
        (extendSignificand start count (plain digits)).2 < count + digits.length := by
  induction digits generalizing start count with
  | nil => exact Or.inl ⟨hstart, rfl⟩
  | cons c digits ih =>
    have hc := hdigits c List.mem_cons_self
    rw [plain_cons_of_lt (toNat_lt_of_isDigit hc), extendSignificand, toNat_sub_of_isDigit hc,
      Nat.ofDigitChars_cons, Nat.mul_comm 10 start, List.length_cons]
    by_cases hfits : start * 10 + (c.toNat - '0'.toNat) ≤ maxUInt64
    · rw [if_pos hfits, ← Nat.add_assoc, Nat.add_right_comm]
      exact ih (fun d hd => hdigits d (List.mem_cons_of_mem c hd)) hfits (count + 1)
    · have hmore := le_ofDigitChars digits (start * 10 + (c.toNat - '0'.toNat))
      rw [if_neg hfits]
      exact Or.inr ⟨by omega, by omega⟩

theorem length_plain {digits : List Char} (hdigits : ∀ c ∈ digits, c.isDigit = true) :
    (plain digits).length = digits.length := by
  induction digits with
  | nil => rfl
  | cons c digits ih =>
    rw [plain_cons_of_lt (toNat_lt_of_isDigit (hdigits c List.mem_cons_self)), List.length_cons,
      ih fun d hd => hdigits d (List.mem_cons_of_mem c hd), List.length_cons]

theorem takeWhile_eq_nil_of_head? {p : Char → Bool} (h : ∀ c ∈ text.head?, p c = false) :
    text.takeWhile p = [] ∧ text.dropWhile p = text := by
  cases text with
  | nil => exact ⟨rfl, rfl⟩
  | cons c text =>
    have hc : ¬ p c = true := by
      rw [h c rfl]
      decide
    exact ⟨List.takeWhile_cons_of_neg hc, List.dropWhile_cons_of_neg hc⟩

theorem head?_dropWhile (p : Char → Bool) (text : List Char) : ∀ c ∈ (text.dropWhile p).head?, p c = false := by
  intro c hc
  have hnot := List.head?_dropWhile_not p text
  rw [Option.mem_def.mp hc] at hnot
  exact hnot

/-- The digits at the front, the first one and those of the text behind it, spell out a natural number. -/
structure DigitsMake (c : Char) (text : List Char) (n : Nat) : Prop where
  no_zero_ahead : c = '0' → text.takeWhile Char.isDigit = []
  ends : EndsInteger (text.dropWhile Char.isDigit)
  lt : Nat.ofDigitChars 10 (c :: text.takeWhile Char.isDigit) 0 < UInt64.size
  eq : n = Nat.ofDigitChars 10 (c :: text.takeWhile Char.isDigit) 0

theorem natural_cons_iff {c : Char} {n : Nat} : Spelled.Natural (c :: text) n rest ↔
    c.isDigit = true ∧ DigitsMake c text n ∧ rest = text.dropWhile Char.isDigit := by
  constructor
  · intro h
    generalize hwhole : c :: text = whole at h
    cases h with
    | @digits digits rest hne hdigits hzero hbehind hends hlt =>
      obtain ⟨first, more, rfl⟩ := List.exists_cons_of_ne_nil hne
      rw [List.cons_append, List.cons.injEq] at hwhole
      obtain ⟨rfl, rfl⟩ := hwhole
      have hmore : ∀ d ∈ more, d.isDigit = true := fun d hd => hdigits d (List.mem_cons_of_mem c hd)
      obtain ⟨htake, hdrop⟩ := takeWhile_eq_nil_of_head? hbehind
      have htakes : (more ++ rest).takeWhile Char.isDigit = more := by
        rw [List.takeWhile_append_of_pos hmore, htake, List.append_nil]
      have hdrops : (more ++ rest).dropWhile Char.isDigit = rest := by
        rw [List.dropWhile_append_of_pos hmore, hdrop]
      refine ⟨hdigits c List.mem_cons_self, ⟨fun hc => ?_, ?_, ?_, ?_⟩, hdrops.symm⟩
      · rw [htakes]
        exact (List.cons.inj (hzero (congrArg some hc))).2
      · rwa [hdrops]
      · rwa [htakes]
      · rw [htakes]
  · rintro ⟨hc, ⟨hzero, hends, hlt, rfl⟩, rfl⟩
    have htext : c :: text = (c :: text.takeWhile Char.isDigit) ++ text.dropWhile Char.isDigit := by
      rw [List.cons_append, List.takeWhile_append_dropWhile]
    rw [htext]
    refine .digits (List.cons_ne_nil _ _) ?_ ?_ (head?_dropWhile _ _) hends hlt
    · exact List.forall_mem_cons.mpr ⟨hc, fun d hd => List.mem_takeWhile_imp hd⟩
    · intro hfirst
      have hzeroth : c = '0' := Option.some.inj hfirst
      rw [hzero hzeroth, hzeroth]

theorem isDigit_ofNat {c : Char} (h : c.isDigit = true) : isDigit (UInt8.ofNat c.toNat) = true := by
  rw [← h]
  apply agree_isDigit
  rw [utf8EncodeChar_of_lt (toNat_lt_of_isDigit h)]
  exact List.mem_singleton_self _

theorem number_zero (negative : Bool) (bytes : List UInt8) (offset : Nat) :
    number negative ⟨0x30 :: bytes, offset⟩ = (do
      if (← peek?).any isDigit then failNext .invalidNumber else afterInteger negative 0 0)
        ⟨bytes, offset + 1⟩ := rfl

theorem number_digit {b : UInt8} (hb : isDigit b = true) (hzero : b ≠ 0x30) (negative : Bool)
    (bytes : List UInt8) (offset : Nat) :
    number negative ⟨b :: bytes, offset⟩ = (do
      let digits ← run isDigit
      let extended := extendSignificand (b.toNat - 0x30) 0 digits
      afterInteger negative extended.1 (digits.length - extended.2)) ⟨bytes, offset + 1⟩ := by
  rw [number, Stateful.bind_ok (next?_cons b bytes offset)]
  simp only [hb, if_true]

/-- A zero is a number of its own, and no other digit may stand behind it. -/
theorem exists_number_zero (hs : s.Holds ('0' :: text)) :
    ∃ mid, mid.Holds (text.dropWhile Char.isDigit) ∧ ∀ negative n t,
      number negative s = .ok (.natural n) t ↔ negative = false ∧ DigitsMake '0' text n ∧ mid = t := by
  obtain ⟨bytes, offset⟩ := s
  obtain rfl : bytes = 0x30 :: plain text := hs.trans (plain_cons_of_lt (x := '0') (by decide) text)
  have hnext : Source.Holds ⟨plain text, offset + 1⟩ text := rfl
  cases hany : text.head?.any Char.isDigit with
  | true =>
    obtain ⟨mid, -, hmid⟩ := exists_run agree_isDigit hnext
    refine ⟨mid, hmid, fun negative n t => iff_of_false ?_ ?_⟩
    · rw [number_zero, peek?_bind, head?_any_eq agree_isDigit hnext, hany, if_pos rfl]
      exact failNext_ne_ok
    · rintro ⟨-, hmake, -⟩
      have hnone := hmake.no_zero_ahead rfl
      cases text with
      | nil => cases hany
      | cons d text =>
        have hd : d.isDigit = true := hany
        rw [List.takeWhile_cons_of_pos hd] at hnone
        cases hnone
  | false =>
    have hbehind : ∀ d ∈ text.head?, d.isDigit = false := by
      intro d hd
      rw [Option.mem_def.mp hd] at hany
      exact hany
    obtain ⟨htake, hdrop⟩ := takeWhile_eq_nil_of_head? hbehind
    have hvalue : Nat.ofDigitChars 10 ('0' :: text.takeWhile Char.isDigit) 0 = 0 := by
      rw [htake]
      rfl
    have hlt : Nat.ofDigitChars 10 ('0' :: text.takeWhile Char.isDigit) 0 < UInt64.size := by
      rw [hvalue]
      decide
    rw [hdrop]
    refine ⟨⟨plain text, offset + 1⟩, hnext, fun negative n t => ?_⟩
    rw [number_zero, peek?_bind, head?_any_eq agree_isDigit hnext, hany, if_neg Bool.false_ne_true,
      afterInteger_natural_iff hnext]
    constructor
    · rintro ⟨hnegative, -, hends, hn, ht⟩
      exact ⟨hnegative, ⟨fun _ => htake, hdrop.symm ▸ hends, hlt, hn.trans hvalue.symm⟩, ht⟩
    · rintro ⟨hnegative, hmake, ht⟩
      exact ⟨hnegative, rfl, hdrop ▸ hmake.ends, hmake.eq.trans hvalue, ht⟩

/-- Behind another digit all digits are read, and those that 64 bits do not hold make another number. -/
theorem exists_number_digit {c : Char} (hc : c.isDigit = true) (hzero : c ≠ '0') (hs : s.Holds (c :: text)) :
    ∃ mid, mid.Holds (text.dropWhile Char.isDigit) ∧ ∀ negative n t,
      number negative s = .ok (.natural n) t ↔ negative = false ∧ DigitsMake c text n ∧ mid = t := by
  obtain ⟨bytes, offset⟩ := s
  have hsmall := toNat_lt_of_isDigit hc
  obtain rfl : bytes = UInt8.ofNat c.toNat :: plain text := hs.trans (plain_cons_of_lt hsmall text)
  have hnext : Source.Holds ⟨plain text, offset + 1⟩ text := rfl
  obtain ⟨mid, hrun, hmid⟩ := exists_run agree_isDigit hnext
  refine ⟨mid, hmid, fun negative n t => ?_⟩
  have hdigits : ∀ d ∈ text.takeWhile Char.isDigit, d.isDigit = true := fun d hd => List.mem_takeWhile_imp hd
  have hbyte : UInt8.ofNat c.toNat ≠ 0x30 := by
    intro h
    have htoNat := congrArg UInt8.toNat h
    rw [ModifiedUtf8.toNat_ofNat (by omega)] at htoNat
    exact hzero (Char.toNat_inj.mp htoNat)
  have hvalue : Nat.ofDigitChars 10 (c :: text.takeWhile Char.isDigit) 0 =
      Nat.ofDigitChars 10 (text.takeWhile Char.isDigit) (c.toNat - '0'.toNat) := by
    rw [Nat.ofDigitChars_cons, Nat.mul_zero, Nat.zero_add]
  have hmax : maxUInt64 + 1 = UInt64.size := rfl
  have hstart : c.toNat - '0'.toNat ≤ maxUInt64 := by
    rw [maxUInt64]
    omega
  rw [number_digit (isDigit_ofNat hc) hbyte, Stateful.bind_ok hrun, afterInteger_natural_iff hmid,
    length_plain hdigits, toNat_sub_of_isDigit hc]
  rcases extendSignificand_plain hdigits hstart 0 with ⟨hfits, hextended⟩ | ⟨hlarge, hcount⟩
  · rw [hextended]
    constructor
    · rintro ⟨hnegative, -, hends, hn, ht⟩
      exact ⟨hnegative, ⟨fun h => absurd h hzero, hends, by omega, hn.trans hvalue.symm⟩, ht⟩
    · rintro ⟨hnegative, hmake, ht⟩
      exact ⟨hnegative, by omega, hmake.ends, hmake.eq.trans hvalue, ht⟩
  · refine iff_of_false ?_ ?_
    · rintro ⟨-, hdropped, -⟩
      omega
    · rintro ⟨-, hmake, -⟩
      have hlt := hmake.lt
      omega

/-- Which natural number the reader returns where a digit is next. -/
theorem exists_number_iff {c : Char} (hc : c.isDigit = true) (hs : s.Holds (c :: text)) :
    ∃ mid, mid.Holds (text.dropWhile Char.isDigit) ∧ ∀ negative n t,
      number negative s = .ok (.natural n) t ↔ negative = false ∧ DigitsMake c text n ∧ mid = t := by
  by_cases hzero : c = '0'
  · subst hzero
    exact exists_number_zero hs
  · exact exists_number_digit hc hzero hs

end Reader
end ClassXref.Json
