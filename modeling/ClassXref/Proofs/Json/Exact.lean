import ClassXref.Json.Reader
import ClassXref.Proofs.Json.Spelling
import ClassXref.Proofs.Stateful
import ClassXref.Proofs.Text.ByteOrder

/-! What it is for a reader to take just what is spelled at the front of a text. Readers go by bytes and spellings by
characters; where a reader looks at a byte, it asks for a character below `80`, and no longer character has a byte
that it takes for one. A reader is exact for a spelling if it returns just the values that the spelling finds, and
leaves just what is left behind them. -/
namespace ClassXref.Json

open ModifiedUtf8 (plain plain_cons)

/-! ### Bytes and characters -/

theorem utf8EncodeChar_of_lt {c : Char} (h : c.toNat < 0x80) :
    String.utf8EncodeChar c = [UInt8.ofNat c.toNat] := by
  have hval : c.val.toNat = c.toNat := rfl
  rw [String.utf8EncodeChar]
  simp only [hval]
  rw [if_pos (by omega)]

theorem le_of_mem_utf8EncodeChar {c : Char} (h : 0x80 ≤ c.toNat) {b : UInt8}
    (hb : b ∈ String.utf8EncodeChar c) : 0x80 ≤ b.toNat := by
  have hval : c.val.toNat = c.toNat := rfl
  have hvalid := Utf16.toNat_valid c
  simp only [String.utf8EncodeChar, hval] at hb
  split_ifs at hb with hone htwo hthree
  · omega
  all_goals
    simp only [List.mem_cons, List.not_mem_nil, or_false] at hb
    rcases hb with rfl | rfl | rfl | rfl <;> rw [ModifiedUtf8.toNat_ofNat (by omega)] <;> omega

/-- What the one says of each byte of a character, the other says of the character. -/
def Agree {β : Type} (p : UInt8 → β) (q : Char → β) : Prop :=
  ∀ c, ∀ b ∈ String.utf8EncodeChar c, p b = q c

theorem agree_of_lt {β : Type} {p : UInt8 → β} {q : Char → β} (value : β)
    (hsmall : ∀ n < 0x80, p (UInt8.ofNat n) = q (Char.ofNat n))
    (hlarge : ∀ n < 0x100, 0x80 ≤ n → p (UInt8.ofNat n) = value)
    (hchar : ∀ c : Char, 0x80 ≤ c.toNat → q c = value) : Agree p q := by
  intro c b hb
  rcases Nat.lt_or_ge c.toNat 0x80 with hc | hc
  · rw [utf8EncodeChar_of_lt hc, List.mem_singleton] at hb
    rw [hb, hsmall c.toNat hc, Char.ofNat_toNat]
  · have hbyte := hlarge b.toNat b.toNat_lt (le_of_mem_utf8EncodeChar hc hb)
    rw [UInt8.ofNat_toNat] at hbyte
    rw [hbyte, hchar c hc]

theorem ne_of_le_toNat {c x : Char} (hc : 0x80 ≤ c.toNat) (hx : x.toNat < 0x80) : c ≠ x := by
  rintro rfl
  omega

theorem agree_isBlank : Agree Reader.isBlank isBlankChar := by
  refine agree_of_lt false (by decide) (by decide +kernel) fun c hc => ?_
  have hne {x : Char} (hx : x.toNat < 0x80) : (c == x) = false := beq_false_of_ne (ne_of_le_toNat hc hx)
  simp (disch := decide) only [isBlankChar, hne, Bool.or_self]

theorem agree_endsPlain : Agree (fun b => !Reader.endsPlain b) Spelled.isPlainChar := by
  refine agree_of_lt true (by decide) (by decide +kernel) fun c hc => ?_
  have hne {x : Char} (hx : x.toNat < 0x80) : (c != x) = true := bne_iff_ne.mpr (ne_of_le_toNat hc hx)
  have hlarge : 0x20 ≤ c.toNat := by omega
  simp (disch := decide) only [Spelled.isPlainChar, hne, hlarge, decide_true, Bool.and_self]

theorem agree_isDigit : Agree Reader.isDigit Char.isDigit := by
  refine agree_of_lt false (by decide) (by decide +kernel) fun c hc => ?_
  have hval : c.val.toNat = c.toNat := rfl
  have hlarge : ¬ c.val ≤ '9'.val := by
    rw [UInt32.le_iff_toNat_le, hval]
    exact Nat.not_le.mpr (Nat.lt_of_lt_of_le (by decide) hc)
  simp only [Char.isDigit, hlarge, decide_false, Bool.and_false]

section

variable {p : UInt8 → Bool} {q : Char → Bool} {text : List Char}

theorem plain_append (front back : List Char) : plain (front ++ back) = plain front ++ plain back :=
  List.flatMap_append

theorem exists_plain_cons (c : Char) (text : List Char) :
    ∃ b bytes, String.utf8EncodeChar c = b :: bytes ∧ plain (c :: text) = b :: (bytes ++ plain text) := by
  have hpos : 0 < (String.utf8EncodeChar c).length := by
    rw [String.length_utf8EncodeChar]
    exact c.utf8Size_pos
  obtain ⟨b, bytes, hbytes⟩ := List.exists_cons_of_length_pos hpos
  exact ⟨b, bytes, hbytes, by rw [plain_cons, hbytes, List.cons_append]⟩

theorem takeWhile_plain (h : Agree p q) (text : List Char) :
    (plain text).takeWhile p = plain (text.takeWhile q) := by
  induction text with
  | nil => rfl
  | cons c text ih =>
    rw [plain_cons]
    cases hc : q c with
    | true =>
      have hall : ∀ b ∈ String.utf8EncodeChar c, p b = true := fun b hb => (h c b hb).trans hc
      rw [List.takeWhile_append_of_pos hall, ih, List.takeWhile_cons_of_pos hc, plain_cons]
    | false =>
      obtain ⟨b, bytes, hbytes, -⟩ := exists_plain_cons c text
      have hb : p b = false := (h c b (hbytes ▸ List.mem_cons_self)).trans hc
      rw [hbytes, List.cons_append, List.takeWhile_cons_of_neg (by simp [hb]),
        List.takeWhile_cons_of_neg (by simp [hc])]
      rfl

theorem dropWhile_plain (h : Agree p q) (text : List Char) :
    (plain text).dropWhile p = plain (text.dropWhile q) := by
  have hsplit : (plain text).takeWhile p ++ (plain text).dropWhile p =
      (plain text).takeWhile p ++ plain (text.dropWhile q) := by
    rw [List.takeWhile_append_dropWhile, takeWhile_plain h, ← plain_append, List.takeWhile_append_dropWhile]
  exact List.append_cancel_left hsplit

/-- A byte below `80` at the front is a character. -/
theorem exists_of_plain_eq_cons {b : UInt8} {bytes : List UInt8} (h : plain text = b :: bytes)
    (hb : b.toNat < 0x80) : ∃ c rest, text = c :: rest ∧ c.toNat = b.toNat ∧ bytes = plain rest := by
  cases text with
  | nil => cases h
  | cons c rest =>
    rw [plain_cons] at h
    rcases Nat.lt_or_ge c.toNat 0x80 with hc | hc
    · rw [utf8EncodeChar_of_lt hc, List.singleton_append, List.cons.injEq] at h
      obtain ⟨rfl, rfl⟩ := h
      exact ⟨c, rest, rfl, (ModifiedUtf8.toNat_ofNat (by omega)).symm, rfl⟩
    · obtain ⟨first, more, hbytes, -⟩ := exists_plain_cons c rest
      have hfirst := le_of_mem_utf8EncodeChar hc (hbytes ▸ List.mem_cons_self)
      rw [hbytes, List.cons_append, List.cons.injEq] at h
      rw [h.1] at hfirst
      omega

theorem exists_of_plain_eq_char {x : Char} {bytes : List UInt8} (hx : x.toNat < 0x80)
    (h : plain text = UInt8.ofNat x.toNat :: bytes) : ∃ rest, text = x :: rest ∧ bytes = plain rest := by
  have hbyte : (UInt8.ofNat x.toNat).toNat = x.toNat := ModifiedUtf8.toNat_ofNat (by omega)
  obtain ⟨c, rest, rfl, hc, hrest⟩ := exists_of_plain_eq_cons h (by omega)
  obtain rfl : c = x := Char.toNat_inj.mp (hc.trans hbyte)
  exact ⟨rest, rfl, hrest⟩

theorem plain_cons_of_lt {x : Char} (hx : x.toNat < 0x80) (text : List Char) :
    plain (x :: text) = UInt8.ofNat x.toNat :: plain text := by
  rw [plain_cons, utf8EncodeChar_of_lt hx]
  rfl

end

/-! ### Sources -/

/-- What is left of the source is the text. -/
def Source.Holds (s : Source) (text : List Char) : Prop :=
  s.rest = plain text

/-- The reader is exact for the spelling: where a text is left, it returns the values that are spelled at its
front, and leaves what is behind them. -/
structure Exact {α : Type} (reader : Reader α) (spelling : Spelling α) : Prop where
  sound : ∀ {s t : Source} {text : List Char} {a : α}, s.Holds text → reader s = .ok a t →
    ∃ rest, t.Holds rest ∧ spelling text a rest
  complete : ∀ {s : Source} {text rest : List Char} {a : α}, s.Holds text → spelling text a rest →
    ∃ t, reader s = .ok a t ∧ t.Holds rest

namespace Exact

variable {α β : Type} {reader : Reader α} {spelling spelling' : Spelling α} {next : α → Reader β}
  {nextSpelling : α → Spelling β}

theorem of_iff (h : Exact reader spelling)
    (hiff : ∀ text a rest, spelling text a rest ↔ spelling' text a rest) : Exact reader spelling' := by
  constructor
  · intro s t text a hs hread
    obtain ⟨rest, ht, hspelled⟩ := h.sound hs hread
    exact ⟨rest, ht, (hiff text a rest).mp hspelled⟩
  · intro s text rest a hs hspelled
    exact h.complete hs ((hiff text a rest).mpr hspelled)

theorem pure (a : α) : Exact (Pure.pure a) fun text b rest => b = a ∧ rest = text := by
  constructor
  · intro s t text b hs hread
    cases hread
    exact ⟨text, hs, rfl, rfl⟩
  · rintro s text rest b hs ⟨rfl, rfl⟩
    exact ⟨s, rfl, hs⟩

theorem bind (h : Exact reader spelling) (hnext : ∀ a, Exact (next a) (nextSpelling a)) :
    Exact (reader >>= next) fun text b rest => ∃ a mid, spelling text a mid ∧ nextSpelling a mid b rest := by
  constructor
  · intro s t text b hs hread
    obtain ⟨a, mid, hfirst, hthen⟩ := Stateful.bind_eq_ok_iff.mp hread
    obtain ⟨between, hmid, hspelled⟩ := h.sound hs hfirst
    obtain ⟨rest, ht, hrest⟩ := (hnext a).sound hmid hthen
    exact ⟨rest, ht, a, between, hspelled, hrest⟩
  · rintro s text rest b hs ⟨a, between, hspelled, hrest⟩
    obtain ⟨mid, hfirst, hmid⟩ := h.complete hs hspelled
    obtain ⟨t, hthen, ht⟩ := (hnext a).complete hmid hrest
    exact ⟨t, Stateful.bind_eq_ok_iff.mpr ⟨a, mid, hfirst, hthen⟩, ht⟩

/-- A reader that never returns a value is exact for the spelling of none. -/
theorem of_ne_ok (hreader : ∀ s a t, reader s ≠ .ok a t) (hspelling : ∀ text a rest, ¬ spelling text a rest) :
    Exact reader spelling := by
  constructor
  · intro s t text a _ hread
    exact absurd hread (hreader s a t)
  · intro s text rest a _ hspelled
    exact absurd hspelled (hspelling text a rest)

end Exact

namespace Reader

variable {α β : Type} {s t : Source} {text rest : List Char}

theorem fail_ne_ok {problem : Problem} {a : α} : fail problem s ≠ .ok a t := by
  intro h
  cases h

theorem failNext_ne_ok {problem : Problem} {a : α} : failNext problem s ≠ .ok a t := by
  intro h
  cases h

theorem within_eq_ok_iff {step : Step} {reader : Reader α} {a : α} :
    within step reader s = .ok a t ↔ reader s = .ok a t := by
  unfold within
  cases reader s <;> simp

/-- A run of bytes is a run of characters. -/
theorem exists_run {p : UInt8 → Bool} {q : Char → Bool} (h : Agree p q) (hs : s.Holds text) :
    ∃ t, run p s = .ok (plain (text.takeWhile q)) t ∧ t.Holds (text.dropWhile q) := by
  refine ⟨⟨plain (text.dropWhile q), s.offset + (plain (text.takeWhile q)).length⟩, ?_, rfl⟩
  rw [← takeWhile_plain h, ← dropWhile_plain h, ← hs]
  rfl

theorem exists_blanks (hs : s.Holds text) : ∃ t, blanks s = .ok () t ∧ t.Holds (behindBlanks text) := by
  obtain ⟨t, hrun, ht⟩ := exists_run agree_isBlank hs
  exact ⟨t, Stateful.bind_ok hrun, ht⟩

/-! ### One byte -/

theorem next?_cons (b : UInt8) (bytes : List UInt8) (offset : Nat) :
    next? ⟨b :: bytes, offset⟩ = .ok (some b) ⟨bytes, offset + 1⟩ := rfl

theorem next?_eq_ok {o : Option UInt8} (h : next? s = .ok o t) :
    s.rest = [] ∧ o = none ∨ ∃ b, s.rest = b :: t.rest ∧ o = some b := by
  obtain ⟨rest, offset⟩ := s
  cases rest with
  | nil =>
    cases h
    exact Or.inl ⟨rfl, rfl⟩
  | cons b rest =>
    cases h
    exact Or.inr ⟨b, rfl, rfl⟩

theorem exists_next? {b : UInt8} {bytes : List UInt8} (h : s.rest = b :: bytes) :
    ∃ t, next? s = .ok (some b) t ∧ t.rest = bytes := by
  obtain ⟨rest, offset⟩ := s
  cases h
  exact ⟨_, rfl, rfl⟩

theorem peek?_bind (f : Option UInt8 → Reader α) (s : Source) : (peek? >>= f) s = f s.rest.head? s := rfl

theorem head?_plain_eq_some_iff {x : Char} (hx : x.toNat < 0x80) :
    (plain text).head? = some (UInt8.ofNat x.toNat) ↔ text.head? = some x := by
  rw [List.head?_eq_some_iff, List.head?_eq_some_iff]
  constructor
  · rintro ⟨bytes, hbytes⟩
    obtain ⟨rest, hrest, -⟩ := exists_of_plain_eq_char hx hbytes
    exact ⟨rest, hrest⟩
  · rintro ⟨rest, rfl⟩
    exact ⟨plain rest, plain_cons_of_lt hx rest⟩

theorem head?_beq {x : Char} (hx : x.toNat < 0x80) (hs : s.Holds text) :
    (s.rest.head? == some (UInt8.ofNat x.toNat)) = (text.head? == some x) := by
  have hhead : s.rest.head? = (plain text).head? := congrArg List.head? hs
  rw [Bool.eq_iff_iff, beq_iff_eq, beq_iff_eq, hhead]
  exact head?_plain_eq_some_iff hx

theorem head?_any_eq {p : UInt8 → Bool} {q : Char → Bool} (h : Agree p q) (hs : s.Holds text) :
    s.rest.head?.any p = text.head?.any q := by
  have hhead : s.rest.head? = (plain text).head? := congrArg List.head? hs
  rw [hhead]
  cases text with
  | nil => rfl
  | cons c text =>
    obtain ⟨b, bytes, hbytes, hplain⟩ := exists_plain_cons c text
    rw [hplain]
    exact h c b (hbytes ▸ List.mem_cons_self)

end Reader
end ClassXref.Json
