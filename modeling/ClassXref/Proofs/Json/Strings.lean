import ClassXref.Proofs.Json.Exact

/-! The reader of strings is exact. It takes plain characters in runs and escapes one by one; a run ends where a
character does, as none of the bytes that end it is within a longer character. -/
namespace ClassXref.Json

open ModifiedUtf8 (plain plain_cons)

namespace Reader

variable {α β : Type} {s t : Source} {text rest : List Char}

theorem hexDigit?_of_le : ∀ n < 0x100, 0x80 ≤ n → hexDigit? (UInt8.ofNat n) = none := by
  decide +kernel

theorem agree_hexDigit? : Agree hexDigit? Spelled.hexValue? := by
  refine agree_of_lt none (by decide) hexDigit?_of_le fun c hc => ?_
  have hnot {x : Char} (hx : x.toNat < 0x80) : ¬ c ≤ x := by
    have hval : c.val.toNat = c.toNat := rfl
    have hbound : x.val.toNat = x.toNat := rfl
    rw [Char.le_def, UInt32.le_iff_toNat_le]
    omega
  simp (disch := decide) only [Spelled.hexValue?, hnot, and_false, if_false]

/-- A byte that is a hexadecimal digit is a character. -/
theorem exists_of_hexDigit? {b : UInt8} {bytes : List UInt8} {v : Nat} (h : plain text = b :: bytes)
    (hb : hexDigit? b = some v) :
    ∃ c rest, text = c :: rest ∧ Spelled.hexValue? c = some v ∧ bytes = plain rest := by
  have hsmall : b.toNat < 0x80 := by
    by_contra hlarge
    have hnone := hexDigit?_of_le b.toNat b.toNat_lt (Nat.not_lt.mp hlarge)
    rw [UInt8.ofNat_toNat, hb] at hnone
    cases hnone
  obtain ⟨c, rest, rfl, hc, hrest⟩ := exists_of_plain_eq_cons h hsmall
  have hbyte : b ∈ String.utf8EncodeChar c := by
    rw [utf8EncodeChar_of_lt (hc.trans_lt hsmall), hc, UInt8.ofNat_toNat]
    exact List.mem_singleton_self b
  exact ⟨c, rest, rfl, (agree_hexDigit? c b hbyte).symm.trans hb, hrest⟩

theorem toNat_lt_of_hexValue? {c : Char} {v : Nat} (h : Spelled.hexValue? c = some v) : c.toNat < 0x80 := by
  by_contra hlarge
  obtain ⟨b, bytes, hbytes, -⟩ := exists_plain_cons c []
  have hmem : b ∈ String.utf8EncodeChar c := hbytes ▸ List.mem_cons_self
  have hnone := hexDigit?_of_le b.toNat b.toNat_lt (le_of_mem_utf8EncodeChar (Nat.not_lt.mp hlarge) hmem)
  rw [UInt8.ofNat_toNat, agree_hexDigit? c b hmem, h] at hnone
  cases hnone

theorem hexEscape_eq_ok {v : Nat} (h : hexEscape s = .ok v t) :
    ∃ a b c d w x y z, s.rest = a :: b :: c :: d :: t.rest ∧ hexDigit? a = some w ∧ hexDigit? b = some x ∧
      hexDigit? c = some y ∧ hexDigit? d = some z ∧ v = ((w * 16 + x) * 16 + y) * 16 + z := by
  obtain ⟨bytes, offset⟩ := s
  rcases bytes with _ | ⟨a, _ | ⟨b, _ | ⟨c, _ | ⟨d, bytes⟩⟩⟩⟩
  · cases h
  · cases h
  · cases h
  · cases h
  · rw [hexEscape, Stateful.get_bind] at h
    dsimp only at h
    cases hw : hexDigit? a with
    | none =>
      rw [hw] at h
      cases h
    | some w =>
    cases hx : hexDigit? b with
    | none =>
      rw [hw, hx] at h
      cases h
    | some x =>
    cases hy : hexDigit? c with
    | none =>
      rw [hw, hx, hy] at h
      cases h
    | some y =>
    cases hz : hexDigit? d with
    | none =>
      rw [hw, hx, hy, hz] at h
      cases h
    | some z =>
      rw [hw, hx, hy, hz] at h
      cases h
      exact ⟨a, b, c, d, w, x, y, z, rfl, hw, hx, hy, hz, by omega⟩

theorem exact_hexEscape : Exact hexEscape Spelled.HexUnit := by
  constructor
  · intro s t text v hs h
    obtain ⟨a, b, c, d, w, x, y, z, hbytes, hw, hx, hy, hz, rfl⟩ := hexEscape_eq_ok h
    obtain ⟨a, text, rfl, ha, htext⟩ := exists_of_hexDigit? (hs.symm.trans hbytes) hw
    obtain ⟨b, text, rfl, hb, htext⟩ := exists_of_hexDigit? htext.symm hx
    obtain ⟨c, text, rfl, hc, htext⟩ := exists_of_hexDigit? htext.symm hy
    obtain ⟨d, rest, rfl, hd, hrest⟩ := exists_of_hexDigit? htext.symm hz
    exact ⟨rest, hrest, .digits ha hb hc hd⟩
  · intro s text rest v hs h
    cases h with
    | @digits a b c d w x y z rest ha hb hc hd =>
      have hdigit {c : Char} {v : Nat} (h : Spelled.hexValue? c = some v) :
          hexDigit? (UInt8.ofNat c.toNat) = some v := by
        rw [← h]
        apply agree_hexDigit?
        rw [utf8EncodeChar_of_lt (toNat_lt_of_hexValue? h)]
        exact List.mem_singleton_self _
      have hbytes : s.rest = _ := hs
      rw [plain_cons_of_lt (toNat_lt_of_hexValue? ha), plain_cons_of_lt (toNat_lt_of_hexValue? hb),
        plain_cons_of_lt (toNat_lt_of_hexValue? hc), plain_cons_of_lt (toNat_lt_of_hexValue? hd)] at hbytes
      have hunit : w * 4096 + x * 256 + y * 16 + z = ((w * 16 + x) * 16 + y) * 16 + z := by omega
      refine ⟨⟨plain rest, s.offset + 4⟩, ?_, rfl⟩
      rw [hexEscape, Stateful.get_bind, hbytes]
      dsimp only
      rw [hdigit ha, hdigit hb, hdigit hc, hdigit hd, ← hunit]
      rfl

theorem exact_betweenSurrogates {x : Char} (hx : x.toNat < 0x80) :
    Exact (betweenSurrogates (UInt8.ofNat x.toNat)) fun text _ rest => text = x :: rest := by
  constructor
  · intro s t text a hs h
    obtain ⟨o, mid, hnext, h⟩ := Stateful.bind_eq_ok_iff.mp h
    rcases next?_eq_ok hnext with ⟨-, rfl⟩ | ⟨b, hb, rfl⟩
    · cases h
    · dsimp only at h
      split at h
      · next hbx =>
        cases h
        subst hbx
        obtain ⟨rest, rfl, hrest⟩ := exists_of_plain_eq_char hx (hs.symm.trans hb)
        exact ⟨rest, hrest, rfl⟩
      · cases h
  · rintro s text rest a hs rfl
    obtain ⟨t, hnext, ht⟩ := exists_next? (hs.trans (plain_cons_of_lt hx rest))
    refine ⟨t, ?_, ht⟩
    rw [betweenSurrogates, Stateful.bind_ok hnext]
    dsimp only
    rw [if_pos rfl]
    rfl

/-- What can stand behind the first unit of an escape: nothing more, or the partner of a surrogate. -/
def UnitEnd (unit : Nat) : Spelling Char := fun text c rest =>
  Utf16.isHighSurrogate unit = false ∧ Utf16.isLowSurrogate unit = false ∧ c = Char.ofNat unit ∧ rest = text ∨
    ∃ mid low, text = '\\' :: 'u' :: mid ∧ Spelled.HexUnit mid low rest ∧
      Utf16.isHighSurrogate unit = true ∧ Utf16.isLowSurrogate low = true ∧ c = Utf16.joinSurrogates unit low

theorem not_isHighSurrogate {unit : Nat} (h : Utf16.isLowSurrogate unit = true) :
    Utf16.isHighSurrogate unit = false := by
  simp only [Utf16.isLowSurrogate, Utf16.isHighSurrogate, Bool.and_eq_true, decide_eq_true_eq,
    Bool.and_eq_false_iff, decide_eq_false_iff_not] at h ⊢
  omega

theorem exact_lowSurrogate (high : Nat) : Exact
    (do
      let low ← hexEscape
      if Utf16.isLowSurrogate low then return Utf16.joinSurrogates high low else fail .loneSurrogate)
    fun text c rest => ∃ low, Spelled.HexUnit text low rest ∧ Utf16.isLowSurrogate low = true ∧
      c = Utf16.joinSurrogates high low := by
  have hnext (low : Nat) : Exact
      (if Utf16.isLowSurrogate low then return Utf16.joinSurrogates high low else fail .loneSurrogate)
      fun text c rest => Utf16.isLowSurrogate low = true ∧ c = Utf16.joinSurrogates high low ∧ rest = text := by
    cases hlow : Utf16.isLowSurrogate low with
    | true => exact (Exact.pure _).of_iff fun text c rest => by simp
    | false => exact Exact.of_ne_ok (fun _ _ _ => fail_ne_ok) fun text c rest => by simp
  refine (exact_hexEscape.bind hnext).of_iff fun text c rest => ⟨?_, ?_⟩
  · rintro ⟨low, mid, hunit, hlow, hc, rfl⟩
    exact ⟨low, hunit, hlow, hc⟩
  · rintro ⟨low, hunit, hlow, hc⟩
    exact ⟨low, rest, hunit, hlow, hc, rfl⟩

theorem exact_unicodeEscape : Exact unicodeEscape fun text c rest =>
    ∃ unit mid, Spelled.HexUnit text unit mid ∧ UnitEnd unit mid c rest := by
  refine exact_hexEscape.bind fun unit => ?_
  cases hlow : Utf16.isLowSurrogate unit with
  | true =>
    have hhigh := not_isHighSurrogate hlow
    exact Exact.of_ne_ok (fun _ _ _ => fail_ne_ok) fun text c rest => by simp [UnitEnd, hlow, hhigh]
  | false =>
    cases hhigh : Utf16.isHighSurrogate unit with
    | true =>
      have hbackslash : Exact (betweenSurrogates 0x5c) fun text _ rest => text = '\\' :: rest :=
        exact_betweenSurrogates (x := '\\') (by decide)
      have hu : Exact (betweenSurrogates 0x75) fun text _ rest => text = 'u' :: rest :=
        exact_betweenSurrogates (x := 'u') (by decide)
      refine (hbackslash.bind fun _ => hu.bind fun _ => exact_lowSurrogate unit).of_iff fun text c rest => ?_
      constructor
      · rintro ⟨_, _, rfl, _, mid, rfl, low, hunit, hlow, hc⟩
        exact Or.inr ⟨mid, low, rfl, hunit, hhigh, hlow, hc⟩
      · rintro (⟨hnot, -⟩ | ⟨mid, low, rfl, hunit, -, hlow, hc⟩)
        · rw [hhigh] at hnot
          cases hnot
        · exact ⟨(), _, rfl, (), mid, rfl, low, hunit, hlow, hc⟩
    | false => exact (Exact.pure _).of_iff fun text c rest => by simp [UnitEnd, hlow, hhigh]

theorem escape_iff {text rest : List Char} {c : Char} : Spelled.Escape text c rest ↔
    (∃ letter, text = letter :: rest ∧ Spelled.shortEscape? letter = some c) ∨
      ∃ mid, text = 'u' :: mid ∧ ∃ unit next, Spelled.HexUnit mid unit next ∧ UnitEnd unit next c rest := by
  constructor
  · intro h
    cases h with
    | short hshort => exact Or.inl ⟨_, rfl, hshort⟩
    | unit hunit hhigh hlow => exact Or.inr ⟨_, rfl, _, _, hunit, Or.inl ⟨hhigh, hlow, rfl, rfl⟩⟩
    | pair hhigh hlow hishigh hislow =>
      exact Or.inr ⟨_, rfl, _, _, hhigh, Or.inr ⟨_, _, rfl, hlow, hishigh, hislow, rfl⟩⟩
  · rintro (⟨letter, rfl, hshort⟩ | ⟨mid, rfl, unit, next, hunit, hend⟩)
    · exact .short hshort
    · rcases hend with ⟨hhigh, hlow, hc, hrest⟩ | ⟨mid, low, rfl, hlow, hishigh, hislow, hc⟩
      · rw [hc, hrest]
        exact .unit hunit hhigh hlow
      · rw [hc]
        exact .pair hunit hlow hishigh hislow

/-- The character with the number of a byte. -/
theorem ofNat_charOf (b : UInt8) : UInt8.ofNat (Char.ofNat b.toNat).toNat = b := by
  have hlt := b.toNat_lt
  have hvalid : b.toNat.isValidChar := Or.inl (by omega)
  rw [Char.ofNat, dif_pos hvalid]
  exact UInt8.ofNat_toNat

theorem toNat_lt_of_shortEscape? {letter c : Char} (h : Spelled.shortEscape? letter = some c) :
    letter.toNat < 0x80 := by
  unfold Spelled.shortEscape? at h
  split at h
  all_goals first | decide | cases h

/-- The reader goes by the letter behind the backslash. -/
theorem escape_cons (b : UInt8) (bytes : List UInt8) (offset : Nat) :
    escape ⟨b :: bytes, offset⟩ = (match Spelled.shortEscape? (Char.ofNat b.toNat) with
      | some c => return c
      | none => if b = 0x75 then unicodeEscape else fail .invalidEscape : Reader Char)
        ⟨bytes, offset + 1⟩ := by
  by_cases hmem : b ∈ [0x22, 0x5c, 0x2f, 0x62, 0x66, 0x6e, 0x72, 0x74, 0x75]
  · simp only [List.mem_cons, List.not_mem_nil, or_false] at hmem
    rcases hmem with rfl | rfl | rfl | rfl | rfl | rfl | rfl | rfl | rfl <;> rfl
  · have hbyte := ofNat_charOf b
    have hshort : Spelled.shortEscape? (Char.ofNat b.toNat) = none := by
      unfold Spelled.shortEscape?
      split
      all_goals first
        | rfl
        | next hletter =>
          rw [hletter] at hbyte
          exact absurd (hbyte ▸ by decide) hmem
    simp only [List.mem_cons, List.not_mem_nil, or_false, not_or] at hmem
    obtain ⟨h22, h5c, h2f, h62, h66, h6e, h72, h74, h75⟩ := hmem
    rw [escape, Stateful.bind_ok (next?_cons b bytes offset), hshort]
    dsimp only
    rw [if_neg h75]
    simp only

theorem exact_escape : Exact escape Spelled.Escape := by
  constructor
  · intro s t text c hs h
    obtain ⟨bytes, offset⟩ := s
    have hbytes : bytes = plain text := hs
    cases bytes with
    | nil => cases h
    | cons b bytes =>
      rw [escape_cons] at h
      cases hshort : Spelled.shortEscape? (Char.ofNat b.toNat) with
      | some found =>
        rw [hshort] at h
        cases h
        have hletter := toNat_lt_of_shortEscape? hshort
        rw [← ofNat_charOf b] at hbytes
        obtain ⟨rest, rfl, hrest⟩ := exists_of_plain_eq_char hletter hbytes.symm
        exact ⟨rest, hrest, .short hshort⟩
      | none =>
        rw [hshort] at h
        dsimp only at h
        split at h
        · next hu =>
          subst hu
          obtain ⟨mid, rfl, hmid⟩ := exists_of_plain_eq_char (x := 'u') (by decide) hbytes.symm
          have hholds : Source.Holds ⟨bytes, offset + 1⟩ mid := hmid
          obtain ⟨rest, ht, hspelled⟩ := exact_unicodeEscape.sound hholds h
          exact ⟨rest, ht, escape_iff.mpr (Or.inr ⟨mid, rfl, hspelled⟩)⟩
        · cases h
  · intro s text rest c hs h
    obtain ⟨bytes, offset⟩ := s
    have hbytes : bytes = plain text := hs
    rcases escape_iff.mp h with ⟨letter, rfl, hshort⟩ | ⟨mid, rfl, hspelled⟩
    · have hletter := toNat_lt_of_shortEscape? hshort
      rw [plain_cons_of_lt hletter] at hbytes
      refine ⟨⟨plain rest, offset + 1⟩, ?_, rfl⟩
      rw [hbytes, escape_cons, ModifiedUtf8.toNat_ofNat (by omega), Char.ofNat_toNat, hshort]
      rfl
    · have hholds : Source.Holds ⟨plain mid, offset + 1⟩ mid := rfl
      rw [plain_cons_of_lt (by decide)] at hbytes
      rw [hbytes]
      exact exact_unicodeEscape.complete hholds hspelled

/-! ### Strings -/

theorem foldl_push (bytes : List UInt8) (done : ByteArray) :
    bytes.foldl ByteArray.push done = done ++ bytes.toByteArray := by
  induction bytes generalizing done with
  | nil => exact ByteArray.append_empty.symm
  | cons b bytes ih =>
    rw [List.foldl_cons, ih]
    apply ByteArray.ext
    simp

theorem toUTF8_toString (c : Char) : c.toString.toUTF8 = (plain [c]).toByteArray := by
  have hlist : c.toString.toList = [c] := String.toList_singleton c
  rw [← hlist]
  exact (ModifiedUtf8.toByteArray_plain c.toString).symm

theorem toByteArray_plain_append (front back : List Char) :
    (plain (front ++ back)).toByteArray = (plain front).toByteArray ++ (plain back).toByteArray := by
  rw [plain_append]
  exact List.toByteArray_append

/-- The bytes of a string piece by piece: what was read before, plain characters, an escaped one and the rest. -/
theorem append_pieces (done : ByteArray) (front : List Char) (c : Char) (more : List Char) :
    done ++ (plain front).toByteArray ++ c.toString.toUTF8 ++ (plain more).toByteArray =
      done ++ (plain (front ++ c :: more)).toByteArray := by
  have hmore : (plain (c :: more)).toByteArray = c.toString.toUTF8 ++ (plain more).toByteArray := by
    rw [toUTF8_toString]
    exact toByteArray_plain_append [c] more
  rw [toByteArray_plain_append, hmore, ByteArray.append_assoc, ByteArray.append_assoc]

open Spelled (Characters Escape isPlainChar)

theorem length_lt_of_hexUnit {unit : Nat} (h : Spelled.HexUnit text unit rest) : rest.length < text.length := by
  cases h with
  | digits _ _ _ _ =>
    simp only [List.length_cons]
    omega

theorem length_lt_of_escape {c : Char} (h : Escape text c rest) : rest.length < text.length := by
  cases h with
  | short _ => exact Nat.lt_succ_self _
  | unit hunit _ _ => exact Nat.lt_succ_of_lt (length_lt_of_hexUnit hunit)
  | pair hhigh hlow _ _ =>
    have hfirst := length_lt_of_hexUnit hhigh
    have hsecond := length_lt_of_hexUnit hlow
    simp only [List.length_cons] at hfirst ⊢
    omega

theorem characters_append {front chars : List Char} (hfront : ∀ c ∈ front, isPlainChar c = true)
    (h : Characters text chars rest) : Characters (front ++ text) (front ++ chars) rest := by
  induction front with
  | nil => exact h
  | cons c front ih =>
    have htail := ih fun d hd => hfront d (List.mem_cons_of_mem c hd)
    exact .plain (hfront c List.mem_cons_self) htail

/-- Behind the characters that stand for themselves, a string ends or has an escape. -/
theorem characters_cases {chars : List Char} (h : Characters text chars rest) :
    (text.dropWhile isPlainChar = '"' :: rest ∧ chars = text.takeWhile isPlainChar) ∨
      ∃ escaped c mid more, text.dropWhile isPlainChar = '\\' :: escaped ∧ Escape escaped c mid ∧
        Characters mid more rest ∧ chars = text.takeWhile isPlainChar ++ c :: more := by
  induction h with
  | close => exact Or.inl ⟨rfl, rfl⟩
  | plain hc _ ih =>
    rw [List.dropWhile_cons_of_pos hc, List.takeWhile_cons_of_pos hc]
    rcases ih with ⟨hend, rfl⟩ | ⟨escaped, d, mid, more, hescaped, hspelled, hmore, rfl⟩
    · exact Or.inl ⟨hend, rfl⟩
    · exact Or.inr ⟨escaped, d, mid, more, hescaped, hspelled, hmore, rfl⟩
  | escape hspelled hmore _ => exact Or.inr ⟨_, _, _, _, rfl, hspelled, hmore, rfl⟩

theorem stringBytes_sound {turns : Nat} {done bytes : ByteArray} (hs : s.Holds text)
    (h : stringBytes turns done s = .ok bytes t) : ∃ chars rest, t.Holds rest ∧
      Characters text chars rest ∧ bytes = done ++ (plain chars).toByteArray := by
  induction turns generalizing done s text with
  | zero => cases h
  | succ turns ih =>
    obtain ⟨mid, hrun, hmid⟩ := exists_run agree_endsPlain hs
    rw [stringBytes, Stateful.bind_ok hrun, foldl_push] at h
    obtain ⟨o, behind, hnext, h⟩ := Stateful.bind_eq_ok_iff.mp h
    have hfront : ∀ c ∈ text.takeWhile isPlainChar, isPlainChar c = true := fun c hc => List.mem_takeWhile_imp hc
    have htext : text.takeWhile isPlainChar ++ text.dropWhile isPlainChar = text :=
      List.takeWhile_append_dropWhile
    rcases next?_eq_ok hnext with ⟨-, rfl⟩ | ⟨b, hb, rfl⟩
    · cases h
    by_cases hquote : b = 0x22
    · subst hquote
      cases h
      obtain ⟨rest, hrest, hbehind⟩ := exists_of_plain_eq_char (x := '"') (by decide) (hmid.symm.trans hb)
      refine ⟨_, rest, hbehind, ?_, rfl⟩
      have hclose := characters_append hfront (Characters.close : Characters ('"' :: rest) [] rest)
      rw [← hrest, htext, List.append_nil] at hclose
      exact hclose
    by_cases hbackslash : b = 0x5c
    · subst hbackslash
      obtain ⟨escaped, hescaped, hbehind⟩ :=
        exists_of_plain_eq_char (x := '\\') (by decide) (hmid.symm.trans hb)
      obtain ⟨c, next, hc, h⟩ := Stateful.bind_eq_ok_iff.mp h
      obtain ⟨more, hnext, hspelled⟩ := exact_escape.sound hbehind hc
      obtain ⟨chars, rest, ht, hchars, rfl⟩ := ih hnext h
      have hall := characters_append hfront (.escape hspelled hchars)
      rw [← hescaped, htext] at hall
      exact ⟨_, rest, ht, hall, append_pieces done _ c chars⟩
    · simp only at h
      cases h

/-- As many turns as characters, and one more, are enough. -/
theorem stringBytes_complete {turns : Nat} {chars : List Char} (done : ByteArray) (hs : s.Holds text)
    (hturns : text.length < turns) (h : Characters text chars rest) :
    ∃ t, stringBytes turns done s = .ok (done ++ (plain chars).toByteArray) t ∧ t.Holds rest := by
  induction turns generalizing done s text chars with
  | zero => exact absurd hturns (Nat.not_lt_zero _)
  | succ turns ih =>
    obtain ⟨mid, hrun, hmid⟩ := exists_run agree_endsPlain hs
    rw [stringBytes, Stateful.bind_ok hrun, foldl_push]
    rcases characters_cases h with ⟨hend, rfl⟩ | ⟨escaped, c, next, more, hescaped, hspelled, hmore, rfl⟩
    · rw [hend] at hmid
      obtain ⟨t, hnext, ht⟩ := exists_next? (hmid.trans (plain_cons_of_lt (by decide) rest))
      rw [Stateful.bind_ok hnext]
      exact ⟨t, rfl, ht⟩
    · rw [hescaped] at hmid
      obtain ⟨behind, hnext, hbehind⟩ := exists_next? (hmid.trans (plain_cons_of_lt (by decide) escaped))
      obtain ⟨after, hc, hafter⟩ := exact_escape.complete hbehind hspelled
      have hshorter : next.length < turns := by
        have hdropped := (List.dropWhile_suffix isPlainChar (l := text)).length_le
        have hescape := length_lt_of_escape hspelled
        rw [hescaped, List.length_cons] at hdropped
        omega
      obtain ⟨t, hrest, ht⟩ := ih _ hafter hshorter hmore
      refine ⟨t, ?_, ht⟩
      rw [Stateful.bind_ok hnext, ← append_pieces]
      exact (Stateful.bind_ok hc).trans hrest

theorem length_le_length_plain (text : List Char) : text.length ≤ (plain text).length := by
  induction text with
  | nil => exact Nat.le_refl 0
  | cons c text ih =>
    obtain ⟨b, bytes, -, hplain⟩ := exists_plain_cons c text
    rw [hplain, List.length_cons, List.length_cons, List.length_append]
    omega

theorem fromUTF8?_plain (chars : List Char) :
    String.fromUTF8? (.empty ++ (plain chars).toByteArray) = some (String.ofList chars) := by
  rw [ByteArray.empty_append, ModifiedUtf8.fromUTF8?_eq_some_iff, String.toList_ofList]

theorem exact_stringBody : Exact stringBody fun text value rest =>
    ∃ chars, Characters text chars rest ∧ value = String.ofList chars := by
  constructor
  · intro s t text value hs h
    rw [stringBody, Stateful.get_bind] at h
    obtain ⟨bytes, mid, hbytes, h⟩ := Stateful.bind_eq_ok_iff.mp h
    obtain ⟨chars, rest, ht, hchars, rfl⟩ := stringBytes_sound hs hbytes
    cases h
    exact ⟨rest, ht, chars, hchars, by rw [fromUTF8?_plain, Option.getD_some]⟩
  · rintro s text rest value hs ⟨chars, hchars, rfl⟩
    have hturns : text.length < s.rest.length + 1 := by
      have hlength := length_le_length_plain text
      rw [← hs] at hlength
      omega
    obtain ⟨t, hread, ht⟩ := stringBytes_complete .empty hs hturns hchars
    refine ⟨t, ?_, ht⟩
    rw [stringBody, Stateful.get_bind, Stateful.bind_ok hread, fromUTF8?_plain]
    rfl

end Reader
end ClassXref.Json
