import ClassXref.Proofs.Bytes.Reads
import ClassXref.Proofs.Text.Acceptance

/-! Texts read at a cursor. What is written in modified UTF-8 is read back wherever it stands. More than that is
read: bytes that are plain UTF-8 throughout are taken as well, and so a text may have two forms. The last main
statement says which bytes are read as which text and which are refused; a byte that modified UTF-8 never has
decides between the two forms. How the length of a text is found is not the subject here. -/
namespace ClassXref.Scan

open ModifiedUtf8 (encode decode? plain formOf Clean)

/-- Where the bytes come next, they are read as the text. -/
def ReadsText (bytes : List UInt8) (text : String) : Prop :=
  Reads (utf8 bytes.length) bytes text

/-- Where the bytes come next, reading them as a text is refused with the offset at which they stand. -/
def RefusesText (bytes : List UInt8) : Prop :=
  ∀ (c : Cursor) (tail : List UInt8), c.rest = bytes ++ tail →
    utf8 bytes.length c = .error (.malformed (.invalidUtf8 c.position)) (c.advance bytes.length)

variable {bytes : List UInt8} {text : String}

theorem refusesText_of_decode? (h : decode? bytes = none) : RefusesText bytes := by
  intro c tail hc
  rw [utf8, position_bind, Stateful.bind_ok (reads_take bytes c tail hc), h]
  rfl

/-- No bytes are both read and refused: an open buffer may hold just these. -/
theorem not_refusesText (h : ReadsText bytes text) : ¬ RefusesText bytes := by
  intro hrefuses
  have hrefused := hrefuses { data := bytes.toByteArray } [] (by rw [rest_opened, List.append_nil])
  rw [Reads.opened h] at hrefused
  cases hrefused

theorem readsText_iff : ReadsText bytes text ↔ decode? bytes = some text := by
  refine ⟨fun h => ?_, fun h => reads_utf8_of_decode? h⟩
  cases hdecode : decode? bytes with
  | none => exact absurd (refusesText_of_decode? hdecode) (not_refusesText h)
  | some found =>
    have hread := (reads_utf8_of_decode? hdecode).opened
    rw [Reads.opened h] at hread
    cases hread
    rfl

theorem refusesText_iff : RefusesText bytes ↔ decode? bytes = none := by
  refine ⟨fun h => ?_, refusesText_of_decode?⟩
  cases hdecode : decode? bytes with
  | none => rfl
  | some found => exact absurd h (not_refusesText (reads_utf8_of_decode? hdecode))

/-- A text is written character by character, zero in two bytes and a supplementary character in two halves of
three; and it is read back, by itself and wherever it stands in a buffer, with the cursor right behind it. -/
theorem text_reads_back (text : String) :
    encode text.toList = text.toList.flatMap formOf ∧ decode? (encode text.toList) = some text ∧
      ReadsText (encode text.toList) text :=
  ⟨ModifiedUtf8.encode_eq_flatMap_formOf text.toList, ModifiedUtf8.decode?_encode text, reads_utf8 text⟩

example : encode ['a', '\x00', '😀'] = [0x61, 0xC0, 0x80, 0xED, 0xA0, 0xBD, 0xED, 0xB8, 0x80] := by
  decide

/-- Texts in modified UTF-8 make up a text in modified UTF-8. -/
theorem readsText_append {bytes' : List UInt8} {text' : String} (hclean : Clean bytes)
    (hclean' : Clean bytes') (h : ReadsText bytes text) (h' : ReadsText bytes' text') :
    ReadsText (bytes ++ bytes') (text ++ text') := by
  rw [readsText_iff, ModifiedUtf8.decode?_eq_some_iff_of_clean hclean] at h
  rw [readsText_iff, ModifiedUtf8.decode?_eq_some_iff_of_clean hclean'] at h'
  subst h h'
  rw [← ModifiedUtf8.encode_append, ← String.toList_append]
  exact reads_utf8 (text ++ text')

/-- Bytes are read as a text exactly if they are the text in modified UTF-8 or in plain UTF-8, and all other
bytes are refused. Without a zero byte and bytes from `F0` up only modified UTF-8 is read, so texts have one
form and can be put together; with such a byte only plain UTF-8 is read. -/
theorem readsText_exact (bytes : List UInt8) :
    (∀ text, ReadsText bytes text ↔ bytes = encode text.toList ∨ bytes = plain text.toList) ∧
    (RefusesText bytes ↔ ∀ text : String, ¬ (bytes = encode text.toList ∨ bytes = plain text.toList)) ∧
    (¬ Clean bytes → ∀ text, ReadsText bytes text ↔ bytes = plain text.toList) ∧
    (Clean bytes → ∀ text, ReadsText bytes text ↔ bytes = encode text.toList) ∧
    ∀ bytes' text text', Clean bytes → Clean bytes' → ReadsText bytes text → ReadsText bytes' text' →
      (text = text' → bytes = bytes') ∧ ReadsText (bytes ++ bytes') (text ++ text') := by
  refine ⟨fun text => ?_, ?_, fun hclean text => ?_, fun hclean text => ?_, ?_⟩
  · rw [readsText_iff, ModifiedUtf8.decode?_eq_some_iff]
  · simp only [refusesText_iff, Option.eq_none_iff_forall_ne_some, ne_eq,
      ModifiedUtf8.decode?_eq_some_iff]
  · rw [readsText_iff, ModifiedUtf8.decode?_eq_some_iff_of_not_clean hclean]
  · rw [readsText_iff, ModifiedUtf8.decode?_eq_some_iff_of_clean hclean]
  · intro bytes' text text' hclean hclean' h h'
    refine ⟨?_, readsText_append hclean hclean' h h'⟩
    rintro rfl
    rw [readsText_iff, ModifiedUtf8.decode?_eq_some_iff_of_clean hclean] at h
    rw [readsText_iff, ModifiedUtf8.decode?_eq_some_iff_of_clean hclean'] at h'
    rw [h, h']

/-- Zero is read off one byte and off two, which do not go together; and a supplementary character is read off
four. So not all bytes that are read are the text in modified UTF-8. -/
theorem readsText_zero_twice :
    ReadsText [0x00] "\x00" ∧ ReadsText [0xC0, 0x80] "\x00" ∧ RefusesText ([0x00] ++ [0xC0, 0x80]) ∧
    ReadsText [0xF0, 0x9F, 0x98, 0x80] "😀" ∧ ReadsText [0xED, 0xA0, 0xBD, 0xED, 0xB8, 0x80] "😀" ∧
    ¬ ∀ bytes text, ReadsText bytes text → bytes = encode text.toList := by
  have hzero : ReadsText [0x00] "\x00" := reads_utf8_of_decode? (by decide)
  refine ⟨hzero, reads_utf8_of_decode? (by decide), refusesText_of_decode? (by decide),
    reads_utf8_of_decode? (by decide), reads_utf8_of_decode? (by decide), fun hall => ?_⟩
  exact absurd (hall _ _ hzero) (by decide)

end ClassXref.Scan
