/-! UTF-8 read without refusal. Bytes that are no UTF-8 are replaced: the longest start of a
character that is not completed, or else a single byte, becomes one replacement character. -/
namespace ClassXref.LossyUtf8

def replacement : Char := '\uFFFD'

/-- What a first byte announces: how many bytes follow, the range of the next one, and the high bits
of the character. -/
structure Lead where
  following : Nat
  least : Nat
  greatest : Nat
  bits : Nat

/-- The ranges leave out longer forms than needed, surrogates, and what is beyond the last
character. -/
def lead? (b : Nat) : Option Lead :=
  if 0xC2 ≤ b ∧ b ≤ 0xDF then some ⟨1, 0x80, 0xBF, b - 0xC0⟩
  else if b = 0xE0 then some ⟨2, 0xA0, 0xBF, 0⟩
  else if b = 0xED then some ⟨2, 0x80, 0x9F, 0xD⟩
  else if 0xE1 ≤ b ∧ b ≤ 0xEF then some ⟨2, 0x80, 0xBF, b - 0xE0⟩
  else if b = 0xF0 then some ⟨3, 0x90, 0xBF, 0⟩
  else if 0xF1 ≤ b ∧ b ≤ 0xF3 then some ⟨3, 0x80, 0xBF, b - 0xF0⟩
  else if b = 0xF4 then some ⟨3, 0x80, 0x8F, 4⟩
  else none

/-- Reads following bytes as long as they fit. The result is the character, if it is complete, and
what is left. -/
def follow (lead : Lead) : List UInt8 → Option Char × List UInt8
  | [] => (if lead.following = 0 then some (Char.ofNat lead.bits) else none, [])
  | b :: rest =>
    if lead.following = 0 then (some (Char.ofNat lead.bits), b :: rest)
    else if lead.least ≤ b.toNat ∧ b.toNat ≤ lead.greatest then
      follow ⟨lead.following - 1, 0x80, 0xBF, lead.bits * 64 + b.toNat % 64⟩ rest
    else (none, b :: rest)

theorem length_follow_le (lead : Lead) (bytes : List UInt8) :
    (follow lead bytes).2.length ≤ bytes.length := by
  induction bytes generalizing lead with
  | nil => simp [follow]
  | cons b rest ih =>
    unfold follow
    split
    · simp
    · split
      · exact Nat.le_succ_of_le (ih _)
      · simp

/-- Reads characters, those read so far in reverse. -/
def decodeOnto (done : List Char) : List UInt8 → List Char
  | [] => done.reverse
  | b :: rest =>
    if b.toNat < 0x80 then decodeOnto (Char.ofNat b.toNat :: done) rest
    else match lead? b.toNat with
      | none => decodeOnto (replacement :: done) rest
      | some lead =>
        have _shorter := length_follow_le lead rest
        decodeOnto ((follow lead rest).1.getD replacement :: done) (follow lead rest).2
termination_by bytes => bytes.length

def decode (bytes : List UInt8) : String :=
  String.ofList (decodeOnto [] bytes)

end ClassXref.LossyUtf8
