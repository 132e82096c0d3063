import ClassXref.Fault

/-! Reading type descriptors. A reader takes the type at the front of a text and leaves the rest, so
text after a complete descriptor is not looked at. `void` is read wherever a type may stand. -/
namespace ClassXref

/-- What can stand at the front of a descriptor: a type, or the end of a parameter list. -/
inductive DescriptorItem where
  | type (t : TypeDescriptor)
  | close
  deriving Repr, DecidableEq

namespace BaseType

/-- The base type that a single letter writes. -/
def ofLetter? : Char → Option BaseType
  | 'Z' => some (.primitive .boolean)
  | 'B' => some (.primitive .byte)
  | 'C' => some (.primitive .char)
  | 'S' => some (.primitive .short)
  | 'I' => some (.primitive .int)
  | 'J' => some (.primitive .long)
  | 'F' => some (.primitive .float)
  | 'D' => some (.primitive .double)
  | 'V' => some .void
  | _ => none

/-- The base type at the front of a text, or the closing parenthesis as `none`. A class name runs
from `L` to the first semicolon and may hold anything else. -/
def read : List Char → Except DescriptorFlaw (Option BaseType × List Char)
  | [] => .error .unexpectedEnd
  | ')' :: text => .ok (none, text)
  | 'L' :: text =>
    match text.dropWhile (· != ';') with
    | _ :: rest => .ok (some (.object (String.ofList (text.takeWhile (· != ';')))), rest)
    | [] => .error .missingSemicolon
  | c :: text =>
    match ofLetter? c with
    | some base => .ok (some base, text)
    | none => .error .unknownLetter

theorem length_lt_of_read {text rest : List Char} {base : Option BaseType}
    (h : read text = .ok (base, rest)) : rest.length < text.length := by
  unfold read at h
  split at h
  · cases h
  · cases h; simp
  · next text =>
    split at h
    · next c tail hd =>
      cases h
      have := (List.dropWhile_suffix (· != ';') : text.dropWhile (· != ';') <:+ text).length_le
      rw [hd] at this
      simp only [List.length_cons] at this ⊢
      omega
    · cases h
  · split at h
    · cases h; simp
    · cases h

end BaseType

namespace DescriptorItem

/-- The largest number of dimensions of an array. -/
def maxDimensions : Nat := 255

/-- The item at the front of a text. Brackets are counted before what they stand before is read. -/
def read (text : List Char) : Except DescriptorFlaw (DescriptorItem × List Char) := do
  let dimensions := (text.takeWhile (· == '[')).length
  if maxDimensions < dimensions then throw .tooManyDimensions
  else match ← BaseType.read (text.dropWhile (· == '[')) with
    | (some base, rest) => return (.type ⟨dimensions, base⟩, rest)
    | (none, rest) => if dimensions = 0 then return (.close, rest) else throw .arrayOfNothing

theorem length_lt_of_read {text rest : List Char} {item : DescriptorItem}
    (h : read text = .ok (item, rest)) : rest.length < text.length := by
  simp only [read, bind, Except.bind, pure, Except.pure, throw, throwThe, MonadExceptOf.throw] at h
  have hle := (List.dropWhile_suffix (· == '[') : text.dropWhile (· == '[') <:+ text).length_le
  split at h
  · cases h
  · split at h
    · cases h
    · next base hbase =>
      have hlt := BaseType.length_lt_of_read hbase
      split at h
      · cases h; exact Nat.lt_of_lt_of_le hlt hle
      · split at h
        · cases h; exact Nat.lt_of_lt_of_le hlt hle
        · cases h

end DescriptorItem

namespace TypeDescriptor

/-- The type at the front of a text; a closing parenthesis there leaves it without one. -/
def read (text : List Char) : Except DescriptorFlaw TypeDescriptor := do
  match ← DescriptorItem.read text with
  | (.type t, _) => return t
  | (.close, _) => throw .missingReturnType

end TypeDescriptor

namespace MethodDescriptor

/-- Types up to the closing parenthesis, after those already read in reverse, and the text behind
it. -/
def readParameters (done : List TypeDescriptor) (text : List Char) :
    Except DescriptorFlaw (List TypeDescriptor × List Char) :=
  match _h : DescriptorItem.read text with
  | .ok (.type t, rest) => readParameters (t :: done) rest
  | .ok (.close, rest) => .ok (done.reverse, rest)
  | .error flaw => .error flaw
termination_by text.length
decreasing_by exact DescriptorItem.length_lt_of_read _h

/-- The signature at the front of a text. -/
def read : List Char → Except DescriptorFlaw MethodDescriptor
  | '(' :: text => do
    let (parameters, rest) ← readParameters [] text
    return { parameters, result := ← TypeDescriptor.read rest }
  | _ => .error .noOpeningParenthesis

end MethodDescriptor

/-! ### Classes that a descriptor mentions -/
namespace Descriptor

/-- The classes in a method's descriptor, parameters first. -/
def methodClasses (text : String) : Except Fault (List String) :=
  match MethodDescriptor.read text.toList with
  | .ok d => .ok d.classNames
  | .error flaw => .error (.malformed (.methodDescriptor text flaw))

/-- The class in a field's descriptor, if there is one. A field cannot be `void`. -/
def fieldClasses (text : String) : Except Fault (List String) :=
  match TypeDescriptor.read text.toList with
  | .ok t =>
    if t = ⟨0, .void⟩ then .error (.malformed (.fieldDescriptor text .void))
    else .ok t.className?.toList
  | .error flaw => .error (.malformed (.fieldDescriptor text (.unreadable flaw)))

/-- The class that the stored name of a `Class` constant designates. A name that starts with a
bracket is an array type: it designates the class of its elements, or none if they are no class. -/
def classOfName (name : String) : Option String :=
  match name.toList with
  | '[' :: rest =>
    match rest.dropWhile (· == '[') with
    | 'L' :: element =>
      if element.getLast? = some ';' then some (String.ofList element.dropLast) else none
    | _ => none
  | _ => some name

end Descriptor
end ClassXref
