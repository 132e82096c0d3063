/-! Type descriptors: the text by which a class file writes the type of a field or the signature of
a method. `TypeDescriptor.render` and `MethodDescriptor.render` write them; the reader stands in
`ClassXref.Descriptor.Reader`. -/
namespace ClassXref

/-- The primitive types that a value can have. -/
inductive Primitive where
  | boolean | byte | char | short | int | long | float | double
  deriving Repr, DecidableEq, Inhabited

/-- The letter of a primitive type. -/
def Primitive.letter : Primitive → Char
  | boolean => 'Z'
  | byte => 'B'
  | char => 'C'
  | short => 'S'
  | int => 'I'
  | long => 'J'
  | float => 'F'
  | double => 'D'

/-- A type without its array dimensions. `void` stands for "no value". -/
inductive BaseType where
  | primitive (p : Primitive)
  | void
  | object (name : String)
  deriving Repr, DecidableEq, Inhabited

/-- A base type under some number of array dimensions. -/
structure TypeDescriptor where
  dimensions : Nat
  base : BaseType
  deriving Repr, DecidableEq, Inhabited

/-- Parameter types in order, and the type of the result. -/
structure MethodDescriptor where
  parameters : List TypeDescriptor
  result : TypeDescriptor
  deriving Repr, DecidableEq, Inhabited

/-- Why a text is no descriptor. -/
inductive DescriptorFlaw where
  | noOpeningParenthesis
  | missingReturnType
  | missingSemicolon
  | tooManyDimensions
  | arrayOfNothing
  | unknownLetter
  | unexpectedEnd
  deriving Repr, DecidableEq, Inhabited

def DescriptorFlaw.message : DescriptorFlaw → String
  | noOpeningParenthesis => "Invalid descriptor: Method descriptor must start with '('."
  | missingReturnType => "Invalid descriptor: Missing return type."
  | missingSemicolon => "Invalid descriptor: Missing semicolon in class name descriptor."
  | tooManyDimensions => "Array has too many dimensions."
  | arrayOfNothing => "Invalid descriptor: Invalid descriptor."
  | unknownLetter => "Invalid descriptor: Unrecognized type descriptor."
  | unexpectedEnd => "Unexpected end of input."

namespace BaseType

def render : BaseType → List Char
  | primitive p => [p.letter]
  | void => ['V']
  | object name => 'L' :: (name.toList ++ [';'])

/-- The class that a base type names, if it names one. -/
def className? : BaseType → Option String
  | object name => some name
  | _ => none

end BaseType

/-- One bracket a dimension, then the base type. -/
def TypeDescriptor.render (t : TypeDescriptor) : List Char :=
  List.replicate t.dimensions '[' ++ t.base.render

/-- The class a type mentions: for an array that of its elements, for a primitive none. -/
def TypeDescriptor.className? (t : TypeDescriptor) : Option String :=
  t.base.className?

/-- The parameters between parentheses, then the result. -/
def MethodDescriptor.render (d : MethodDescriptor) : List Char :=
  '(' :: (d.parameters.flatMap TypeDescriptor.render ++ ')' :: d.result.render)

/-- The classes a signature mentions, parameters first, as often as it mentions them. -/
def MethodDescriptor.classNames (d : MethodDescriptor) : List String :=
  (d.parameters ++ [d.result]).filterMap TypeDescriptor.className?

end ClassXref
