/-! Names of program elements as the index knows them. A symbol is what a reference points at; a
referrer is the declaration in which the reference stands. Both have a one-line text, which is the
key under which the index stores them. -/
namespace ClassXref

/-- A field or method, named by the class it was looked up in, its own name and its descriptor. -/
structure MemberRef where
  owner : String
  name : String
  descriptor : String
  deriving Repr, DecidableEq, Inhabited

/-- The three parts with colons between them. -/
def MemberRef.text (m : MemberRef) : String :=
  m.owner ++ ":" ++ m.name ++ ":" ++ m.descriptor

/-- What a reference points at. -/
inductive Symbol where
  | ofClass (name : String)
  | ofMethod (member : MemberRef)
  | ofField (member : MemberRef)
  deriving Repr, DecidableEq, Inhabited

/-- The key of a symbol: a class is its name, a member its three parts. -/
def Symbol.text : Symbol → String
  | .ofClass name => name
  | .ofMethod member => member.text
  | .ofField member => member.text

/-- The declaration in which a reference was found. -/
inductive Referrer where
  | ofClass (name : String)
  | ofField (member : MemberRef)
  | ofMethod (member : MemberRef)
  deriving Repr, DecidableEq, Inhabited

/-- The context of a use: `c:`, `f:` or `m:` and the text of the declaration. -/
def Referrer.text : Referrer → String
  | .ofClass name => "c:" ++ name
  | .ofField member => "f:" ++ member.text
  | .ofMethod member => "m:" ++ member.text

/-- One reference: a symbol and the declaration that mentions it. -/
structure Usage where
  symbol : Symbol
  referrer : Referrer
  deriving Repr, DecidableEq, Inhabited

end ClassXref
