import ClassXref.Url.Host

/-! URLs in their parts. A part is held as it is written, with what must be encoded already encoded;
`render` puts the parts together. -/
namespace ClassXref

structure Url where
  scheme : String
  /-- User name and password, without the sign after them. -/
  userinfo : Option String := none
  /-- The host; `none` if the URL has none, the empty text if it has an empty one. -/
  host : Option String := none
  port : Option Nat := none
  path : List Char
  query : Option String := none
  fragment : Option String := none
  deriving Repr, DecidableEq, Inhabited

namespace Url

/-- How a scheme treats what follows it. -/
inductive SchemeKind where
  | special
  | file
  | other
  deriving Repr, DecidableEq, Inhabited

def schemeKind (scheme : String) : SchemeKind :=
  if scheme = "file" then .file
  else if ["http", "https", "ws", "wss", "ftp"].contains scheme then .special
  else .other

/-- The port that need not be written. -/
def defaultPort? (scheme : String) : Option Nat :=
  if scheme = "http" ∨ scheme = "ws" then some 80
  else if scheme = "https" ∨ scheme = "wss" then some 443
  else if scheme = "ftp" then some 21
  else none

/-- The written form. A path that starts with two slashes and follows no host gets a dot segment in
front, so that it is not read as a host. -/
def render (url : Url) : String :=
  let authority := match url.host with
    | some host => "//" ++ (url.userinfo.map (· ++ "@")).getD "" ++ host ++
        (url.port.map fun p => ":" ++ toString p).getD ""
    | none => if ['/', '/'].isPrefixOf url.path then "/." else ""
  url.scheme ++ ":" ++ authority ++ String.ofList url.path ++
    (url.query.map ("?" ++ ·)).getD "" ++ (url.fragment.map ("#" ++ ·)).getD ""

end Url
end ClassXref
