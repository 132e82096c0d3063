import ClassXref.Url.Basic

/-! Reading a URL. Blanks around it and line breaks within it are left out; schemes, hosts, ports and
dot segments are brought into one form. -/
namespace ClassXref.Url

def isLineBreakOrTab (c : Char) : Bool := c == '\t' || c == '\n' || c == '\x0d'

/-- The text without control characters and blanks at its ends, and without tabs and line breaks. -/
def clean (text : List Char) : List Char :=
  let isOuter (c : Char) : Bool := c.toNat ≤ 0x20
  ((text.dropWhile isOuter).reverse.dropWhile isOuter).reverse.filter (!isLineBreakOrTab ·)

def isSchemeChar (c : Char) : Bool := c.isAlphanum || c == '+' || c == '-' || c == '.'

/-- The scheme in lower case and what follows its colon. -/
def splitScheme? (text : List Char) : Option (String × List Char) :=
  let scheme := text.takeWhile isSchemeChar
  match text.drop scheme.length with
  | ':' :: rest =>
    if scheme.head?.any Char.isAlpha then
      some (String.ofList (scheme.map Char.toLower), rest)
    else none
  | _ => none

/-! ### Query and fragment -/

/-- What comes before a query or fragment. -/
def beforeQuery (text : List Char) : List Char :=
  text.takeWhile fun c => c != '?' && c != '#'

/-- Adds the query and fragment at the end of a text. -/
def withQueryAndFragment (url : Url) (kind : SchemeKind) (text : List Char) : Url :=
  let tail := text.drop (beforeQuery text).length
  let fragment? (text : List Char) : Option String := match text with
    | '#' :: fragment => some (String.ofList (percentEncode inFragmentSet fragment))
    | _ => none
  match tail with
  | '?' :: tail =>
    let query := tail.takeWhile (· != '#')
    let set := if kind = .other then inQuerySet else inSpecialQuerySet
    { url with query := some (String.ofList (percentEncode set query))
               fragment := fragment? (tail.drop query.length) }
  | tail => { url with fragment := fragment? tail }

/-! ### Paths -/

def lower (segment : List Char) : String := String.ofList (segment.map Char.toLower)

def isSingleDot (segment : List Char) : Bool := [".", "%2e"].contains (lower segment)

def isDoubleDot (segment : List Char) : Bool :=
  ["..", ".%2e", "%2e.", "%2e%2e"].contains (lower segment)

/-- A letter and a colon or bar: the drive at the start of a path of a file. -/
def isDriveLetter (segment : List Char) : Bool :=
  match segment with
  | [c, d] => c.isAlpha && (d == ':' || d == '|')
  | _ => false

/-- Takes off the last segment, but not a drive. -/
def shorten (kind : SchemeKind) (segments : List (List Char)) : List (List Char) :=
  match kind, segments with
  | .file, [drive] => if isDriveLetter drive then [drive] else []
  | _, _ => segments.dropLast

/-- Appends one segment of a path, where `last` says that no slash follows. A dot segment changes
what is there and stands for an empty one at the end. -/
def appendSegment (kind : SchemeKind) (segments : List (List Char)) (segment : List Char)
    (last : Bool) : List (List Char) :=
  let ending := if last then [[]] else []
  if isDoubleDot segment then shorten kind segments ++ ending
  else if isSingleDot segment then segments ++ ending
  else if kind = .file ∧ segments = [] ∧ isDriveLetter segment then
    [segment.take 1 ++ [':']]
  else segments ++ [segment]

/-- The segments of a path without its first slash. -/
def segmentsOf (kind : SchemeKind) (segments : List (List Char)) :
    List (List Char) → List (List Char)
  | [] => segments
  | [segment] => appendSegment kind segments segment true
  | segment :: rest => segmentsOf kind (appendSegment kind segments segment false) rest

def joinSegments (segments : List (List Char)) : List Char :=
  segments.flatMap fun segment => '/' :: segment

/-- A path from its text. Backslashes are slashes except in other schemes, and empty segments at the
start of the path of a file are left out. -/
def readPath (kind : SchemeKind) (text : List Char) : List Char :=
  let text := if kind = .other then text else text.map fun c => if c = '\\' then '/' else c
  let text := match text with
    | '/' :: text => text
    | text => text
  let segments := segmentsOf kind [] ((splitAt '/' text).map (percentEncode inPathSet))
  if kind = .file then
    match joinSegments segments |>.dropWhile (· == '/') with
    | path => '/' :: path
  else joinSegments segments

/-! ### Authorities -/

/-- Whether a character ends the authority. -/
def endsAuthority (kind : SchemeKind) (c : Char) : Bool :=
  c == '/' || c == '?' || c == '#' || (kind != .other && c == '\\')

/-- User name and password; empty ones are left out. -/
def readUserinfo (text : List Char) : Option String :=
  let user := text.takeWhile (· != ':')
  let password := text.drop (user.length + 1)
  let encode (text : List Char) := String.ofList (percentEncode inUserinfoSet text)
  if password.isEmpty then
    if user.isEmpty then none else some (encode user)
  else some (encode user ++ ":" ++ encode password)

/-- Splits user information from a host at the last sign between them. -/
def splitUserinfo (authority : List Char) : Option (List Char) × List Char :=
  let host := (authority.reverse.takeWhile (· != '@')).reverse
  if authority.contains '@' then
    (some (authority.take (authority.length - host.length - 1)), host)
  else (none, host)

/-- The host in front of a port. A colon in brackets belongs to the host. -/
def takeHost (inBrackets : Bool) : List Char → List Char
  | [] => []
  | c :: text =>
    if c = ':' ∧ !inBrackets then []
    else c :: takeHost (if c = '[' then true else if c = ']' then false else inBrackets) text

def readPort (scheme : String) (text : List Char) : Except Flaw (Option Nat) :=
  let digits := text.takeWhile Char.isDigit
  let port := digits.foldl (fun n c => n * 10 + (c.toNat - '0'.toNat)) 0
  if 65535 < port then .error .invalidPort
  else
    let isEnd := match text.drop digits.length with
      | [] => true
      | c :: _ => c == '\\'
    if !isEnd then .error .invalidPort
    else if digits.isEmpty ∨ defaultPort? scheme = some port then .ok none
    else .ok (some port)

/-- A URL whose authority starts at the text. -/
def readAuthority (scheme : String) (kind : SchemeKind) (text : List Char) : Except Flaw Url := do
  let authority := text.takeWhile (!endsAuthority kind ·)
  let rest := text.drop authority.length
  let (userinfo, hostAndPort) := splitUserinfo authority
  if userinfo = some [] ∧ hostAndPort.isEmpty ∧ !rest.isEmpty then throw .emptyHost
  let userinfo := userinfo.bind readUserinfo
  let hostText := takeHost false hostAndPort
  if kind = .special ∧ hostText.isEmpty then throw .emptyHost
  let host ← if kind = .other then parseOpaqueHost hostText else parseHost hostText
  let afterHost := hostAndPort.drop hostText.length
  if host.isEmpty ∧ (!afterHost.isEmpty ∨ userinfo.isSome) then throw .emptyHost
  let port ← readPort scheme (afterHost.drop 1)
  let pathText := afterHost.dropWhile (· != '\\') ++ beforeQuery rest
  let path := if kind = .other ∧ pathText.isEmpty then [] else readPath kind pathText
  return withQueryAndFragment { scheme, userinfo, host := some host, port, path } kind rest

/-! ### Files -/

/-- The drive or host in front of the path of a file, and the path. -/
def readFile (text : List Char) : Except Flaw Url := do
  let isSlash (c : Char) : Bool := c == '/' || c == '\\'
  let url : Url := { scheme := "file", host := some "", path := [] }
  match text with
  | a :: b :: rest =>
    if isSlash a && isSlash b then
      let hostText := rest.takeWhile (!endsAuthority .file ·)
      let hostText := if isDriveLetter hostText then [] else hostText
      let after := rest.drop hostText.length
      let host ← if hostText.isEmpty then pure "" else parseHost hostText
      let path := readPath .file (beforeQuery after)
      let keepsHost := host != "localhost" && !isDriveLetter (path.drop 1 |>.takeWhile (· != '/'))
      return withQueryAndFragment { url with path, host := some (if keepsHost then host else "") }
        .file after
    else return withQueryAndFragment { url with path := readPath .file (beforeQuery text) } .file text
  | _ => return withQueryAndFragment { url with path := readPath .file (beforeQuery text) } .file text

/-- A URL from its text. -/
def parse (text : String) : Except Flaw Url :=
  match splitScheme? (clean text.toList) with
  | none => .error .relativeWithoutBase
  | some (scheme, rest) =>
    let kind := schemeKind scheme
    match kind with
    | .file => readFile rest
    | .special =>
      readAuthority scheme kind (rest.dropWhile fun c => c == '/' || c == '\\')
    | .other =>
      match rest with
      | '/' :: '/' :: rest => readAuthority scheme kind rest
      | '/' :: _ =>
        .ok (withQueryAndFragment { scheme, path := readPath kind (beforeQuery rest) } kind rest)
      | _ =>
        let path := percentEncode isControl (beforeQuery rest)
        .ok (withQueryAndFragment { scheme, path } kind rest)

end ClassXref.Url
