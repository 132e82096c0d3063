import ClassXref.Url.PercentEncoding

/-! Hosts of a URL: names and addresses. -/
namespace ClassXref.Url

/-- Why a text is no URL. -/
inductive Flaw where
  | relativeWithoutBase
  | emptyHost
  | invalidName
  | invalidPort
  | invalidIpv4
  | invalidIpv6
  | invalidCharacter
  deriving Repr, DecidableEq, Inhabited

def Flaw.message : Flaw → String
  | relativeWithoutBase => "relative URL without a base"
  | emptyHost => "empty host"
  | invalidName => "invalid international domain name"
  | invalidPort => "invalid port number"
  | invalidIpv4 => "invalid IPv4 address"
  | invalidIpv6 => "invalid IPv6 address"
  | invalidCharacter => "invalid domain character"

/-! ### Addresses of four bytes -/
namespace Ipv4

/-- A number in decimal, in hexadecimal after `0x` or in octal after `0`. -/
def number? (part : List Char) : Option Nat :=
  match part with
  | [] => none
  | '0' :: 'x' :: digits | '0' :: 'X' :: digits => inBase 16 digits
  | '0' :: d :: digits => inBase 8 (d :: digits)
  | digits => inBase 10 digits
where
  inBase (base : Nat) (digits : List Char) : Option Nat :=
    digits.foldlM (fun n c => do
      let d ← hexDigit? c
      if d < base then some (n * base + d) else none) 0

/-- Whether a name must be read as an address: its last part, an empty one at the end left out, is a
number or consists of digits. -/
def isNumeric (parts : List (List Char)) : Bool :=
  match parts.reverse with
  | [] :: last :: _ | last :: _ =>
    (!last.isEmpty && last.all Char.isDigit) || (number? last).isSome
  | [] => false

/-- The address that up to four parts stand for; the last part fills the bytes that are left. -/
def ofParts (parts : List (List Char)) : Except Flaw Nat :=
  let parts := if parts.getLast? = some [] then parts.dropLast else parts
  match parts.mapM number? with
  | none => .error .invalidIpv4
  | some numbers =>
    let leading := numbers.dropLast
    let last := numbers.getLast?.getD 0
    if 4 < parts.length ∨ Nat.pow 256 (4 - leading.length) ≤ last ∨ leading.any (255 < ·) then
      .error .invalidIpv4
    else .ok (leading.foldl (fun n b => n * 256 + b) 0 * Nat.pow 256 (4 - leading.length) + last)

def render (address : Nat) : String :=
  ".".intercalate ([3, 2, 1, 0].map fun i => toString (address / Nat.pow 256 i % 256))

end Ipv4

/-! ### Addresses of eight groups -/
namespace Ipv6

/-- A byte in decimal without leading zeros, and what follows it. -/
def decimalByte (text : List Char) : Option (Nat × List Char) :=
  let digits := text.takeWhile Char.isDigit
  let value := digits.foldl (fun n c => n * 10 + (c.toNat - '0'.toNat)) 0
  if digits.isEmpty ∨ 255 < value ∨ (1 < digits.length ∧ digits.head? = some '0') then none
  else some (value, text.drop digits.length)

/-- The two groups that a dotted address at the end stands for. -/
def dotted? (text : List Char) : Option (List Nat) := do
  let (a, rest) ← decimalByte text
  let '.' :: rest := rest | none
  let (b, rest) ← decimalByte rest
  let '.' :: rest := rest | none
  let (c, rest) ← decimalByte rest
  let '.' :: rest := rest | none
  let (d, rest) ← decimalByte rest
  if rest.isEmpty then some [a * 256 + b, c * 256 + d] else none

/-- Reads groups, after those read so far in reverse. `gap` is the number of groups before a double
colon, which stands for one group of zeros or more. -/
def groups (done : List Nat) (gap : Option Nat) (text : List Char) :
    Option (List Nat × Option Nat) :=
  let taken := done.length + if gap.isSome then 1 else 0
  match text with
  | [] => some (done.reverse, gap)
  | c :: text =>
    if taken = 8 then none
    else if c = ':' then
      if gap.isSome then none else groups done (some done.length) text
    else
      let front := c :: (text.take 3)
      let digits := front.takeWhile fun c => (hexDigit? c).isSome
      let value := digits.foldl (fun n c => n * 16 + (hexDigit? c).getD 0) 0
      match digits with
      | [] => none
      | _ :: more =>
        match _h : text.drop more.length with
        | [] => some ((value :: done).reverse, gap)
        | '.' :: _ =>
          if 6 < taken then none
          else (dotted? (c :: text)).map fun last => (done.reverse ++ last, gap)
        | [':'] => none
        | ':' :: text => groups (value :: done) gap text
        | _ => none
termination_by text.length
decreasing_by
  · simp
  · have shorter := congrArg List.length _h
    simp only [List.length_drop, List.length_cons] at shorter ⊢
    omega

/-- The eight groups of an address. -/
def parse (text : List Char) : Except Flaw (List Nat) :=
  let read := match text with
    | ':' :: ':' :: text => groups [] (some 0) text
    | ':' :: _ => none
    | [] | [_] => none
    | text => groups [] none text
  match read with
  | some (all, some gap) =>
    if all.length < 8 then
      .ok (all.take gap ++ List.replicate (8 - all.length) 0 ++ all.drop gap)
    else .error .invalidIpv6
  | some (all, none) => if all.length = 8 then .ok all else .error .invalidIpv6
  | none => .error .invalidIpv6

/-- The start and length of the first longest run of zeros. -/
def longestZeros (all : List Nat) : Nat × Nat :=
  let runs := (List.range all.length).map fun i => (i, ((all.drop i).takeWhile (· == 0)).length)
  runs.foldl (fun best run => if best.2 < run.2 then run else best) (0, 0)

def renderGroups (all : List Nat) : String :=
  ":".intercalate (all.map fun n => String.ofList (Nat.toDigits 16 n))

/-- An address in brackets, with a double colon for its longest run of zero groups if that has at
least two. -/
def render (all : List Nat) : String :=
  let (start, length) := longestZeros all
  if length < 2 then "[" ++ renderGroups all ++ "]"
  else "[" ++ renderGroups (all.take start) ++ "::" ++ renderGroups (all.drop (start + length)) ++ "]"

end Ipv6

/-! ### Names -/

/-- Splits at every occurrence of a character. -/
def splitAt (separator : Char) : List Char → List (List Char)
  | [] => [[]]
  | c :: text =>
    match splitAt separator text with
    | part :: parts => if c = separator then [] :: part :: parts else (c :: part) :: parts
    | [] => [[]]

/-- Characters that no host name may hold. -/
def isForbiddenInName (c : Char) : Bool :=
  isControl c || c == ' ' || "%#/:<>?@[\\]^|".toList.contains c

/-- Characters that a host outside the special schemes may not hold. -/
def isForbiddenInOpaque (c : Char) : Bool :=
  "\x00\t\n\x0d #/:<>?@[\\]^|".toList.contains c

/-- A host in brackets. -/
def bracketedHost (text : List Char) : Except Flaw String :=
  if text.getLast? = some ']' then (Ipv6.parse text.dropLast).map Ipv6.render
  else .error .invalidIpv6

/-- The host of a special scheme: an address, or a name in lower case. Names beyond ASCII are not
known. -/
def parseHost : List Char → Except Flaw String
  | '[' :: text => bracketedHost text
  | text =>
    let bytes := percentDecode text
    let name := bytes.map fun b => (Char.ofNat b.toNat).toLower
    if bytes.any (0x80 ≤ ·) ∨ name.any isForbiddenInName then .error .invalidName
    else if name.isEmpty then .error .emptyHost
    else
      let parts := splitAt '.' name
      if Ipv4.isNumeric parts then (Ipv4.ofParts parts).map Ipv4.render
      else .ok (String.ofList name)

/-- The host of any other scheme: an address in brackets, or text that is not interpreted. -/
def parseOpaqueHost : List Char → Except Flaw String
  | '[' :: text => bracketedHost text
  | text =>
    if text.any isForbiddenInOpaque then .error .invalidCharacter
    else .ok (String.ofList (percentEncode isControl text))

end ClassXref.Url
