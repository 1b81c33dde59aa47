import ContentBlocking.Url.Basic
import ContentBlocking.Url.Percent
import ContentBlocking.Url.Punycode

/-!
# Reading URLs

A URL is read leniently and put in its normal form: the scheme and the host
are in lower case, a backslash is a slash, line breaks and tabs do not count,
the path has no dot segments, and what must be percent-encoded is. A URL whose
scheme is not of the web, or whose host is empty or ill-formed, is refused.

* `Url.parse?` — the URL that a text denotes.
* `UrlReader` — any way to read URLs, of which `Url.reader` is one.
-/

namespace ContentBlocking

/-- What there is to know about a URL. -/
structure UrlFacts where
  scheme : String
  host : Option String
  /-- The URL in its normal form. -/
  text : String
  deriving Repr, DecidableEq

/-- The URL is one of the web, and it has a host. -/
def UrlFacts.isOfWeb (url : UrlFacts) : Bool :=
  (url.scheme == "http" || url.scheme == "https") && url.host.any (· ≠ "")

/-- A way to read URLs. Which texts denote one, and what its normal form is, is left
    open: a reader may know host names beyond ASCII. -/
structure UrlReader where
  read? : String → Option UrlFacts

instance : Repr UrlReader where
  reprPrec _ _ := "a reader of URLs"

namespace Url

open Text

/-! ### The host -/

/-- A character that no host name has. -/
def isForbidden (c : Char) : Bool :=
  c.toNat ≤ 0x20 || c.toNat == 0x7F ||
    ['#', '%', '/', ':', '<', '>', '?', '@', '[', '\\', ']', '^', '|'].contains c

/-- A label of a host name; one that begins with `xn--` must be the encoding
    of one that needs it. -/
def isHostLabel (label : List Char) : Bool :=
  match dropLead? ['x', 'n', '-', '-'] label with
  | some rest => Punycode.isLabel rest
  | none => true

/-- The host that a text denotes: an IPv6 address in brackets, an IPv4
    address, or a name. -/
def host? (s : List Char) : Option Host :=
  match s with
  | '[' :: rest => ((dropLast? ']' rest).bind IPv6.parse?).map .ipv6
  | _ =>
    let name := lowerAscii (Percent.decode s)
    if name.isEmpty || !allAscii name || name.any isForbidden ||
        !(splitOn '.' name).all isHostLabel then none
    else if IPv4.isMeant name then (IPv4.parse? name).map .ipv4
    else some (.domain name)

/-- The text up to the first colon that does not stand in brackets, and what
    follows it. -/
def cutPort (inBrackets : Bool) : List Char → List Char × Option (List Char)
  | [] => ([], none)
  | c :: rest =>
    if c == ':' && !inBrackets then ([], some rest)
    else
      let (host, port) := cutPort (c == '[' || (inBrackets && c != ']')) rest
      (c :: host, port)

/-- The port that a text denotes; none if it is empty. -/
def port? (digits : List Char) : Option (Option Nat) :=
  if digits.isEmpty then some none
  else if digits.all Char.isDigit && ofDigits 10 digits < UInt16.size then
    some (some (ofDigits 10 digits))
  else none

/-! ### The path -/

/-- The part of a path means the place itself. -/
def isDot (segment : List Char) : Bool :=
  [['.'], ['%', '2', 'e']].contains (lowerAscii segment)

/-- The part of a path means the place above. -/
def isDoubleDot (segment : List Char) : Bool :=
  [['.', '.'], ['.', '%', '2', 'e'], ['%', '2', 'e', '.'],
    ['%', '2', 'e', '%', '2', 'e']].contains (lowerAscii segment)

/-- The part of a path names a drive, above which there is nothing. -/
def isDrive : List Char → Bool
  | [letter, mark] => letter.isAlpha && (mark == ':' || mark == '|')
  | _ => false

/-- The place above the one with the given path, whose last part comes
    first. -/
def above : List (List Char) → List (List Char)
  | [] => []
  | last :: rest => if isDrive last then last :: rest else rest

/-- Follows the parts of a path from a place, whose last part comes first. A
    dot segment at the end leaves an empty part. -/
def follow (place : List (List Char)) : List (List Char) → List (List Char)
  | [] => place.reverse
  | segment :: rest =>
    if isDoubleDot segment then
      follow (if rest.isEmpty then [] :: above place else above place) rest
    else if isDot segment then follow (if rest.isEmpty then [] :: place else place) rest
    else follow (segment :: place) rest

/-- The parts of the path that a text denotes. -/
def pathOf (s : List Char) : List (List Char) :=
  let s := match s with
    | '/' :: rest => rest
    | s => s
  follow [] ((splitOn '/' s).map (Percent.encode Percent.inPath))

/-! ### The whole -/

/-- Tabs and line breaks, which do not count. -/
def isIgnored (c : Char) : Bool := c == '\t' || c == '\n' || c == '\r'

/-- The text before the first character with the property, and what follows
    that character. -/
def cutAt (p : Char → Bool) (s : List Char) : List Char × Option (List Char) :=
  match s.dropWhile (fun c => !p c) with
  | [] => (upTo p s, none)
  | _ :: after => (upTo p s, some after)

/-- The user name, the password and what follows them in an authority. -/
def splitCredentials (authority : List Char) : List Char × List Char × List Char :=
  match cutLast? '@' authority with
  | none => ([], [], authority)
  | some (before, rest) =>
    let (user, password) := cutAt (· == ':') before
    (Percent.encode Percent.inUserInfo user,
      Percent.encode Percent.inUserInfo (password.getD []), rest)

/-- The URL of a scheme, an authority, and the texts of path, query and
    fragment. -/
def ofParts? (scheme : Scheme) (authority path : List Char) (query fragment : Option (List Char)) :
    Option Url := do
  let (user, password, rest) := splitCredentials authority
  let (host, port) := cutPort false rest
  let host ← host? host
  let port ← port? (port.getD [])
  some {
    scheme := scheme
    user := user
    password := password
    host := host
    port := port.filter (· != scheme.usualPort)
    path := pathOf path
    query := query.map (Percent.encode Percent.inQuery)
    fragment := fragment.map (Percent.encode Percent.inFragment) }

/-- The URL that a list of characters denotes. -/
def parseChars? (s : List Char) : Option Url := do
  let s := (trimBy (·.toNat ≤ 0x20) s).filter fun c => !isIgnored c
  let (scheme, rest) ← cut? [':'] s
  let scheme ← Scheme.ofName? scheme
  -- A question mark in the fragment does not begin a query.
  let (rest, fragment) := cutAt (· == '#') rest
  let (rest, query) := cutAt (· == '?') rest
  -- Backslashes are slashes, but not in the query and the fragment.
  let rest := rest.map fun c => if c == '\\' then '/' else c
  let rest := rest.dropWhile (· == '/')
  let authority := upTo (· == '/') rest
  ofParts? scheme authority (rest.drop authority.length) query fragment

/-- The URL that a text denotes. -/
def parse? (text : String) : Option Url := parseChars? text.toList

/-- Reads the URLs of the web whose host names are of ASCII. -/
def reader : UrlReader where
  read? text := (parse? text).map fun url =>
    ⟨String.ofList url.scheme.name, some (String.ofList url.host.text), url.text⟩

end Url

end ContentBlocking
