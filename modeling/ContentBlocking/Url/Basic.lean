import ContentBlocking.Url.Address

/-!
# URLs

The addresses from which filter lists are fetched: URLs of the web, in their
normal form.

* `Url` — a URL in its parts.
* `Url.text` — the URL in one piece.
-/

namespace ContentBlocking

open Text

/-- How a resource is fetched. -/
inductive Url.Scheme where
  | http
  | https
  deriving Repr, DecidableEq

/-- The machine from which a resource is fetched. -/
inductive Url.Host where
  | domain (name : List Char)
  | ipv4 (address : Nat)
  | ipv6 (groups : List Nat)
  deriving Repr, DecidableEq

/-- A URL. User information, path, query and fragment are percent-encoded. -/
structure Url where
  scheme : Url.Scheme
  user : List Char := []
  password : List Char := []
  host : Url.Host
  /-- The port, unless it is the usual one of the scheme. -/
  port : Option Nat := none
  /-- The parts of the path, which follow a slash each. -/
  path : List (List Char)
  query : Option (List Char) := none
  fragment : Option (List Char) := none
  deriving Repr, DecidableEq

namespace Url

/-- The name of a scheme. -/
def Scheme.name : Scheme → List Char
  | .http => ['h', 't', 't', 'p']
  | .https => ['h', 't', 't', 'p', 's']

/-- The scheme with the given name. -/
def Scheme.ofName? (name : List Char) : Option Scheme :=
  [Scheme.http, Scheme.https].find? fun s => s.name == lowerAscii name

/-- The port that is meant when none is given. -/
def Scheme.usualPort : Scheme → Nat
  | .http => 80
  | .https => 443

/-- The host as it stands in a URL. -/
def Host.text : Host → List Char
  | .domain name => name
  | .ipv4 address => IPv4.text address
  | .ipv6 groups => '[' :: IPv6.text groups ++ [']']

/-- The user name and the password, if there are any, with their separators. -/
def credentials (u : Url) : List Char :=
  if u.user.isEmpty && u.password.isEmpty then []
  else u.user ++ (if u.password.isEmpty then [] else ':' :: u.password) ++ ['@']

/-- The URL in one piece, as a list of characters. -/
def chars (u : Url) : List Char :=
  u.scheme.name ++ [':', '/', '/'] ++ u.credentials ++ u.host.text ++
    (match u.port with
      | some port => ':' :: Nat.toDigits 10 port
      | none => []) ++
    u.path.flatMap ('/' :: ·) ++
    (match u.query with
      | some query => '?' :: query
      | none => []) ++
    (match u.fragment with
      | some fragment => '#' :: fragment
      | none => [])

/-- The URL in one piece. -/
def text (u : Url) : String := String.ofList u.chars

end Url

end ContentBlocking
