import ContentBlocking.Text.Ascii
import ContentBlocking.Text.Cut

/-!
# Hosts and domains

The host of a URL is what stands in its authority between the user information
and the port. A domain is a host in its normal form: in lower case, without
outer dots and without a leading `www.`. A host belongs to a domain if it is
that domain or one of its subdomains.

* `Host.ofUrl?` — the host of a URL.
* `Host.domain?` — the normal form of a host.
* `Host.isWithin` — a host belongs to a domain.
* `Host.fits` — a host is meant by an entry of a domain list.
-/

namespace ContentBlocking.Host

open Text

/-! ### The host of a URL -/

/-- A character that ends the authority of a URL. -/
def endsAuthority (c : Char) : Bool := c == '/' || c == '?' || c == '#'

/-- What stands between `://` and the path, query or fragment. -/
def authority? (url : List Char) : Option (List Char) :=
  (cut? [':', '/', '/'] url).map fun (_, rest) => upTo endsAuthority rest

/-- The host of an authority: what follows the last `@`, up to a closing
    bracket if it begins with an opening one, and else up to a colon. -/
def ofAuthority? (authority : List Char) : Option (List Char) :=
  let hostPort := match cutLast? '@' authority with
    | some (_, after) => after
    | none => authority
  let host : Option (List Char) := match hostPort with
    | '[' :: _ => (cut? [']'] hostPort).map fun (inner, _) => inner ++ [']']
    | _ => some (upTo (· == ':') hostPort)
  host.filter fun host => !host.isEmpty

/-- The host of a URL, without user information and port. The brackets around
    a numerical host stay. -/
def ofUrlChars? (url : List Char) : Option (List Char) := (authority? url).bind ofAuthority?

/-- The host of a URL, as text. -/
def ofUrl? (url : String) : Option String := (ofUrlChars? url.toList).map String.ofList

/-! ### The domain of a host -/

/-- A character that may occur in a domain. -/
def isDomainChar (c : Char) : Bool := isAlphanumeric c || c == '.' || c == '-'

/-- The normal form of a host. A host has one if, without outer white space
    and dots, it consists of letters, digits, dots and hyphens, and if nothing
    but single dots separate its labels after a leading `www.`. -/
def domainChars? (host : List Char) : Option (List Char) :=
  let trimmed := trimBy (· == '.') (trim host)
  if trimmed.all isDomainChar then
    let lower := lowerAscii trimmed
    let domain := (dropLead? ['w', 'w', 'w', '.'] lower).getD lower
    if domain.isEmpty || domain.head? == some '.' || occursIn ['.', '.'] domain then none
    else some domain
  else none

/-- The normal form of a host, as text. -/
def domain? (host : String) : Option String := (domainChars? host.toList).map String.ofList

/-- The domain of the host of a URL. -/
def domainOfUrl? (url : String) : Option String := (ofUrl? url).bind domain?

/-! ### Hosts within domains -/

/-- Drops a leading `www.` in any case. -/
def dropWww (host : List Char) : List Char :=
  if eqIgnoringCase (host.take 4) ['w', 'w', 'w', '.'] then host.drop 4 else host

/-- The host, without trailing dots and a leading `www.`, is the domain or ends
    in the domain after a dot. -/
def isWithinChars (host domain : List Char) : Bool :=
  let host := dropWww (trimEndBy (· == '.') host)
  let split := host.length - domain.length
  domain.length ≤ host.length && eqIgnoringCase (host.drop split) domain &&
    (split == 0 || (host.take split).getLast? == some '.')

/-- The host belongs to the domain. -/
def isWithin (host domain : String) : Bool := isWithinChars host.toList domain.toList

/-- The host is meant by the entry of a domain list: an entry with a leading
    star means a domain, any other entry means one host. -/
def fitsChars (host : List Char) : (entry : List Char) → Bool
  | '*' :: domain => isWithinChars host domain
  | entry => eqIgnoringCase (trimEndBy (· == '.') host) entry

/-- The host is meant by the entry of a domain list. -/
def fits (host entry : String) : Bool := fitsChars host.toList entry.toList

end ContentBlocking.Host
