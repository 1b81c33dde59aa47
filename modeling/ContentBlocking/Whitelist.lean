import ContentBlocking.Failure
import ContentBlocking.Host

/-!
# The whitelist

The domains on whose pages nothing is blocked. The user names one by itself or
by a URL, and what is kept is its normal form.

* `Whitelist.domainOf` — the domain that an entry names.
* `Whitelist.add`, `Whitelist.remove` — the changes.
* `Whitelist.coversHost`, `Whitelist.coversUrl` — the domains at work.
-/

namespace ContentBlocking

open Text

/-- Ascending domains in their normal form. -/
structure Whitelist where
  domains : List String := []
  deriving Repr, DecidableEq

namespace Whitelist

/-- A character behind which the host of an entry without a scheme has ended. -/
def endsHost (c : Char) : Bool := Host.endsAuthority c || c == ':'

/-- The host that an entry names: the one of a URL, or what stands in front of
    a port or a path. -/
def hostChars? (entry : List Char) : Option (List Char) :=
  let entry := trim entry
  if occursIn [':', '/', '/'] entry then Host.ofUrlChars? entry
  else some (upTo endsHost entry)

/-- The domain that an entry names, as a list of characters. It must have a
    dot. -/
def domainChars? (entry : List Char) : Option (List Char) :=
  ((hostChars? entry).bind Host.domainChars?).filter fun domain => domain.contains '.'

/-- The domain that an entry names. -/
def domainOf (entry : String) : Except Failure String :=
  match domainChars? entry.toList with
  | some domain => .ok (String.ofList domain)
  | none => .error (.invalidWhitelistInput entry)

/-- The whitelist with the domains that some entries name; entries that name
    none are dropped. -/
def ofEntries (entries : List String) : Whitelist :=
  ⟨ascending (entries.filterMap fun entry => (domainOf entry).toOption)⟩

/-- The domain is on the list. -/
def contains (w : Whitelist) (domain : String) : Bool := w.domains.contains domain

/-- The whitelist with one more domain. -/
def insert (w : Whitelist) (domain : String) : Whitelist := ⟨insertAscending domain w.domains⟩

/-- The whitelist without a domain. -/
def erase (w : Whitelist) (domain : String) : Whitelist := ⟨w.domains.filter (· ≠ domain)⟩

/-- Adds the domain that an entry names; gives it, and whether it is new. -/
def add (w : Whitelist) (entry : String) : Whitelist × Except Failure (String × Bool) :=
  match domainOf entry with
  | .ok domain =>
    if w.contains domain then (w, .ok (domain, false)) else (w.insert domain, .ok (domain, true))
  | .error e => (w, .error e)

/-- Removes the domain that an entry names; tells whether it was there. -/
def remove (w : Whitelist) (entry : String) : Whitelist × Except Failure Bool :=
  match domainOf entry with
  | .ok domain => if w.contains domain then (w.erase domain, .ok true) else (w, .ok false)
  | .error e => (w, .error e)

/-- The host belongs to one of the domains. -/
def coversHost (w : Whitelist) (host : String) : Bool := w.domains.any (Host.isWithin host)

/-- The host of the URL belongs to one of the domains. -/
def coversUrl (w : Whitelist) (url : String) : Bool := (Host.ofUrl? url).any w.coversHost

theorem mem_insert {w : Whitelist} {domain d : String} :
    d ∈ (w.insert domain).domains ↔ d = domain ∨ d ∈ w.domains := mem_insertAscending

theorem mem_erase {w : Whitelist} {domain d : String} :
    d ∈ (w.erase domain).domains ↔ d ∈ w.domains ∧ d ≠ domain := by simp [erase]

/-- The whitelist changes if the entry names a domain that is new. -/
theorem add_cases (w : Whitelist) (entry : String) :
    (∃ domain, domainOf entry = .ok domain ∧ w.contains domain = false ∧
      w.add entry = (w.insert domain, .ok (domain, true))) ∨
    (∃ domain, domainOf entry = .ok domain ∧ w.contains domain = true ∧
      w.add entry = (w, .ok (domain, false))) ∨
    ∃ e, domainOf entry = .error e ∧ w.add entry = (w, .error e) := by
  rw [add]
  split
  · next domain hdomain =>
    cases hknown : w.contains domain with
    | false => exact .inl ⟨domain, hdomain, hknown, by simp⟩
    | true => exact .inr (.inl ⟨domain, hdomain, hknown, by simp⟩)
  · next e he => exact .inr (.inr ⟨e, he, rfl⟩)

/-- The whitelist changes if the entry names a domain that is there. -/
theorem remove_cases (w : Whitelist) (entry : String) :
    (∃ domain, domainOf entry = .ok domain ∧ w.contains domain = true ∧
      w.remove entry = (w.erase domain, .ok true)) ∨
    (∃ domain, domainOf entry = .ok domain ∧ w.contains domain = false ∧
      w.remove entry = (w, .ok false)) ∨
    ∃ e, domainOf entry = .error e ∧ w.remove entry = (w, .error e) := by
  rw [remove]
  split
  · next domain hdomain =>
    cases hknown : w.contains domain with
    | true => exact .inl ⟨domain, hdomain, hknown, by simp⟩
    | false => exact .inr (.inl ⟨domain, hdomain, hknown, by simp⟩)
  · next e he => exact .inr (.inr ⟨e, he, rfl⟩)

end Whitelist

end ContentBlocking
