import ContentBlocking.Host
import ContentBlocking.Regex.Parser
import ContentBlocking.Rule

/-!
# Matching requests

A matcher holds an ordered collection of rules whose patterns are well-formed.
Every rule that applies to a request is visited from the first to the last: it
blocks, hides, upgrades, or discards what the rules before it have decided.
What is left after the last rule is the verdict. How patterns are read and
where they are found is left to a language of patterns; the one at work is that
of the regular expressions.

* `PatternLanguage` — a language of patterns.
* `Matcher.ofRules` — the matcher of a collection of rules.
* `Matcher.verdict` — the verdict on a request.
-/

namespace ContentBlocking

/-- A language of patterns, whose expressions are `P`. There is an expression at
    least. -/
class PatternLanguage (P : Type) extends Inhabited P where
  /-- The expression that a pattern denotes, if it is well-formed. -/
  compile? : String → Option P
  /-- The expression is found in a text. -/
  finds : P → String → Bool

export PatternLanguage (compile? finds)

@[default_instance]
instance : PatternLanguage Regex where
  default := .empty
  compile? := Regex.parse?
  finds r text := r.search text.toList

/-- A request that a page makes. -/
structure Request where
  url : String
  /-- The host of the page. -/
  pageHost : String
  types : ResourceTypes
  deriving Repr, DecidableEq

/-- Whether a request is made. -/
inductive Decision where
  | allow
  | block
  deriving Repr, DecidableEq

/-- What the rules say of a request. -/
structure Verdict where
  decision : Decision := .allow
  /-- The place of the rule that blocked the request, or that cancelled all
      rules before it when none has blocked since. -/
  rule : Option Nat := none
  /-- The selectors of the elements to hide. -/
  hidden : List String := []
  /-- The request is to be made with https. -/
  https : Bool := false
  deriving Repr, DecidableEq

/-- The trigger describes requests with this URL pattern, apart from the
    pattern itself: the types and the domains of the page fit. -/
def Trigger.admits (t : Trigger) (q : Request) : Bool :=
  t.resourceTypes.covers q.types &&
    t.ifDomains.all (fun ds => ds.any (Host.fits q.pageHost)) &&
    t.unlessDomains.all (fun ds => !ds.any (Host.fits q.pageHost))

/-- A rule with the expression that its pattern denotes. -/
structure CompiledRule (P : Type := Regex) where
  rule : Rule
  pattern : P
  deriving Repr, DecidableEq

/-- The rule applies to the request. -/
def CompiledRule.applies {P : Type} [PatternLanguage P] (r : CompiledRule P) (q : Request) :
    Bool :=
  r.rule.trigger.admits q && finds r.pattern q.url

/-- The verdict after one more rule that applies, which stands at `index`. -/
def Verdict.next (v : Verdict) (index : Nat) : Action → Verdict
  | .block => { v with decision := .block, rule := some index }
  | .hide selector => { v with hidden := v.hidden ++ [selector] }
  | .makeHttps => { v with https := true }
  | .ignorePrevious => { rule := some index }

/-- An ordered collection of rules with well-formed patterns. -/
structure Matcher (P : Type := Regex) where
  rules : List (CompiledRule P)
  deriving Repr, DecidableEq

namespace Matcher

variable {P : Type}

/-- The number of rules. -/
def size (m : Matcher P) : Nat := m.rules.length

variable [PatternLanguage P]

/-- Reads the patterns of rules that stand at `index` and after; fails with the
    place of the first rule whose pattern is not well-formed. -/
def compileFrom (index : Nat) : List Rule → Except Nat (List (CompiledRule P))
  | [] => .ok []
  | r :: rest =>
    match compile? r.trigger.urlPattern with
    | none => .error index
    | some pattern => (compileFrom (index + 1) rest).map (⟨r, pattern⟩ :: ·)

/-- The matcher of a collection of rules, or the place of the first rule whose
    pattern is not well-formed. -/
def ofRules (rules : List Rule) : Except Nat (Matcher P) := (compileFrom 0 rules).map (⟨·⟩)

/-- The verdict after the rules that stand at `index` and after. -/
def verdictFrom (q : Request) (index : Nat) (v : Verdict) : List (CompiledRule P) → Verdict
  | [] => v
  | r :: rest =>
    verdictFrom q (index + 1) (if r.applies q then v.next index r.rule.action else v) rest

/-- The verdict on a request. -/
def verdict (m : Matcher P) (q : Request) : Verdict := verdictFrom q 0 {} m.rules

/-- The message for a rule whose pattern is not well-formed. -/
def invalidPatternMessage (index : Nat) : String := s!"Invalid url-filter in rule {index}"

end Matcher

end ContentBlocking
