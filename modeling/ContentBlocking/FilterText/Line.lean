import ContentBlocking.FilterText.Pattern
import ContentBlocking.Rule
import ContentBlocking.Text.Ascii

/-!
# Lines of filter lists

A line of a filter list gives at most one rule. A cosmetic line, with `##` in
it, hides elements on the pages it lists. Any other line blocks the requests
with a pattern; what follows the last `$` narrows it to some types. Comments,
exceptions and lines with characters outside ASCII give no rule, nor do lines
whose pattern has nothing but wildcards or names an excluded domain.

* `FilterText.ruleOfLine?` — the rule of a line.
* `FilterText.cosmeticRule?`, `FilterText.networkRule?` — the two kinds.
-/

namespace ContentBlocking.FilterText

open Text

/-- The line is a comment or a header. -/
def isComment (line : List Char) : Bool := line.head? == some '!' || line.head? == some '['

/-! ### Cosmetic lines -/

/-- The entries of a domain list: the domains on which a rule applies, and the
    negated ones on which it does not. -/
def domainEntries (domains : List Char) : List (List Char) × List (List Char) :=
  let domains := trim domains
  if domains.isEmpty || domains == ['*'] then ([], [])
  else
    let entries := ((splitOn ',' domains).map trim).filter fun entry => !entry.isEmpty
    (entries.filterMap fun entry =>
        if entry.head? == some '~' then none else some (lowerAscii entry),
      entries.filterMap fun entry =>
        if entry.head? == some '~' then some (lowerAscii entry.tail) else none)

/-- A domain list, unless it is empty. -/
def nonEmpty (domains : List (List Char)) : Option (List String) :=
  if domains.isEmpty then none else some (domains.map String.ofList)

/-- The rule of a cosmetic line with the given domain list and selector. -/
def cosmeticRule? (domains selector : List Char) : Option Rule :=
  let selector := trim selector
  if selector.isEmpty then none
  else
    let (listed, negated) := domainEntries domains
    some {
      trigger := {
        urlPattern := ".*"
        ifDomains := nonEmpty listed
        unlessDomains := nonEmpty negated }
      action := .hide (String.ofList selector) }

/-! ### Network lines -/

/-- The types that the modifiers of a line name; others are ignored. -/
def modifierTypes (modifiers : List Char) : ResourceTypes :=
  ResourceTypes.ofList <| (splitOn ',' modifiers).filterMap fun name =>
    ResourceType.ofModifier? (String.ofList (lowerAscii (trim name)))

/-- A pattern without its anchors. -/
structure Anchored where
  literal : List Char
  anchoring : Anchoring
  right : Bool
  deriving Repr, DecidableEq

/-- Takes the anchors off a pattern: `||` or `|` in front and `|` at the
    end. -/
def Anchored.ofPattern (pattern : List Char) : Anchored :=
  let (anchoring, rest) : Anchoring × List Char := match pattern with
    | '|' :: '|' :: rest => (.hostname, rest)
    | '|' :: rest => (.left, rest)
    | rest => (.none, rest)
  match dropLast? '|' rest with
  | some literal => ⟨literal, anchoring, true⟩
  | none => ⟨rest, anchoring, false⟩

/-- The pattern and the modifiers of a line: what stands before and after the
    last `$`. -/
def splitModifiers (line : List Char) : List Char × List Char :=
  match cutLast? '$' line with
  | some (pattern, modifiers) => (pattern, modifiers)
  | none => (line, [])

/-- The pattern names one of the domains. -/
def namesExcluded (excluded : List String) (literal : List Char) : Bool :=
  excluded.any fun domain => occursIn domain.toList (lowerAscii literal)

/-- The rule of a network line. -/
def networkRule? (excluded : List String) (line : List Char) : Option Rule :=
  let (pattern, modifiers) := splitModifiers line
  let p := Anchored.ofPattern (trim pattern)
  -- Wildcards alone would block every request.
  if p.literal.all (· == '*') || namesExcluded excluded p.literal then none
  else some {
    trigger := {
      urlPattern := urlPattern p.literal p.anchoring p.right
      resourceTypes := modifierTypes modifiers }
    action := .block }

/-! ### Lines -/

/-- The line has nothing to say: it is blank or a comment. -/
def isSilent (line : List Char) : Bool := line.isEmpty || isComment line

/-- The rule of a line without outer white space that is not silent. -/
def ruleOfTrimmed? (excluded : List String) (line : List Char) : Option Rule :=
  if !allAscii line || occursIn ['#', '@', '#'] line then none
  else match cut? ['#', '#'] line with
    | some (domains, selector) => cosmeticRule? domains selector
    | none => if occursIn ['@', '@'] line then none else networkRule? excluded line

/-- The rule of a line, in which network rules do not name an excluded
    domain. -/
def ruleOfLine? (excluded : List String) (line : List Char) : Option Rule :=
  let line := trim line
  if isSilent line then none else ruleOfTrimmed? excluded line

end ContentBlocking.FilterText
