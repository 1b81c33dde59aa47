import ContentBlocking.Compile.Builtin
import ContentBlocking.Compile.Distinct
import ContentBlocking.FilterText.Parsed

/-!
# Rule collections

A collection has the built-in rules first, then the rules of each list that is
available, without duplicates; after them come the exceptions for excluded
domains and the exceptions of every collection. Exceptions cancel what stands
before them, so they are last.

* `RuleCollection.compile` — the collection of some lists.
* `RuleCollection.minimal` — the collection that stands in when no other can
  be compiled.
-/

namespace ContentBlocking

/-- The text of a list, if it could be had. -/
structure ListText where
  id : String
  text : Option String
  deriving Repr, DecidableEq

/-- How a collection is compiled. -/
structure CompileOptions where
  maxRulesPerList : Nat := FilterText.defaultMaxRules
  /-- Every excluded domain gets an exception. -/
  whitelistExceptions : Bool := true
  deriving Repr, DecidableEq

/-- What became of a list. -/
structure ListReport where
  id : String
  rules : Nat := 0
  rejected : Nat := 0
  truncated : Bool := false
  /-- The text of the list could not be had. -/
  skipped : Bool := false
  deriving Repr, DecidableEq

/-- What a collection was made of. -/
structure CompileReport where
  builtin : Nat := 0
  lists : List ListReport := []
  whitelistExceptions : Nat := 0
  siteExceptions : Nat := 0
  deduped : Nat := 0
  deriving Repr, DecidableEq

/-- An ordered collection of rules and what it was made of. -/
structure RuleCollection where
  rules : List Rule
  report : CompileReport
  deriving Repr, DecidableEq

namespace RuleCollection

/-- What is found in the text of a list; nothing if there is none. -/
def parseList (options : CompileOptions) (excluded : List String) (list : ListText) :
    Option FilterText.Parsed :=
  list.text.map (FilterText.parse excluded options.maxRulesPerList)

/-- What became of a list in which this was found. -/
def reportOf (list : ListText) : Option FilterText.Parsed → ListReport
  | none => { id := list.id, skipped := true }
  | some parsed =>
    { id := list.id, rules := parsed.rules.length, rejected := parsed.rejected
      truncated := parsed.truncated }

/-- The rules of the lists that are available, in their order. -/
def listRules (options : CompileOptions) (excluded : List String) (lists : List ListText) :
    List Rule :=
  lists.flatMap fun list => ((parseList options excluded list).map (·.rules)).getD []

/-- The exceptions for the excluded domains. -/
def whitelistRules (options : CompileOptions) (excluded : List String) : List Rule :=
  if options.whitelistExceptions then excluded.map Rule.exceptionOn else []

/-- The collection of some lists; `excluded` is ascending. -/
def compile (options : CompileOptions) (lists : List ListText) (excluded : List String) :
    RuleCollection :=
  let builtin := Builtin.rules excluded
  let blocking := builtin ++ listRules options excluded lists
  let whitelisted := whitelistRules options excluded
  { rules := distinctRules blocking ++ whitelisted ++ Builtin.exceptions
    report := {
      builtin := builtin.length
      lists := lists.map fun list => reportOf list (parseList options excluded list)
      whitelistExceptions := whitelisted.length
      siteExceptions := Builtin.exceptions.length
      deduped := duplicates blocking } }

/-- The number of exceptions. -/
def exceptionCount (c : RuleCollection) : Nat := c.rules.countP Rule.isException

/-- The collection that stands in when no other can be compiled. -/
def minimal (excluded : List String) : List Rule :=
  Builtin.minimalRules excluded ++ Builtin.exceptions

end RuleCollection

end ContentBlocking
