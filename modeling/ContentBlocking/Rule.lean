import ContentBlocking.ResourceType

/-!
# Rules

A content blocking rule says what happens to the requests that its trigger
describes. Rules stand in an order, and a rule that ignores the previous ones
is an exception from them.
-/

namespace ContentBlocking

/-- The requests to which a rule applies. -/
structure Trigger where
  /-- A regular expression that must occur in the URL. -/
  urlPattern : String
  /-- The types of the resource; none stand for all. -/
  resourceTypes : ResourceTypes := ∅
  /-- The page must be on one of these domains. -/
  ifDomains : Option (List String) := none
  /-- The page must not be on any of these domains. -/
  unlessDomains : Option (List String) := none
  deriving Repr, DecidableEq

/-- What a rule does. -/
inductive Action where
  /-- The request is not made. -/
  | block
  /-- The elements that the selector describes are hidden. -/
  | hide (selector : String)
  /-- Nothing that an earlier rule does to this request happens. -/
  | ignorePrevious
  /-- The request is made with https. -/
  | makeHttps
  deriving Repr, DecidableEq

/-- A content blocking rule. -/
structure Rule where
  trigger : Trigger
  action : Action
  deriving Repr, DecidableEq

namespace Rule

/-- The rule cancels earlier ones. -/
def isException (r : Rule) : Bool := r.action == .ignorePrevious

/-- An exception for the URLs with the pattern. -/
def exceptionFor (pattern : String) : Rule := ⟨{ urlPattern := pattern }, .ignorePrevious⟩

/-- An exception for all requests of the pages on a domain. -/
def exceptionOn (domain : String) : Rule :=
  ⟨{ urlPattern := ".*", ifDomains := some ["*" ++ domain] }, .ignorePrevious⟩

end Rule

end ContentBlocking
