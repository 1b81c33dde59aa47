import ContentBlocking.BlockDecision
import ContentBlocking.CompileRun

/-!
# Commands

What clients ask of the service, and what they are answered. Some commands
start a run and are answered when it ends.

* `Command`, `Reply` — what is asked and answered.
* `CompileOutcome` — the end of a run.
* `Waiter` — a client that waits for a run.
-/

namespace ContentBlocking

/-- What a client asks for. -/
inductive Command where
  /-- Puts artifacts in force, those of an earlier run of the service if the
      engine still holds them. -/
  | startUp
  /-- Turns blocking on or off. -/
  | toggle
  | addToWhitelist (entry : String)
  | removeFromWhitelist (entry : String)
  /-- Downloads all enabled lists. -/
  | updateLists
  | setListEnabled (id : String) (enabled : Bool)
  | addList (name url : String)
  | removeList (id : String)
  | register (s : Surface)
  | unregister (s : Surface)
  /-- A navigation failed with a code. -/
  | reportBlock (s : Surface) (url : String) (code : Int)
  | continueOnce (id : SessionId)
  | whitelistPermanently (id : SessionId)
  | cancel (id : SessionId)
  | recordRequest
  | recordBlocked (url : String) (page : Option String) (size : Option UInt64)
  | recordPageLoad (url : String)
  | resetSession
  deriving Repr, DecidableEq

/-- The end of a run. -/
structure CompileOutcome where
  generation : Nat
  /-- The artifacts were put in force, since no later ones were. -/
  installed : Bool
  /-- Blocking was on when the run ended. -/
  enabled : Bool
  artifacts : List Artifact
  fallback : Bool
  reused : Bool
  dropped : Nat
  deriving Repr, DecidableEq

/-- The number of rules in all artifacts. -/
def CompileOutcome.ruleCount (o : CompileOutcome) : Nat :=
  o.artifacts.foldl (fun n a => n + a.ruleCount) 0

/-- What a client is answered. -/
inductive Reply where
  | done
  | outcome (o : CompileOutcome)
  | enabled (on : Bool)
  | added (list : FilterList) (o : CompileOutcome)
  | session (pending : Option BlockedSession)
  | failed (e : Failure)
  deriving Repr, DecidableEq

/-- What a client that waits for a run wants to know. -/
inductive Awaited where
  | outcome
  | enabled
  | added (list : FilterList)
  deriving Repr, DecidableEq

/-- The number of a command, by which its client gets the answer. -/
abbrev Ticket := Nat

/-- A client that waits for a run. -/
structure Waiter where
  ticket : Ticket
  awaited : Awaited
  deriving Repr, DecidableEq

/-- The answer to what a client wants to know about a run. -/
def Awaited.reply (a : Awaited) : Except Failure CompileOutcome → Reply
  | .error e => .failed e
  | .ok o =>
    match a with
    | .outcome => .outcome o
    | .enabled => .enabled o.enabled
    | .added list => .added list o

end ContentBlocking
