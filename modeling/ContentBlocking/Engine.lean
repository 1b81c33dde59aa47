import ContentBlocking.Artifact.Payload
import ContentBlocking.Fingerprint
import ContentBlocking.Matcher
import ContentBlocking.Table

/-!
# The blocking engine

The engine compiles payloads under identifiers and keeps the last good one for
each. Compiled payloads are attached to surfaces, the views of pages, and a
request on a surface is put to every payload attached there. Which payload
that is is looked up at that moment, so a surface follows a later compile of
the same identifier.

* `Engine.compile`, `Engine.lookup` — the payloads that the engine holds.
* `Engine.attach`, `Engine.detachAll` — what a surface runs.
* `Engine.evaluate` — the verdict on a request on a surface.
-/

namespace ContentBlocking

/-- The view of a page. -/
abbrev Surface := Nat

/-- The name of a surface. -/
def surfaceName (s : Surface) : String := s!"surface#{s}"

/-- A payload that the engine has compiled. -/
structure Artifact where
  identifier : String
  ruleCount : Nat
  /-- The fingerprint of the payload. -/
  fingerprint : String
  deriving Repr, DecidableEq

/-- Why the engine refuses a payload. -/
inductive Rejection where
  | payload (e : PayloadError)
  | tooManyRules (count limit : Nat)
  | invalidPattern (index : Nat)
  deriving Repr, DecidableEq

/-- The message of the refusal. -/
def Rejection.message : Rejection → String
  | .payload e => e.message
  | .tooManyRules count limit => s!"{count} rules exceed the limit of {limit}"
  | .invalidPattern index => Matcher.invalidPatternMessage index

/-- Why a compile fails. -/
inductive EngineError where
  | rejected (r : Rejection)
  | unavailable (identifier : String)
  deriving Repr, DecidableEq

/-- The message of the failure. -/
def EngineError.message : EngineError → String
  | .rejected r => s!"rule list rejected: {r.message}"
  | .unavailable identifier => s!"engine unavailable: compile of '{identifier}' failed"

/-- What the engine holds under an identifier. -/
structure Compiled (P : Type := Regex) where
  artifact : Artifact
  matcher : Matcher P
  deriving Repr, DecidableEq

/-- The blocking engine, with the expressions of a language of patterns. -/
structure Engine (P : Type := Regex) where
  /-- The greatest number of rules in a payload. -/
  ruleLimit : Option Nat := none
  /-- The identifiers that cannot be compiled at present. -/
  failing : List String := []
  /-- How often a compile was asked for. -/
  calls : Nat := 0
  stored : Table String (Compiled P) := []
  /-- The identifiers attached to each surface, in their order. -/
  attachments : Table Surface (List String) := []
  deriving Repr, DecidableEq

namespace Engine

variable {P : Type}

/-! ### Compiling -/

section

variable [PatternLanguage P]

/-- What an engine with the given limit makes of a payload. -/
def check (ruleLimit : Option Nat) (identifier payload : String) :
    Except Rejection (Compiled P) :=
  match Payload.decode payload with
  | .error e => .error (.payload e)
  | .ok rules =>
    -- The limit is looked at before the patterns are.
    match ruleLimit.filter (· < rules.length) with
    | some limit => .error (.tooManyRules rules.length limit)
    | none =>
      match Matcher.ofRules rules with
      | .error index => .error (.invalidPattern index)
      | .ok matcher => .ok ⟨⟨identifier, rules.length, Fingerprint.hex payload⟩, matcher⟩

/-- Compiles a payload under an identifier. If that fails, what the engine held
    under it stays. -/
def compile (e : Engine P) (identifier payload : String) :
    Engine P × Except EngineError Artifact :=
  -- A compile that fails counts too.
  let e := { e with calls := e.calls + 1 }
  if e.failing.contains identifier then (e, .error (.unavailable identifier))
  else match check e.ruleLimit identifier payload with
    | .error r => (e, .error (.rejected r))
    | .ok compiled =>
      ({ e with stored := e.stored.set identifier compiled }, .ok compiled.artifact)

end

/-- The payload that the engine holds under an identifier. -/
def lookup (e : Engine P) (identifier : String) : Option Artifact :=
  (e.stored.get? identifier).map (·.artifact)

/-- The identifiers under which the engine holds a payload. -/
def identifiers (e : Engine P) : List String := e.stored.keys

/-- Makes the compiles of an identifier fail from now on. -/
def fail (e : Engine P) (identifier : String) : Engine P :=
  { e with failing := identifier :: e.failing }

/-- Lets all compiles succeed again that are good. -/
def clearFailures (e : Engine P) : Engine P := { e with failing := [] }

/-! ### Surfaces -/

/-- The identifiers attached to a surface. -/
def attached (e : Engine P) (s : Surface) : List String := (e.attachments.get? s).getD []

/-- Attaches an identifier to a surface, after those that are there. -/
def attach (e : Engine P) (identifier : String) (s : Surface) : Engine P :=
  { e with attachments := e.attachments.set s (e.attached s ++ [identifier]) }

/-- Detaches everything from a surface. -/
def detachAll (e : Engine P) (s : Surface) : Engine P :=
  { e with attachments := e.attachments.erase s }

theorem attached_attach (e : Engine P) (identifier : String) (s s' : Surface) :
    (e.attach identifier s).attached s' =
      if s' = s then e.attached s ++ [identifier] else e.attached s' := by
  simp only [attached, attach, Table.get?_set]
  split <;> simp

theorem attached_detachAll (e : Engine P) (s s' : Surface) :
    (e.detachAll s).attached s' = if s' = s then [] else e.attached s' := by
  simp only [attached, detachAll, Table.get?_erase]
  split <;> simp

/-! ### Requests -/

/-- What two payloads say together. The last one that blocks names the rule. -/
def combine (v w : Verdict) : Verdict where
  decision := if w.decision = .block then .block else v.decision
  rule := if w.decision = .block then w.rule else v.rule
  hidden := v.hidden ++ w.hidden
  https := v.https || w.https

/-- The verdict of the payloads attached to a surface. -/
def evaluate [PatternLanguage P] (e : Engine P) (s : Surface) (q : Request) : Verdict :=
  let compiled := (e.attached s).filterMap fun identifier => e.stored.get? identifier
  (compiled.map fun c => c.matcher.verdict q).foldl combine {}

end Engine

end ContentBlocking
