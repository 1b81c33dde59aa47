import ContentBlocking.Config
import ContentBlocking.Engine
import ContentBlocking.SessionId

/-!
# Failures

Why something that the service was asked for could not be done.

* `Failure` — the causes.
* `Failure.message` — what the user is told.
-/

namespace ContentBlocking

/-- Why something could not be done. -/
inductive Failure where
  | sourceUnavailable (list reason : String)
  | compileFailure (identifier : String) (cause : EngineError)
  /-- A file cannot be read or written. -/
  | persistence (path : String)
  /-- The text of a file does not denote what belongs there. -/
  | encoding (path : String)
  | invalidWhitelistInput (input : String)
  | invalidFilterListUrl (input : String)
  | unknownFilterList (id : String)
  | duplicateFilterList (url : String)
  | builtInListRemoval (id : String)
  | unknownSession (id : SessionId)
  | config (e : ConfigError)
  /-- The service does not run any more. -/
  | shutdown
  deriving Repr, DecidableEq

/-- What the user is told. -/
def Failure.message : Failure → String
  | .sourceUnavailable list reason => s!"Filter list '{list}' unavailable: {reason}"
  | .compileFailure identifier cause => s!"Compile failed for '{identifier}': {cause.message}"
  | .persistence path => s!"Failed to persist '{path}'"
  | .encoding path => s!"Failed to encode '{path}'"
  | .invalidWhitelistInput input => s!"Invalid whitelist entry: '{input}'"
  | .invalidFilterListUrl input => s!"Invalid filter list URL: '{input}'"
  | .unknownFilterList id => s!"Unknown filter list: '{id}'"
  | .duplicateFilterList url => s!"Filter list already registered: '{url}'"
  | .builtInListRemoval id => s!"Built-in filter list '{id}' cannot be removed"
  | .unknownSession id => s!"No pending block decision with id {id.text}"
  | .config e => s!"Invalid configuration: {e.message}"
  | .shutdown => "Content blocker has shut down"

end ContentBlocking
