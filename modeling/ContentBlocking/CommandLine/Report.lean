import ContentBlocking.Failure

/-!
# Reports

A command changes files and prints lines, and it may end with an error. What it
did before that stays done.

* `Line` — a line that a command prints.
* `Report` — what a command does.
* `CommandError` — why a command ends with an error.
-/

namespace ContentBlocking.CommandLine

/-- A line that a command prints. -/
inductive Line where
  | text (s : String)
  /-- How long the work took. -/
  | elapsed
  deriving Repr, DecidableEq

/-- The text of a line after work of so many tenths of a millisecond. -/
def Line.render (tenths : Nat) : Line → String
  | .text s => s
  | .elapsed => s!"  Time:     {tenths / 10}.{tenths % 10}ms"

/-- Why a command ends with an error. -/
inductive CommandError where
  | failure (e : Failure)
  | noInput
  | unreadable (path : String)
  /-- A new shard is refused when it is read back. -/
  | brokenShard (identifier : String) (r : Rejection)
  | directoryNotMade (path : String)
  | unwritable (path : String)
  /-- An artifact is refused; with its path if there may be others. -/
  | invalidArtifact (path : Option String) (r : Rejection)
  | unknownResourceType (name : String)
  | engineRefuses (path : String) (e : EngineError)
  deriving Repr, DecidableEq

/-- The message of the error. -/
def CommandError.message : CommandError → String
  | .failure e => e.message
  | .noInput => "No input files specified"
  | .unreadable path => s!"Failed to read '{path}'"
  | .brokenShard identifier r => s!"Generated shard '{identifier}' failed validation: {r.message}"
  | .directoryNotMade path => s!"Failed to create '{path}'"
  | .unwritable path => s!"Failed to write '{path}'"
  | .invalidArtifact (some path) r => s!"Invalid artifact '{path}': {r.message}"
  | .invalidArtifact none r => s!"Invalid artifact: {r.message}"
  | .unknownResourceType name => s!"Unknown resource type '{name}'"
  | .engineRefuses path e => s!"'{path}': {e.message}"

/-- What a command does: the files that it leaves, the lines that it prints,
    and the error with which it ends. -/
structure Report where
  disk : Disk
  lines : List Line := []
  error : Option CommandError := none
  deriving Repr, DecidableEq

namespace Report

/-- The error as the user is told of it. -/
def complaint (r : Report) : Option String := r.error.map fun e => s!"Error: {e.message}"

/-- The status with which the command ends. -/
def status (r : Report) : UInt32 := if r.error.isSome then 1 else 0

/-- What is done by a command that changes no file, and prints either lines or
    an error. -/
def ofLines (d : Disk) : Except CommandError (List String) → Report
  | .ok lines => { disk := d, lines := lines.map .text }
  | .error e => { disk := d, error := some e }

end Report

/-- The text of the file at a path. -/
def readText (d : Disk) (path : String) : Except CommandError String :=
  (d.read path).mapError fun _ => .unreadable path

end ContentBlocking.CommandLine
