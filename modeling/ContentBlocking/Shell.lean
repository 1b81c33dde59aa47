import ContentBlocking.Engine
import ContentBlocking.SessionId

/-!
# The shell

The shell shows pages on surfaces and asks the user about blocked ones. What it
was told is kept as a list of events.

* `ShellEvent` — what the shell is told.
* `Shell.tell` — tells it something.
-/

namespace ContentBlocking

/-- What the shell is told. -/
inductive ShellEvent where
  /-- Report failed navigations on the surface from now on. -/
  | observe (s : Surface)
  | unobserve (s : Surface)
  | navigate (s : Surface) (url : String)
  | goBack (s : Surface)
  | loadBlank (s : Surface)
  /-- Ask the user about a blocked page. -/
  | present (s : Surface) (id : SessionId)
  /-- Do not ask any more. -/
  | dismiss (s : Surface) (id : SessionId)
  deriving Repr, DecidableEq

/-- The shell. -/
structure Shell where
  /-- Surfaces have a page to go back to. -/
  hasHistory : Bool := false
  /-- What it was told, the latest last. -/
  events : List ShellEvent := []
  deriving Repr, DecidableEq

namespace Shell

/-- Tells the shell something. -/
def tell (shell : Shell) (event : ShellEvent) : Shell :=
  { shell with events := shell.events ++ [event] }

/-- Goes back on a surface, or shows a blank page if there is no page to go
    back to. -/
def leave (shell : Shell) (s : Surface) : Shell :=
  let shell := shell.tell (.goBack s)
  if shell.hasHistory then shell else shell.tell (.loadBlank s)

end Shell

end ContentBlocking
