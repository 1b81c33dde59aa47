import ContentBlocking.Shell

/-!
# The artifacts in force

The store has the artifacts in force and knows the surfaces they apply to.
Applying them to a surface detaches everything else first, so that no surface
runs old and new artifacts together. A surface on which the user lets a page
pass is suspended: it runs nothing until the suspension is lifted, and a later
suspension replaces an earlier one.

* `ArtifactStore.install` — puts artifacts in force.
* `ArtifactStore.register`, `ArtifactStore.unregister` — the surfaces.
* `ArtifactStore.apply`, `ArtifactStore.detach` — what a surface runs.
* `ArtifactStore.suspend`, `ArtifactStore.resume` — pages that pass.
-/

namespace ContentBlocking

/-- The state of a surface that is registered. -/
inductive SurfaceState where
  /-- It runs nothing. -/
  | registered
  /-- It runs artifacts. -/
  | rulesApplied
  deriving Repr, DecidableEq

/-- The artifacts in force and the surfaces, with the engine and the shell that
    they work on. -/
structure ArtifactStore where
  engine : Engine := {}
  shell : Shell := {}
  /-- The artifacts in force. -/
  current : List Artifact := []
  /-- The generation that they belong to. -/
  installedGeneration : Nat := 0
  surfaces : Table Surface SurfaceState := []
  /-- The suspended surfaces, each with the number of its suspension. -/
  suspended : Table Surface Nat := []
  /-- The number of suspensions so far. -/
  suspensions : Nat := 0
  deriving Repr, DecidableEq

namespace ArtifactStore

/-- The state of a surface, if it is registered. -/
def surfaceState (st : ArtifactStore) (s : Surface) : Option SurfaceState := st.surfaces.get? s

/-- The surface is suspended. -/
def isSuspended (st : ArtifactStore) (s : Surface) : Bool := st.suspended.has s

/-- Tells the shell something. -/
def tell (st : ArtifactStore) (event : ShellEvent) : ArtifactStore :=
  { st with shell := st.shell.tell event }

/-! ### Surfaces -/

/-- Registers a surface; tells whether it was not registered before. -/
def register (st : ArtifactStore) (s : Surface) : ArtifactStore × Bool :=
  if st.surfaces.has s then (st, false)
  else
    let st := st.tell (.observe s)
    ({ st with surfaces := st.surfaces.set s .registered }, true)

/-- Forgets a surface; tells whether it was registered. -/
def unregister (st : ArtifactStore) (s : Surface) : ArtifactStore × Bool :=
  if st.surfaces.has s then
    let st := { st with
      surfaces := st.surfaces.erase s
      suspended := st.suspended.erase s
      engine := st.engine.detachAll s }
    (st.tell (.unobserve s), true)
  else (st, false)

/-! ### Rules -/

/-- Attaches the artifacts in force to a surface, in the place of whatever is
    attached there. -/
def attachCurrent (st : ArtifactStore) (s : Surface) : Engine :=
  st.current.foldl (fun e a => e.attach a.identifier s) (st.engine.detachAll s)

/-- Applies the artifacts in force to a surface; tells whether it is
    registered. -/
def apply (st : ArtifactStore) (s : Surface) : ArtifactStore × Bool :=
  if st.surfaces.has s then
    ({ st with engine := st.attachCurrent s, surfaces := st.surfaces.set s .rulesApplied }, true)
  else (st, false)

/-- The surfaces that are registered and not suspended. -/
def targets (st : ArtifactStore) : List Surface :=
  st.surfaces.keys.filter fun s => !st.isSuspended s

/-- Applies the artifacts in force to all surfaces that are not suspended; gives
    their number. -/
def applyAll (st : ArtifactStore) : ArtifactStore × Nat :=
  (st.targets.foldl (fun st s => (st.apply s).1) st, st.targets.length)

/-- Detaches everything from a surface; tells whether it is registered. -/
def detach (st : ArtifactStore) (s : Surface) : ArtifactStore × Bool :=
  if st.surfaces.has s then
    ({ st with engine := st.engine.detachAll s, surfaces := st.surfaces.set s .registered }, true)
  else (st, false)

/-- Detaches everything from all surfaces. -/
def detachAll (st : ArtifactStore) : ArtifactStore :=
  st.surfaces.keys.foldl (fun st s => (st.detach s).1) st

/-! ### Suspensions -/

/-- Detaches everything from a surface until its suspension is lifted; gives
    the number of the suspension if the surface is registered. -/
def suspend (st : ArtifactStore) (s : Surface) : ArtifactStore × Option Nat :=
  match st.detach s with
  | (st, false) => (st, none)
  | (st, true) =>
    let number := st.suspensions + 1
    ({ st with suspensions := number, suspended := st.suspended.set s number }, some number)

/-- Lifts a suspension; tells whether it is the one that the surface is in. -/
def resume (st : ArtifactStore) (s : Surface) (number : Nat) : ArtifactStore × Bool :=
  if st.suspended.get? s = some number then
    ({ st with suspended := st.suspended.erase s }, true)
  else (st, false)

/-! ### Artifacts -/

/-- Puts artifacts in force, unless those of a later generation are; tells
    whether that was done. -/
def install (st : ArtifactStore) (generation : Nat) (artifacts : List Artifact) :
    ArtifactStore × Bool :=
  if generation < st.installedGeneration then (st, false)
  else ({ st with installedGeneration := generation, current := artifacts }, true)

end ArtifactStore

end ContentBlocking
