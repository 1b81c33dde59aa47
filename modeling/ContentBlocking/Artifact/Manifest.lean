import ContentBlocking.Engine
import ContentBlocking.Persist

/-!
# The manifest

The manifest names the artifacts in force, so that a restart can use exactly
those again. It is written whenever artifacts are put in force.

* `Manifest.load`, `Manifest.save` — the manifest and its file.
-/

namespace ContentBlocking

/-- The artifacts in force, and the generation that they belong to. -/
structure Manifest where
  generation : Nat
  identifiers : List String
  deriving Repr, DecidableEq

namespace Manifest

/-- The manifest of some artifacts. -/
def ofArtifacts (generation : Nat) (artifacts : List Artifact) : Manifest :=
  ⟨generation, artifacts.map (·.identifier)⟩

/-- The manifest as a record. -/
def toJson (m : Manifest) : Json :=
  .obj [("generation", .nat m.generation), ("identifiers", .arr (m.identifiers.map .str))]

/-- The manifest that a record holds. -/
def ofJson? (j : Json) : Option Manifest := do
  let fields ← j.fields? ["generation", "identifiers"]
  some {
    generation := ← fields.get? "generation" Json.count?
    identifiers := ← fields.get? "identifiers" (Json.list? Json.str?) }

/-- The manifest in a file; none if there is none that can be used. -/
def load (d : Disk) (path : String) : Option Manifest :=
  match d.readJson path ofJson? with
  | .ok m => m
  | .error _ => none

/-- Writes the manifest to a file. -/
def save (m : Manifest) (d : Disk) (path : String) : Disk × Except Failure Unit :=
  d.writeJson path m.toJson

end Manifest

end ContentBlocking
