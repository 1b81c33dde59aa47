import ContentBlocking.Compile.Collection
import ContentBlocking.Failure

/-!
# Compiling shards

The shards of a collection are compiled under numbered identifiers. Those that
fail are left out; the collection that stands in has an identifier of its own.

* `Engine.lookupAll` — artifacts of earlier compiles.
* `Engine.compileShards` — the artifacts of some shards.
* `Engine.compileMinimal` — the artifact of the collection that stands in.
-/

namespace ContentBlocking

/-- The identifier of the shard at a place. -/
def shardIdentifier (nameSpace : String) (index : Nat) : String :=
  nameSpace ++ "_" ++ toString index

namespace Engine

variable {P : Type}

/-- The artifacts that the engine holds under some identifiers; none unless it
    holds all, and there are any. -/
def lookupAll (e : Engine P) (identifiers : List String) : Option (List Artifact) :=
  if identifiers.isEmpty then none else identifiers.mapM e.lookup

variable [PatternLanguage P]

/-- Compiles the shards that stand at `index` and after. -/
def compileShardsFrom (e : Engine P) (nameSpace : String) (index : Nat) :
    List (List Rule) → Engine P × List Artifact
  | [] => (e, [])
  | shard :: rest =>
    let (e, result) := e.compile (shardIdentifier nameSpace index) (Payload.encode shard)
    let (e, artifacts) := e.compileShardsFrom nameSpace (index + 1) rest
    (e, result.toOption.toList ++ artifacts)

/-- Compiles shards, and gives the artifacts of those that did not fail in
    their order. -/
def compileShards (e : Engine P) (nameSpace : String) (shards : List (List Rule)) :
    Engine P × List Artifact :=
  e.compileShardsFrom nameSpace 0 shards

/-- Compiles the collection that stands in when no shard can be compiled. -/
def compileMinimal (e : Engine P) (excluded : List String) :
    Engine P × Except Failure Artifact :=
  let (e, result) := e.compile Config.fallbackIdentifier
    (Payload.encode (RuleCollection.minimal excluded))
  (e, result.mapError (.compileFailure Config.fallbackIdentifier))

end Engine

end ContentBlocking
