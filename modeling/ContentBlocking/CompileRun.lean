import ContentBlocking.Artifact.Compile
import ContentBlocking.Compile.ShardPlan
import ContentBlocking.FilterList.Source

/-!
# Runs

A run gets the texts of the filter lists, compiles the collection, cuts it into
shards and has the engine compile those. A list that cannot be had is left out,
and when no shard can be compiled the collection that stands in is compiled
instead. A run may first try to use artifacts of an earlier one.

* `RunRequest` — what a run is asked for, with the parts of its work.
* `RunRequest.run` — a run that nothing interrupts.
* `CompileRun` — a run whose parts are done one by one, while other things
  happen.
-/

namespace ContentBlocking

/-- What a run is asked for. -/
structure RunRequest where
  generation : Nat
  lists : List FilterList
  /-- The domains on the whitelist. -/
  excluded : List String
  /-- Lists are downloaded even if their copies are fresh. -/
  refresh : Bool := false
  /-- The identifiers of artifacts that may be used again. -/
  reuse : Option (List String) := none
  options : CompileOptions
  /-- The first part of the identifiers of shards. -/
  nameSpace : String
  maxRulesPerShard : Nat
  maxShards : Nat
  deriving Repr, DecidableEq

/-- What a run gives. -/
structure RunOutput where
  artifacts : List Artifact
  /-- No shard could be compiled. -/
  fallback : Bool := false
  /-- The artifacts are those of an earlier run. -/
  reused : Bool := false
  /-- The rules for which there was no shard left. -/
  dropped : Nat := 0
  report : Option CompileReport := none
  /-- The lists that were downloaded, with the time of the download. -/
  refreshed : List (String × UInt64) := []
  deriving Repr, DecidableEq

/-- What became of the loading of a list. -/
abbrev ListResult := Except Failure FetchedList

namespace RunRequest

/-! ### The parts of a run -/

/-- The output of a run that uses the artifacts of an earlier one. -/
def reused? (q : RunRequest) (e : Engine) : Option RunOutput :=
  (q.reuse.bind e.lookupAll).map fun artifacts => { artifacts := artifacts, reused := true }

/-- The text of a list after it was loaded. -/
def textOf (list : FilterList) (result : ListResult) : ListText :=
  ⟨list.id, result.toOption.map (·.text)⟩

/-- The lists that were downloaded. -/
def refreshed (q : RunRequest) (results : List ListResult) : List (String × UInt64) :=
  (q.lists.zip results).filterMap fun (list, result) =>
    match result with
    | .ok fetched => if fetched.fromCache then none else some (list.id, fetched.timestamp)
    | .error _ => none

/-- The collection of the lists after they were loaded. -/
def collection (q : RunRequest) (results : List ListResult) : RuleCollection :=
  RuleCollection.compile q.options (q.lists.zipWith textOf results) q.excluded

/-- The shards of the collection. -/
def plan (q : RunRequest) (results : List ListResult) : ShardPlan :=
  ShardPlan.ofRules (q.collection results).rules q.maxRulesPerShard q.maxShards

/-- The output of a run whose lists were loaded, before a shard is compiled. -/
def planned (q : RunRequest) (results : List ListResult) (plan : ShardPlan) : RunOutput where
  artifacts := []
  dropped := plan.dropped
  report := some (q.collection results).report
  refreshed := q.refreshed results

/-- The output of a run when all shards were compiled. Without any artifact it is
    that of the collection that stands in. -/
def complete (q : RunRequest) (e : Engine) (output : RunOutput) :
    Engine × Except Failure RunOutput :=
  if output.artifacts.isEmpty then
    let (e, minimal) := e.compileMinimal q.excluded
    (e, minimal.map fun a => { output with artifacts := [a], fallback := true })
  else (e, .ok output)

/-- The output of a run whose lists were loaded, when nothing comes between its
    shards. -/
def compile (q : RunRequest) (e : Engine) (results : List ListResult) :
    Engine × Except Failure RunOutput :=
  let plan := q.plan results
  let (e, artifacts) := e.compileShards q.nameSpace plan.shards
  q.complete e { q.planned results plan with artifacts := artifacts }

/-! ### A run that nothing interrupts -/

/-- Serves the lists from the cache as far as that will do. -/
def beginLists (q : RunRequest) (source : ListSource) (d : Disk) (now : UInt64) :
    List ListSource.Loading :=
  q.lists.map fun list => source.begin d now q.refresh list.id

/-- Downloads the lists that are not served yet. -/
def finishLists (source : ListSource) (now : UInt64) (fetch : String → FetchReply) (d : Disk) :
    List (FilterList × ListSource.Loading) → Disk × List ListResult
  | [] => (d, [])
  | (_, .served list) :: rest =>
    let (d, results) := finishLists source now fetch d rest
    (d, .ok list :: results)
  | (list, .fetching copy) :: rest =>
    let (d, result) := source.finish d now list.id copy (fetch list.url)
    let (d, results) := finishLists source now fetch d rest
    (d, result :: results)

/-- The whole run when downloads give these replies. -/
def run (q : RunRequest) (source : ListSource) (now : UInt64) (fetch : String → FetchReply)
    (d : Disk) (e : Engine) : Disk × Engine × Except Failure RunOutput :=
  match q.reused? e with
  | some output => (d, e, .ok output)
  | none =>
    let (d, results) := finishLists source now fetch d
      (q.lists.zip (q.beginLists source d now))
    let (e, output) := q.compile e results
    (d, e, output)

end RunRequest

/-! ### A run in parts -/

/-- How far the loading of a list is. -/
inductive ListStage where
  | waiting
  | fetching (copy : Option FetchedList)
  | loaded (result : ListResult)
  deriving Repr

/-- How far a run is. -/
inductive RunStage where
  | waiting
  | loading (lists : List ListStage)
  /-- The shards that are left are to be compiled, the first of them as the one at
      `index`. The output has the artifacts so far. -/
  | compiling (index : Nat) (left : List (List Rule)) (output : RunOutput)
  | done (output : Except Failure RunOutput)
  deriving Repr

/-- A run in flight. -/
structure CompileRun where
  request : RunRequest
  stage : RunStage := .waiting
  deriving Repr

namespace CompileRun

/-- The results of all lists, once they are loaded. -/
def results? (stages : List ListStage) : Option (List ListResult) :=
  stages.mapM fun
    | .loaded result => some result
    | _ => none

/-- Tries to use the artifacts of an earlier run. -/
def lookUp (r : CompileRun) (e : Engine) : CompileRun :=
  match r.stage with
  | .waiting =>
    match r.request.reused? e with
    | some output => { r with stage := .done (.ok output) }
    | none => { r with stage := .loading (r.request.lists.map fun _ => .waiting) }
  | _ => r

/-- Serves a list from the cache or begins its download. -/
def beginList (r : CompileRun) (source : ListSource) (d : Disk) (now : UInt64) (i : Nat) :
    CompileRun :=
  match r.stage, r.request.lists[i]? with
  | .loading stages, some list =>
    match stages[i]? with
    | some .waiting =>
      let stage := match source.begin d now r.request.refresh list.id with
        | .served fetched => .loaded (.ok fetched)
        | .fetching copy => .fetching copy
      { r with stage := .loading (stages.set i stage) }
    | _ => r
  | _, _ => r

/-- Ends the download of a list. -/
def finishList (r : CompileRun) (source : ListSource) (d : Disk) (now : UInt64) (i : Nat)
    (reply : FetchReply) : Disk × CompileRun :=
  match r.stage, r.request.lists[i]? with
  | .loading stages, some list =>
    match stages[i]? with
    | some (.fetching copy) =>
      let (d, result) := source.finish d now list.id copy reply
      (d, { r with stage := .loading (stages.set i (.loaded result)) })
    | _ => (d, r)
  | _, _ => (d, r)

/-- Plans the shards once all lists are loaded, or has the engine compile the next
    shard, or completes the output after the last one. -/
def compile (r : CompileRun) (e : Engine) : Engine × CompileRun :=
  match r.stage with
  | .loading stages =>
    match results? stages with
    | some results =>
      let plan := r.request.plan results
      (e, { r with stage := .compiling 0 plan.shards (r.request.planned results plan) })
    | none => (e, r)
  | .compiling index (shard :: left) output =>
    let (e, result) :=
      e.compile (shardIdentifier r.request.nameSpace index) (Payload.encode shard)
    let artifacts := output.artifacts ++ result.toOption.toList
    (e, { r with stage := .compiling (index + 1) left { output with artifacts := artifacts } })
  | .compiling _ [] output =>
    let (e, output) := r.request.complete e output
    (e, { r with stage := .done output })
  | _ => (e, r)

/-- The number of parts that are left of a run whose shards are planned. -/
def partsLeft (r : CompileRun) : Nat :=
  match r.stage with
  | .compiling _ left _ => left.length + 1
  | _ => 0

end CompileRun

end ContentBlocking
