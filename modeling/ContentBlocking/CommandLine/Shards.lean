import ContentBlocking.Artifact.Compile
import ContentBlocking.CommandLine.Artifacts
import ContentBlocking.CommandLine.Invocation
import ContentBlocking.Compile.ShardPlan
import ContentBlocking.Whitelist

/-!
# Files of shards

Filter lists are compiled to a collection, and every shard of the collection
goes into a file of its own. A shard is read back before anything is written.

* `CompileRequest.plan` — what is to be written.
* `CompileRequest.write` — writes it.
* `CompileRequest.report` — both, and what is said of it.
-/

namespace ContentBlocking.CommandLine

/-- A shard to be written. -/
structure ShardFile where
  path : String
  ruleCount : Nat
  payload : String
  deriving Repr, DecidableEq

/-- The shards of a collection, and what it was made of. -/
structure ShardFiles where
  files : List ShardFile
  collection : RuleCollection
  /-- The rules for which there was no shard left. -/
  dropped : Nat
  deriving Repr, DecidableEq

namespace CompileRequest

/-! ### What is to be written -/

/-- The domains that the entries of the whitelist name. -/
def excluded (q : CompileRequest) : Except CommandError (List String) :=
  ((q.exclude.mapM Whitelist.domainOf).mapError .failure).map ascending

/-- The list in a file, which is called by the name of the file. -/
def listAt (d : Disk) (path : String) : Except CommandError ListText :=
  (readText d path).map fun text => ⟨(Path.stem? path).getD path, some text⟩

/-- The lists. -/
def lists (q : CompileRequest) (d : Disk) : Except CommandError (List ListText) :=
  if q.inputs.isEmpty then .error .noInput else q.inputs.mapM (listAt d)

/-- The file of the shard at a place, if that shard is good. -/
def shardFile (q : CompileRequest) (shard : List Rule) (index : Nat) :
    Except CommandError ShardFile :=
  let identifier := shardIdentifier q.nameSpace index
  let payload := Payload.encode shard
  match verify payload with
  | .ok _ => .ok ⟨Path.join q.output (identifier ++ ".json"), shard.length, payload⟩
  | .error r => .error (.brokenShard identifier r)

/-- What is to be written. -/
def plan (q : CompileRequest) (d : Disk) : Except CommandError ShardFiles := do
  let excluded ← q.excluded
  let lists ← q.lists d
  let collection := RuleCollection.compile {} lists excluded
  let plan := ShardPlan.ofRules collection.rules q.maxRulesPerShard q.maxShards
  let files ← plan.shards.zipIdx.mapM fun (shard, index) => q.shardFile shard index
  .ok ⟨files, collection, plan.dropped⟩

/-! ### Writing -/

/-- Writes files one after the other, up to the first that cannot be
    written. -/
def writeFiles (d : Disk) : List ShardFile → Disk × Option CommandError
  | [] => (d, none)
  | file :: rest =>
    match d.write file.path file.payload with
    | (d, true) => writeFiles d rest
    | (d, false) => (d, some (.unwritable file.path))

/-- Writes files to the directory of the shards, which is made first. -/
def write (q : CompileRequest) (d : Disk) (files : List ShardFile) : Disk × Option CommandError :=
  match d.makeDirs q.output with
  | (d, true) => writeFiles d files
  | (d, false) => (d, some (.directoryNotMade q.output))

/-! ### What is said -/

/-- What became of a list. -/
def listLine (l : ListReport) : Line :=
  let truncated := if l.truncated then " (truncated)" else ""
  .text s!"  [{l.id}] {l.rules} rules, {l.rejected} rejected{truncated}"

/-- A file that was written. -/
def fileLine (file : ShardFile) : Line :=
  .text s!"    {file.path} - {file.ruleCount} rules, {file.payload.utf8ByteSize} bytes"

/-- What was compiled and written. -/
def lines (q : CompileRequest) (shards : ShardFiles) : List Line :=
  let c := shards.collection
  .text s!"Compiled {q.inputs.length} filter lists to '{q.output}'" ::
    c.report.lists.map listLine ++
  [.text (s!"  Rules:    {c.rules.length} ({c.report.builtin} built-in, " ++
      s!"{c.exceptionCount} exceptions, dedupe removed {c.report.deduped})"),
    .text s!"  Shards:   {shards.files.length}"] ++
  shards.files.map fileLine ++
  (if shards.dropped = 0 then []
    else [.text s!"  Dropped:  {shards.dropped} rules over the shard limit"]) ++
  [.elapsed]

/-- Compiles lists to files. -/
def report (q : CompileRequest) (d : Disk) : Report :=
  match q.plan d with
  | .error e => { disk := d, error := some e }
  | .ok shards =>
    match q.write d shards.files with
    | (d, some e) => { disk := d, error := some e }
    | (d, none) => { disk := d, lines := q.lines shards }

end CompileRequest

end ContentBlocking.CommandLine
