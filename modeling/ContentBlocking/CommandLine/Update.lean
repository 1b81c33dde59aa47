import ContentBlocking.CommandLine.Report
import ContentBlocking.Service.Progress

/-!
# Updates

The service is started on its files, asked to put artifacts in force, and
stopped again.

* `Update.report` — the whole update.
-/

namespace ContentBlocking.CommandLine

/-- An update, with what it needs to know of the world. -/
structure Update where
  /-- The file of the configuration; the default one has no file. -/
  config : Option String := none
  /-- All lists are downloaded. -/
  refresh : Bool := false
  /-- The time, in seconds. -/
  now : UInt64
  /-- What downloads give. -/
  fetch : String → FetchReply

namespace Update

/-- The configuration. -/
def configuration (path : Option String) (d : Disk) : Except ConfigError Config :=
  match path with
  | some path => Config.load d path
  | none => .ok {}

/-- The service over some files, with an engine that holds nothing. -/
def start (u : Update) (d : Disk) : Except ConfigError Service := do
  let config ← configuration u.config d
  Service.start config { disk := d } .nil

/-- Asks the service for a run and brings it to its end. -/
def run (u : Update) (s : Service) : Service × Except Failure CompileOutcome :=
  let (s, _) := s.handle 0 (if u.refresh then .updateLists else .startUp)
  let (s, answers) := (s.beginRuns u.now).endRuns u.now fun x => some (u.fetch x.url)
  match answers.lookup 0 with
  | some (.outcome o) => (s, .ok o)
  | some (.failed e) => (s, .error e)
  | _ => (s, .error .shutdown)

/-- An artifact in force. -/
def artifactLine (a : Artifact) : String :=
  s!"  {a.identifier} - {a.ruleCount} rules (fingerprint {a.fingerprint})"

/-- A list, marked if it is enabled, and the time of its last download. -/
def listLine (l : FilterList) : String :=
  let mark := if l.isEnabled then "x" else " "
  let updated := match l.lastUpdated with
    | some time => s!" (updated {time})"
    | none => ""
  s!"  [{mark}] {l.id} {l.name}{updated}"

/-- The end of a run, and the lists. -/
def lines (o : CompileOutcome) (lists : List FilterList) : List String :=
  s!"Generation {o.generation}:" :: o.artifacts.map artifactLine ++
  (if o.fallback then ["  every shard failed, minimal rules compiled"] else []) ++
  (if o.dropped = 0 then [] else [s!"  {o.dropped} rules dropped over the shard limit"]) ++
  "Filter lists:" :: lists.map listLine

/-- The whole update. -/
def report (u : Update) (d : Disk) : Report :=
  match u.start d with
  | .error e => .ofLines d (.error (.failure (.config e)))
  | .ok s =>
    let (s, result) := u.run s
    .ofLines s.disk ((result.map fun o => lines o s.registry.lists).mapError .failure)

/-- The files that an update works with, as far as a disk tells which they
    are. -/
def paths (config : Option String) (d : Disk) : List String :=
  config.toList ++ match configuration config d with
    | .error _ => []
    | .ok c =>
      let source : ListSource := ⟨c.cacheDir, c.cacheTtlSecs⟩
      let (registry, _) := Registry.ofDisk d c.filterListsPath Url.reader
      [c.settingsPath, c.statisticsPath, c.filterListsPath, c.artifactsPath] ++
        registry.lists.flatMap fun l => [source.textPath l.id, source.timePath l.id]

end Update

end ContentBlocking.CommandLine
