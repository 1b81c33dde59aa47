import ContentBlocking.Compile.Collection
import ContentBlocking.Disk
import ContentBlocking.Toml.Reader

/-!
# Configuration

How the service is set up: where it keeps its files, how long a downloaded list
stays fresh, and how collections are compiled and cut into shards. What a
configuration file leaves out has a default, and what it says beyond that does
not count.

* `Config.parse` — the configuration that a text denotes.
* `Config.load` — the configuration in a file.
-/

namespace ContentBlocking

/-- Why a configuration is refused. -/
inductive ConfigError where
  | unreadable (path : String)
  | malformed
  | noRulesPerShard
  | noShards
  | reservedNamespace (name : String)
  deriving Repr, DecidableEq

/-- The message of the refusal. -/
def ConfigError.message : ConfigError → String
  | .unreadable path => s!"failed to read '{path}'"
  | .malformed => "failed to parse config TOML"
  | .noRulesPerShard => "max_rules_per_shard must be positive"
  | .noShards => "max_shards must be positive"
  | .reservedNamespace name => s!"artifact_namespace '{name}' is reserved or empty"

/-- How the service is set up. -/
structure Config where
  /-- The directory of all files. -/
  dataDir : String := "tabguard-data"
  /-- How many seconds a downloaded list stays fresh. -/
  cacheTtlSecs : Nat := 86400
  fetchTimeoutSecs : Nat := 30
  connectTimeoutSecs : Nat := 10
  maxRulesPerList : Nat := FilterText.defaultMaxRules
  maxRulesPerShard : Nat := 50000
  maxShards : Nat := 10
  /-- The first part of the identifiers of shards. -/
  artifactNamespace : String := "shard"
  whitelistExceptionRules : Bool := true
  /-- How long a surface runs without rules after the user has let a page
      pass. -/
  reattachDelayMs : Nat := 2000
  maxTrackedPages : Nat := 100
  /-- What a blocked request is taken to save when its size is not known. -/
  estimatedBlockedBytes : Nat := 20480
  deriving Repr, DecidableEq

namespace Config

/-- The identifier of the collection that stands in when no shard can be
    compiled. -/
def fallbackIdentifier : String := "minimal"

/-- A number of a configuration file, which must not be negative. -/
def nat? : Toml → Option Nat
  | .int n => if 0 ≤ n then some n.toNat else none
  | _ => none

/-- A text of a configuration file. -/
def str? : Toml → Option String
  | .str s => some s
  | _ => none

/-- A truth value of a configuration file. -/
def bool? : Toml → Option Bool
  | .bool b => some b
  | _ => none

/-- The value of a key with a default. -/
def getD? {α : Type} (fields : Toml.Fields) (key : String) (value? : Toml → Option α)
    (default : α) : Option α :=
  match fields.get? key with
  | some v => value? v
  | none => some default

/-- The configuration with the given members. -/
def ofFields? (fields : Toml.Fields) : Option Config := do
  let d : Config := {}
  some {
    dataDir := ← getD? fields "data_dir" str? d.dataDir
    cacheTtlSecs := ← getD? fields "cache_ttl_secs" nat? d.cacheTtlSecs
    fetchTimeoutSecs := ← getD? fields "fetch_timeout_secs" nat? d.fetchTimeoutSecs
    connectTimeoutSecs := ← getD? fields "connect_timeout_secs" nat? d.connectTimeoutSecs
    maxRulesPerList := ← getD? fields "max_rules_per_list" nat? d.maxRulesPerList
    maxRulesPerShard := ← getD? fields "max_rules_per_shard" nat? d.maxRulesPerShard
    maxShards := ← getD? fields "max_shards" nat? d.maxShards
    artifactNamespace := ← getD? fields "artifact_namespace" str? d.artifactNamespace
    whitelistExceptionRules :=
      ← getD? fields "whitelist_exception_rules" bool? d.whitelistExceptionRules
    reattachDelayMs := ← getD? fields "reattach_delay_ms" nat? d.reattachDelayMs
    maxTrackedPages := ← getD? fields "max_tracked_pages" nat? d.maxTrackedPages
    estimatedBlockedBytes := ← getD? fields "estimated_blocked_bytes" nat? d.estimatedBlockedBytes }

/-- Accepts a configuration with which shards can be made, and named so that
    none is taken for the collection that stands in. -/
def validate (c : Config) : Except ConfigError Config :=
  if c.maxRulesPerShard = 0 then .error .noRulesPerShard
  else if c.maxShards = 0 then .error .noShards
  else if c.artifactNamespace = "" ∨ c.artifactNamespace = fallbackIdentifier then
    .error (.reservedNamespace c.artifactNamespace)
  else .ok c

/-- The configuration that a text denotes. -/
def parse (text : String) : Except ConfigError Config :=
  match (Toml.parse? text).bind ofFields? with
  | some c => c.validate
  | none => .error .malformed

/-- The configuration in a file. -/
def load (d : Disk) (path : String) : Except ConfigError Config :=
  match d.read path with
  | .ok text => parse text
  | .error _ => .error (.unreadable path)

/-! ### Files -/

/-- The directory of the downloaded lists. -/
def cacheDir (c : Config) : String := Path.join c.dataDir "filter-cache"

def settingsPath (c : Config) : String := Path.join c.dataDir "settings.json"

def statisticsPath (c : Config) : String := Path.join c.dataDir "statistics.json"

def filterListsPath (c : Config) : String := Path.join c.dataDir "filter_lists.json"

/-- The file that names the artifacts in force. -/
def artifactsPath (c : Config) : String := Path.join c.dataDir "artifacts.json"

/-- How collections are compiled. -/
def compileOptions (c : Config) : CompileOptions :=
  ⟨c.maxRulesPerList, c.whitelistExceptionRules⟩

end Config

end ContentBlocking
