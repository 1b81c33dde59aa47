import ContentBlocking.Artifact.Manifest
import ContentBlocking.Artifact.Store
import ContentBlocking.FilterList.Registry
import ContentBlocking.Service.Command
import ContentBlocking.Settings
import ContentBlocking.Statistics

/-!
# The service

The service keeps the artifacts in force in step with what the user has chosen.
It handles one thing at a time: a command of a client, a part of a run, or a
timer. Runs are numbered, and a run that ends after a later one was put in force
changes nothing there.

* `Service.start`, `Service.stop` — the service over files, engine and shell.
* `Service.handle` — a command.
* `Service.finishRun` — the end of a run.
* `Service.elapse` — the passing of time.
-/

namespace ContentBlocking

/-- A surface whose suspension is lifted at a time. -/
structure Reattachment where
  /-- The time, in milliseconds of the service's clock. -/
  due : Nat
  surface : Surface
  /-- The number of the suspension. -/
  number : Nat
  deriving Repr, DecidableEq

/-- What is there before and after the service. -/
structure Surroundings where
  disk : Disk := {}
  engine : Engine := {}
  shell : Shell := {}
  /-- How the URLs of lists are read. -/
  urls : UrlReader := Url.reader
  deriving Repr

/-- The service. -/
structure Service where
  config : Config
  disk : Disk
  store : ArtifactStore
  registry : Registry
  settings : SettingsStore
  whitelist : Whitelist
  statistics : StatisticsTracker
  decisions : BlockDecisions := {}
  /-- The identifier of the next decision. -/
  nextSession : SessionId
  /-- The number of the latest run. -/
  generation : Nat := 0
  /-- The first start-up has been asked for. -/
  startedUp : Bool := false
  /-- The clients that wait, by the runs they wait for. -/
  waiters : Table Nat Waiter := []
  /-- The runs in flight. -/
  runs : Table Nat CompileRun := []
  /-- The suspensions to be lifted, in the order of their times. -/
  reattachments : List Reattachment := []
  /-- The removed lists whose copies are still in the cache. -/
  evictions : List String := []
  /-- The time since the start, in milliseconds. -/
  clock : Nat := 0
  deriving Repr

namespace Service

/-! ### Start and stop -/

/-- Where the texts of the lists come from. -/
def source (s : Service) : ListSource := ⟨s.config.cacheDir, s.config.cacheTtlSecs⟩

/-- Blocking is on. -/
def isEnabled (s : Service) : Bool := s.settings.settings.isEnabled

/-- The service over some files, an engine and a shell; its decisions have
    identifiers from `firstSession` on. -/
def start (config : Config) (around : Surroundings) (firstSession : SessionId) :
    Except ConfigError Service := do
  let config ← config.validate
  let (settings, disk) := SettingsStore.ofDisk around.disk config.settingsPath
  -- Every start begins a session.
  let (settings, disk) := settings.change disk ({ · with blockedRequestsThisSession := 0 })
  let (registry, disk) := Registry.ofDisk disk config.filterListsPath around.urls
  .ok {
    config := config
    disk := disk
    store := { engine := around.engine, shell := around.shell }
    registry := registry
    settings := settings
    whitelist := Whitelist.ofEntries settings.settings.whitelistedDomains
    statistics := StatisticsTracker.ofDisk disk config.statisticsPath config.maxTrackedPages
      config.estimatedBlockedBytes.toUInt64
    nextSession := firstSession }

/-- What the service leaves behind. Runs in flight are abandoned. -/
def stop (s : Service) : Surroundings :=
  ⟨s.disk, s.store.engine, s.store.shell, s.registry.urls⟩

/-! ### Parts of commands -/

/-- Changes the settings. -/
def changeSettings (s : Service) (change : Settings → Settings) : Service :=
  let (settings, disk) := s.settings.change s.disk change
  { s with settings := settings, disk := disk }

/-- Writes the whitelist to the settings. -/
def saveWhitelist (s : Service) : Service :=
  s.changeSettings ({ · with whitelistedDomains := s.whitelist.domains })

/-- Starts a run, for which a client may wait. -/
def startRun (s : Service) (reuse : Option (List String)) (refresh : Bool)
    (waiter : Option Waiter) : Service :=
  let generation := s.generation + 1
  -- The run keeps to the lists and the whitelist as they are now.
  let request : RunRequest := {
    generation := generation
    lists := s.registry.enabled
    excluded := s.whitelist.domains
    refresh := refresh
    reuse := reuse
    options := s.config.compileOptions
    nameSpace := s.config.artifactNamespace
    maxRulesPerShard := s.config.maxRulesPerShard
    maxShards := s.config.maxShards }
  { s with
    generation := generation
    waiters := match waiter with
      | some w => s.waiters.set generation w
      | none => s.waiters
    runs := s.runs.set generation ⟨request, .waiting⟩ }

/-- Loads a page on a surface that runs nothing for a while. -/
def reload (s : Service) (surface : Surface) (url : String) : Service :=
  let (store, number) := s.store.suspend surface
  { s with
    store := store.tell (.navigate surface url)
    reattachments := match number with
      | some number =>
        s.reattachments ++ [⟨s.clock + s.config.reattachDelayMs, surface, number⟩]
      | none => s.reattachments }

/-- Puts a domain on the whitelist and starts a run. -/
def whitelistDomain (s : Service) (domain : String) (waiter : Option Waiter) : Service :=
  -- The run starts whether the domain is new or not.
  let s := match s.whitelist.add domain with
    | (whitelist, .ok (_, true)) => { s with whitelist := whitelist }.saveWhitelist
    | (whitelist, _) => { s with whitelist := whitelist }
  s.startRun none false waiter

/-- Carries out an effect of a decision; a run that it starts is waited for by
    `waiter`. -/
def perform (s : Service) (waiter : Option Waiter) : DecisionEffect → Service
  | .reload surface url => s.reload surface url
  | .present session => { s with store := s.store.tell (.present session.surface session.id) }
  | .dismiss id surface => { s with store := s.store.tell (.dismiss surface id) }
  | .whitelist domain => s.whitelistDomain domain waiter
  | .leave surface => { s with store := { s.store with shell := s.store.shell.leave surface } }

/-- Changes the decisions and carries out the effects one after the other. -/
def decide (s : Service) (waiter : Option Waiter)
    (change : BlockDecisions × List DecisionEffect) : Service :=
  change.2.foldl (fun s effect => s.perform waiter effect) { s with decisions := change.1 }

/-- Changes the decisions and carries out the effects, unless there was a
    failure. -/
def tryDecide (s : Service) (waiter : Option Waiter)
    (change : BlockDecisions × Except Failure (List DecisionEffect)) :
    Service × Except Failure Unit :=
  match change with
  | (decisions, .ok effects) => (s.decide waiter (decisions, effects), .ok ())
  | (decisions, .error e) => ({ s with decisions := decisions }, .error e)

/-! ### Commands -/

/-- The answer of a command that is done at once. -/
def replyOf : Except Failure Unit → Option Reply
  | .ok () => some .done
  | .error e => some (.failed e)

/-- The service with another whitelist, which is written if it has changed. -/
def setWhitelist (s : Service) (whitelist : Whitelist) (hasChanged : Bool) : Service :=
  let s := { s with whitelist := whitelist }
  if hasChanged then s.saveWhitelist else s

/-- Adds the domain that an entry names to the whitelist. -/
def addToWhitelist (s : Service) (entry : String) : Service × Except Failure Unit :=
  match s.whitelist.add entry with
  | (whitelist, .ok (_, isNew)) => (s.setWhitelist whitelist isNew, .ok ())
  | (whitelist, .error e) => (s.setWhitelist whitelist false, .error e)

/-- Removes the domain that an entry names from the whitelist. -/
def removeFromWhitelist (s : Service) (entry : String) : Service × Except Failure Unit :=
  match s.whitelist.remove entry with
  | (whitelist, .ok wasThere) => (s.setWhitelist whitelist wasThere, .ok ())
  | (whitelist, .error e) => (s.setWhitelist whitelist false, .error e)

/-- Enables or disables a list. -/
def setListEnabled (s : Service) (id : String) (enabled : Bool) :
    Service × Except Failure Unit :=
  let (registry, disk, result) := s.registry.setEnabled s.disk id enabled
  ({ s with registry := registry, disk := disk }, result.map fun _ => ())

/-- Adds a list; gives it. -/
def addList (s : Service) (name url : String) : Service × Except Failure FilterList :=
  let (registry, disk, result) := s.registry.add s.disk name url
  ({ s with registry := registry, disk := disk }, result)

/-- Removes a list, whose copy is to leave the cache. -/
def removeList (s : Service) (id : String) : Service × Except Failure Unit :=
  let (registry, disk, result) := s.registry.remove s.disk id
  let s := { s with registry := registry, disk := disk }
  match result with
  | .ok list => ({ s with evictions := s.evictions ++ [list.id] }, .ok ())
  | .error e => (s, .error e)

/-- Starts a run after a change, unless there was a failure; the client waits
    for the run. -/
def thenRun (t : Ticket) (changed : Service × Except Failure Unit) : Service × Option Reply :=
  match changed with
  | (s, .ok ()) => (s.startRun none false (some ⟨t, .outcome⟩), none)
  | (s, .error e) => (s, some (.failed e))

/-- The identifiers of the artifacts to be used again at the first start-up. -/
def reusable (s : Service) : Option (List String) :=
  if s.startedUp then none
  else (Manifest.load s.disk s.config.artifactsPath).map (·.identifiers)

/-- Turns blocking on or off. -/
def toggle (s : Service) : Service :=
  let enabled := !s.isEnabled
  let s := s.changeSettings ({ · with isEnabled := enabled })
  -- The rules apply again when the run that follows has ended.
  if enabled then s else { s with store := s.store.detachAll }

/-- Registers a surface, to which the artifacts in force apply if blocking is
    on. -/
def register (s : Service) (surface : Surface) : Service :=
  match s.store.register surface with
  | (store, true) =>
    if s.isEnabled && !store.current.isEmpty then { s with store := (store.apply surface).1 }
    else { s with store := store }
  -- What runs on a surface that was registered before stays.
  | (store, false) => { s with store := store }

/-- Forgets a surface and the decision that is pending on it. -/
def unregister (s : Service) (surface : Surface) : Service :=
  let s := s.decide none (s.decisions.close surface)
  { s with store := (s.store.unregister surface).1 }

/-- A navigation failed. -/
def reportBlock (s : Service) (surface : Surface) (url : String) (code : Int) : Service :=
  let s' := { s with nextSession := s.nextSession.next }
  s'.decide none (s.decisions.signal s.whitelist s.nextSession surface url code)

/-- Counts a blocked request in the statistics and in the settings. -/
def recordBlocked (s : Service) (url : String) (page : Option String) (size : Option UInt64) :
    Service :=
  let (statistics, disk) := (s.statistics.recordBlocked .wrapping s.disk url page size).run
  { s with statistics := statistics, disk := disk }.changeSettings fun settings =>
    { settings with
      totalBlockedRequests := settings.totalBlockedRequests + 1
      blockedRequestsThisSession := settings.blockedRequestsThisSession + 1 }

/-- Begins the counts of the session anew. -/
def resetSession (s : Service) : Service :=
  let (statistics, disk) := s.statistics.resetSession s.disk
  { s with statistics := statistics, disk := disk }.changeSettings
    ({ · with blockedRequestsThisSession := 0 })

/-- Handles a command. The client is answered at once, unless it waits for a
    run. -/
def handle (s : Service) (t : Ticket) : Command → Service × Option Reply
  | .startUp =>
    ({ s with startedUp := true }.startRun s.reusable false (some ⟨t, .outcome⟩), none)
  | .toggle => (s.toggle.startRun none false (some ⟨t, .enabled⟩), none)
  | .addToWhitelist entry => thenRun t (s.addToWhitelist entry)
  | .removeFromWhitelist entry => thenRun t (s.removeFromWhitelist entry)
  | .updateLists => (s.startRun none true (some ⟨t, .outcome⟩), none)
  | .setListEnabled id enabled => thenRun t (s.setListEnabled id enabled)
  | .addList name url =>
    match s.addList name url with
    | (s, .ok list) => (s.startRun none false (some ⟨t, .added list⟩), none)
    | (s, .error e) => (s, some (.failed e))
  | .removeList id => thenRun t (s.removeList id)
  | .register surface => (s.register surface, some .done)
  | .unregister surface => (s.unregister surface, some .done)
  | .reportBlock surface url code =>
    let s := s.reportBlock surface url code
    (s, some (.session (s.decisions.sessionOn? surface)))
  | .continueOnce id =>
    let (s, result) := s.tryDecide none (s.decisions.continueOnce id)
    (s, replyOf result)
  | .whitelistPermanently id =>
    -- The client waits for the run that the decision starts.
    match s.tryDecide (some ⟨t, .outcome⟩) (s.decisions.whitelistPermanently id) with
    | (s, .ok ()) => (s, none)
    | (s, .error e) => (s, some (.failed e))
  | .cancel id =>
    let (s, result) := s.tryDecide none (s.decisions.cancel id)
    (s, replyOf result)
  | .recordRequest =>
    let (statistics, disk) := (s.statistics.recordRequest .wrapping s.disk).run
    ({ s with statistics := statistics, disk := disk }, some .done)
  | .recordBlocked url page size => (s.recordBlocked url page size, some .done)
  | .recordPageLoad url =>
    let (statistics, disk) := s.statistics.recordPageLoad s.disk url
    ({ s with statistics := statistics, disk := disk }, some .done)
  | .resetSession => (s.resetSession, some .done)

/-! ### Runs -/

/-- Notes the times of downloads. -/
def markUpdated (s : Service) (refreshed : List (String × UInt64)) : Service :=
  refreshed.foldl (fun s (id, time) =>
    let (registry, disk) := s.registry.markUpdated s.disk id time
    { s with registry := registry, disk := disk }) s

/-- Puts the artifacts of a run in force, writes the manifest and applies them;
    tells whether that was done. -/
def install (s : Service) (generation : Nat) (artifacts : List Artifact) : Service × Bool :=
  match s.store.install generation artifacts with
  | (_, false) => (s, false)
  | (store, true) =>
    -- A manifest that cannot be written is let be.
    let (disk, _) := (Manifest.ofArtifacts generation artifacts).save s.disk s.config.artifactsPath
    let store := if s.isEnabled then store.applyAll.1 else store
    ({ s with store := store, disk := disk }, true)

/-- The end of a run. -/
def outcomeOf (s : Service) (generation : Nat) :
    Except Failure RunOutput → Service × Except Failure CompileOutcome
  | .error e => (s, .error e)
  | .ok output =>
    -- The downloads were made even if the artifacts come too late.
    let (s, installed) := (s.markUpdated output.refreshed).install generation output.artifacts
    (s, .ok {
      generation := generation
      installed := installed
      enabled := s.isEnabled
      artifacts := output.artifacts
      fallback := output.fallback
      reused := output.reused
      dropped := output.dropped })

/-- Ends a run with an output, and answers the client that waits for it. -/
def finishWith (s : Service) (generation : Nat) (output : Except Failure RunOutput) :
    Service × Option (Ticket × Reply) :=
  let (s, outcome) := { s with runs := s.runs.erase generation }.outcomeOf generation output
  match s.waiters.get? generation with
  | some w =>
    ({ s with waiters := s.waiters.erase generation }, some (w.ticket, w.awaited.reply outcome))
  | none => (s, none)

/-- Ends a run in flight, if its work is done. -/
def finishRun (s : Service) (generation : Nat) : Service × Option (Ticket × Reply) :=
  match s.runs.get? generation with
  | some ⟨_, .done output⟩ => s.finishWith generation output
  | _ => (s, none)

/-- Changes a run in flight. -/
def changeRun (s : Service) (generation : Nat) (change : CompileRun → CompileRun) : Service :=
  match s.runs.get? generation with
  | some r => { s with runs := s.runs.set generation (change r) }
  | none => s

/-- A run tries to use the artifacts of an earlier one. -/
def lookUp (s : Service) (generation : Nat) : Service :=
  s.changeRun generation (·.lookUp s.store.engine)

/-- A run serves a list from the cache or begins its download. -/
def beginList (s : Service) (generation : Nat) (now : UInt64) (i : Nat) : Service :=
  s.changeRun generation (·.beginList s.source s.disk now i)

/-- A run ends the download of a list. -/
def finishList (s : Service) (generation : Nat) (now : UInt64) (i : Nat) (reply : FetchReply) :
    Service :=
  match s.runs.get? generation with
  | some r =>
    let (disk, r) := r.finishList s.source s.disk now i reply
    { s with disk := disk, runs := s.runs.set generation r }
  | none => s

/-- A run plans its shards, or has the engine compile the next of them. -/
def compileRun (s : Service) (generation : Nat) : Service :=
  match s.runs.get? generation with
  | some r =>
    let (engine, r) := r.compile s.store.engine
    { s with store := { s.store with engine := engine }, runs := s.runs.set generation r }
  | none => s

/-! ### The passing of time -/

/-- Lifts a suspension if the surface is still in it; the artifacts in force
    apply to it again if blocking is on. -/
def reattach (s : Service) (surface : Surface) (number : Nat) : Service :=
  match s.store.resume surface number with
  | (store, true) =>
    { s with store := if s.isEnabled then (store.apply surface).1 else store }
  | (_, false) => s

/-- Lets time pass, and lifts the suspensions whose time has come. -/
def elapse (s : Service) (ms : Nat) : Service :=
  let clock := s.clock + ms
  let (due, later) := s.reattachments.partition fun r => r.due ≤ clock
  due.foldl (fun s r => s.reattach r.surface r.number)
    { s with clock := clock, reattachments := later }

/-- Removes the copy of a list that was removed. -/
def evict (s : Service) : Service :=
  match s.evictions with
  | [] => s
  | id :: rest => { s with evictions := rest, disk := s.source.evict s.disk id }

end Service

end ContentBlocking
