import ContentBlocking.Proofs.Service.IssuedRuns
import ContentBlocking.Proofs.Service.LateCompile

/-!
# Starts that find artifacts

The end of a run writes a manifest of its artifacts. When the service is started
again, the run of the first start-up finds the artifacts that the manifest names and
puts them in force as they are.

* `disk_finishWith`: what the end of a run leaves on the disk;
* `after_startUp_found`: the artifacts that a start-up finds are put in force.
-/

namespace ContentBlocking

namespace Service

variable {s : Service}

/-- The end of a run that has downloaded nothing leaves the manifest of its artifacts,
    unless later ones are in force. -/
theorem disk_finishWith {g : Nat} {output : RunOutput} (hrefreshed : output.refreshed = [])
    (hlatest : s.store.installedGeneration ≤ g) :
    (s.finishWith g (.ok output)).1.disk =
      ((Manifest.ofArtifacts g output.artifacts).save s.disk s.config.artifactsPath).1 := by
  have houtcome : (outcomeOf { s with runs := s.runs.erase g } g (.ok output)).1.disk =
      ((Manifest.ofArtifacts g output.artifacts).save s.disk s.config.artifactsPath).1 := by
    rw [outcomeOf, hrefreshed, markUpdated, List.foldl_nil, install, ArtifactStore.install,
      if_neg (Nat.not_lt.2 hlatest)]
  rw [finishWith]
  dsimp only
  split <;> exact houtcome

theorem disk_after_compile_finish {g : Nat} {r : CompileRun} {shards : List (List Rule)}
    (he : s.store.engine.IsReady) (hr : s.runs.get? g = some r) (hn : r.shards? = some shards)
    (hne : shards ≠ []) (hrefreshed : r.refreshed = [])
    (hlatest : s.store.installedGeneration ≤ g) :
    (s.after (toFinish g shards.length)).disk =
      ((Manifest.ofArtifacts g (shardArtifacts r.request.nameSpace shards)).save s.disk
        s.config.artifactsPath).1 := by
  obtain ⟨e, output, runs, hcompile, -, hending, hartifacts, hnone, -, -⟩ :=
    after_compileShards he hr hn hne
  rw [after_toFinish hending, hcompile, ← hartifacts]
  exact disk_finishWith (hnone.trans hrefreshed) hlatest

/-- The artifacts that the run of a first start-up finds are put in force. -/
theorem after_startUp_found {identifiers : List String} {artifacts : List Artifact}
    (hreuse : s.reusable = some identifiers)
    (hfound : s.store.engine.lookupAll identifiers = some artifacts)
    (hlatest : s.store.installedGeneration ≤ s.generation + 1) (t : Ticket) :
    let g := s.generation + 1
    let s' := s.after [.command t .startUp, .lookUp g, .finishRun g]
    s'.store.current = artifacts ∧ s'.store.installedGeneration = g := by
  intro g s'
  let started := { s with startedUp := true }.startRun s.reusable false (some ⟨t, .outcome⟩)
  obtain ⟨request, hrequest, hr⟩ : ∃ request : RunRequest, request.reuse = some identifiers ∧
      started.runs.get? g = some ⟨request, .waiting⟩ :=
    ⟨_, hreuse, (Table.get?_set _ _ _ _).trans (if_pos rfl)⟩
  have hafter : s' = ((started.lookUp g).finishRun g).1 := rfl
  have hreused : request.reused? started.store.engine =
      some { artifacts := artifacts, reused := true } := by
    have hfound : started.store.engine.lookupAll identifiers = some artifacts := hfound
    rw [RunRequest.reused?, hrequest, Option.bind_some, hfound, Option.map_some]
  rw [hafter, lookUp, changeRun, hr]
  dsimp only
  rw [CompileRun.lookUp]
  dsimp only
  rw [hreused, finishRun]
  dsimp only
  rw [Table.get?_set, if_pos rfl]
  exact (ends_finishWith _ g _).installed hlatest

/-- The service with another store and another reader of URLs. -/
def onStore (s : Service) (store : ArtifactStore) (urls : UrlReader) : Service :=
  { s with store := store, registry := { s.registry with urls := urls } }

/-- A start does not look at the engine and the shell, and reads no URLs. -/
theorem start_onStore {config : Config} {around : Surroundings} {first : SessionId}
    (h : start config around first = .ok s) (e : Engine) (shell : Shell) (urls : UrlReader) :
    start config { around with engine := e, shell := shell, urls := urls } first =
      .ok (s.onStore { engine := e, shell := shell } urls) := by
  rw [start] at h ⊢
  obtain ⟨config, hconfig, h⟩ := exists_of_bind_eq_ok h
  rw [hconfig]
  obtain rfl := Except.ok.inj h
  rfl

theorem handle_addToWhitelist_onStore (s : Service) (store : ArtifactStore) (urls : UrlReader)
    (t : Ticket) (entry : String) : ((s.onStore store urls).handle t (.addToWhitelist entry)).1 =
      (s.handle t (.addToWhitelist entry)).1.onStore store urls := by
  have hwhitelist : (s.onStore store urls).whitelist = s.whitelist := rfl
  simp only [handle, addToWhitelist, hwhitelist]
  rcases s.whitelist.add_cases entry with
    ⟨domain, -, -, hadd⟩ | ⟨domain, -, -, hadd⟩ | ⟨e, -, hadd⟩ <;> rw [hadd] <;> rfl

/-- A first start-up, before it comes to the engine. No list is to be had. -/
def startUpEvents : List Event := .command 1 .startUp :: findNoList 1

/-- The first start-up. -/
def coldEvents : List Event := startUpEvents ++ toFinish 1 1

/-- A domain comes on the whitelist before the start-up, whose run is the first to
    end. -/
def warmEvents : List Event :=
  [.command 1 (.addToWhitelist "example.com"), .command 2 .startUp, .lookUp 2, .finishRun 2]

/-- The engine is ready, and a run that has downloaded nothing is about to have a shard
    compiled. -/
def BeforeCold (s : Service) : Prop :=
  s.store.engine.failing = [] ∧ s.store.engine.ruleLimit = none ∧
    s.store.installedGeneration = 0 ∧ s.config = {} ∧
    s.runs.map (fun run => (run.1, shardLengths run.2, run.2.refreshed)) =
      [(1, some ("shard", [35]), [])]

instance (s : Service) : Decidable s.BeforeCold := inferInstanceAs (Decidable (_ ∧ _))

theorem beforeCold :
    ∀ s ∈ (start {} {} .nil).toOption, (s.after startUpEvents).BeforeCold := by
  decide +kernel

theorem whitelistAt_coldEvents :
    ∀ s ∈ (start {} {} .nil).toOption, s.whitelistAt 1 coldEvents = [] := by
  decide +kernel

theorem after_coldEvents {s₀ : Service} (hstart : start {} {} .nil = .ok s₀) :
    (s₀.after coldEvents).disk = ((Manifest.mk 1 ["shard_0"]).save (s₀.after startUpEvents).disk
        (Config.artifactsPath {})).1 ∧
      ∃ a, (s₀.after coldEvents).store.engine.lookup "shard_0" = some a := by
  obtain ⟨hfailing, hlimit, hinstalled, hconfig, hruns⟩ := beforeCold s₀ (by rw [hstart]; rfl)
  rw [coldEvents, after_append]
  generalize s₀.after startUpEvents = s at hfailing hlimit hinstalled hconfig hruns
  obtain ⟨run, hrun, heq⟩ := List.map_eq_singleton_iff.1 hruns
  obtain ⟨g, r⟩ := run
  obtain ⟨rfl, heq⟩ := Prod.mk.inj heq
  obtain ⟨hlengths, hrefreshed⟩ := Prod.mk.inj heq
  obtain ⟨hname, shard, hshard, -⟩ := exists_shard hlengths
  have hr : s.runs.get? 1 = some r := by
    rw [hrun]
    rfl
  have hdisk := disk_after_compile_finish ⟨hfailing, hlimit⟩ hr hshard (List.cons_ne_nil _ _)
    hrefreshed (by omega)
  obtain ⟨-, -, hlookup, -⟩ :=
    after_compile_finish ⟨hfailing, hlimit⟩ hr hshard (List.cons_ne_nil _ _)
  refine ⟨?_, (Compiled.ofRules "shard_0" shard).artifact, ?_⟩
  · rw [List.length_singleton] at hdisk
    rw [hdisk, hconfig, Manifest.ofArtifacts, identifiers_shardArtifacts, hname]
    rfl
  · have h := hlookup (Compiled.ofRules (shardIdentifier r.request.nameSpace 0) shard).artifact
      (List.mem_singleton_self _)
    rw [hname] at h
    exact h

/-- A run has been started for the whitelist, but the artifacts of an earlier start may
    be used again. -/
def BeforeWarm (s : Service) : Prop :=
  s.generation = 1 ∧ s.whitelist.domains = ["example.com"] ∧ s.reusable = some ["shard_0"]

instance (s : Service) : Decidable s.BeforeWarm := inferInstanceAs (Decidable (_ ∧ _))

theorem BeforeWarm.onStore (h : s.BeforeWarm) (store : ArtifactStore) (urls : UrlReader) :
    (s.onStore store urls).BeforeWarm := h

theorem beforeWarm : ∀ s ∈ (start {} {} .nil).toOption,
    ∀ s' ∈ (start {} { disk := ((Manifest.mk 1 ["shard_0"]).save (s.after startUpEvents).disk
        (Config.artifactsPath {})).1 } .nil).toOption,
      (s'.handle 1 (.addToWhitelist "example.com")).1.BeforeWarm := by
  decide +kernel

/-- The run of the start-up was issued after the domain came on the whitelist. -/
theorem after_warmEvents {a : Artifact} (hnone : s.generation = 0)
    (hinstalled : s.store.installedGeneration = 0)
    (hwarm : (s.handle 1 (.addToWhitelist "example.com")).1.BeforeWarm)
    (hlookup : s.store.engine.lookup "shard_0" = some a) :
    s.whitelistAt 2 warmEvents = ["example.com"] ∧ (s.after warmEvents).store.current = [a] ∧
      (s.after warmEvents).store.installedGeneration = 2 := by
  obtain ⟨hgeneration, hwhitelist, hreusable⟩ := hwarm
  have hstore : (s.handle 1 (.addToWhitelist "example.com")).1.store = s.store :=
    congrArg (·.store) (handle_addToWhitelist_onStore s s.store s.registry.urls 1 "example.com")
  have hissued : s.whitelistAt 2 warmEvents =
      (s.handle 1 (.addToWhitelist "example.com")).1.whitelist.domains := by
    have hadded : (s.step (.command 1 (.addToWhitelist "example.com"))).1.generation = 1 :=
      hgeneration
    rw [warmEvents, whitelistAt, if_neg (by omega), whitelistAt, if_neg (by omega), whitelistAt]
    exact if_pos (Nat.succ_le_succ (Nat.le_of_eq hadded.symm))
  have hafter : s.after warmEvents = (s.handle 1 (.addToWhitelist "example.com")).1.after
      [.command 2 .startUp, .lookUp 2, .finishRun 2] := rfl
  rw [hissued, hafter]
  generalize (s.handle 1 (.addToWhitelist "example.com")).1 = s'
    at hgeneration hwhitelist hreusable hstore
  have hfound : s'.store.engine.lookupAll ["shard_0"] = some [a] := by
    rw [hstore, Engine.lookupAll, List.isEmpty_cons, if_neg Bool.false_ne_true, List.mapM_cons,
      hlookup]
    rfl
  have h := after_startUp_found hreusable hfound (by rw [hstore, hinstalled]; exact Nat.zero_le _) 2
  rw [hgeneration] at h
  exact ⟨hwhitelist, h⟩

/-- The artifacts in force after the restart are those from before the domain came on
    the whitelist. -/
theorem exists_warm_start : ∃ s₀ s₁ a, start {} {} .nil = .ok s₀ ∧
    start {} (s₀.after coldEvents).stop .nil = .ok s₁ ∧
    s₁.whitelistAt 2 warmEvents = ["example.com"] ∧
    (s₁.after warmEvents).store.current = [a] ∧
    (s₁.after warmEvents).store.installedGeneration = 2 := by
  have hvalid : Config.validate {} = .ok {} := rfl
  obtain ⟨s₀, hstart₀⟩ := exists_start hvalid {} .nil
  obtain ⟨hdisk, a, hlookup⟩ := after_coldEvents hstart₀
  obtain ⟨s, hstart⟩ := exists_start hvalid { disk := (s₀.after coldEvents).disk } .nil
  have hwarm := beforeWarm s₀ (by rw [hstart₀]; rfl) s (by rw [← hdisk, hstart]; rfl)
  refine ⟨s₀, ?_⟩
  generalize s₀.after coldEvents = left at hlookup hstart
  -- The second start finds the engine as the first one left it.
  let store : ArtifactStore := { engine := left.store.engine, shell := left.store.shell }
  refine ⟨s.onStore store left.registry.urls, a, hstart₀,
    start_onStore hstart left.store.engine left.store.shell left.registry.urls, ?_⟩
  refine after_warmEvents (fresh_of_start hstart).generation rfl ?_ hlookup
  rw [handle_addToWhitelist_onStore]
  exact hwarm.onStore store left.registry.urls

end Service

end ContentBlocking
