import ContentBlocking.Proofs.Disk.Values
import ContentBlocking.Proofs.Disk.WholeWrites
import ContentBlocking.Proofs.Service.LatestRun
import ContentBlocking.Proofs.Service.OwnFiles

/-!
# The manifest on the disk

When artifacts are put in force their manifest is written, and from then on the file of
the manifest is left alone until others are put in force. So it names the artifacts in
force, unless it is also the file of a copy of a list.

* `Service.manifestsWritten`: the manifests could be written, and nobody else has
  changed the files;
* `Service.HoldsManifest`: the file holds the manifest of the artifacts in force;
* `latest_run_in_force`: what is in force, and what the file holds, whatever the order
  in which runs have ended.
-/

namespace ContentBlocking

open Disk

namespace Service

variable {s s' : Service}

/-! ### Settings of a service -/

theorem keptByParts_config (config : Config) : KeptByParts fun s => s.config = config where
  quiet _ _ hq h := hq.config.trans h
  startRun _ _ _ _ h := h
  reload _ _ _ h := h
  toggle s h := by
    rw [toggle]
    split <;> exact h
  register s surface h := by
    rw [register]
    split
    · split <;> exact h
    · exact h
  forget _ _ h := h

theorem config_reattach (s : Service) (surface : Surface) (number : Nat) :
    (s.reattach surface number).config = s.config := by
  rw [reattach]
  split <;> rfl

theorem config_step (s : Service) (event : Event) : (s.step event).1.config = s.config := by
  have hstep := s.stepped event
  generalize (s.step event).1 = s' at hstep ⊢
  cases hstep with
  | command t c => exact (keptByParts_config s.config).handle rfl t c
  | part g hpart => cases hpart <;> rfl
  | finish g r output before done =>
    obtain ⟨registry, disk, waiters, heq⟩ := s.finishWith_eq g output
    rw [heq]
  | lift clock due later pending =>
    exact lift_induction (P := (·.config = s.config))
      (s := { s with clock := clock, reattachments := later })
      (fun s' x number h => (s'.config_reattach x number).trans h) rfl due
  | around disk evictions failing => rfl

theorem config_after (s : Service) (events : List Event) : (s.after events).config = s.config :=
  after_induction (P := (·.config = s.config))
    (fun s' event h => (s'.config_step event).trans h) rfl events

/-! ### What is written -/

/-- The service when a run is over and its downloads are noted. -/
def note (s : Service) (g : Nat) (refreshed : List (String × UInt64)) : Service :=
  { s with runs := s.runs.erase g }.markUpdated refreshed

/-- If the event puts artifacts in force, their manifest can be written, and it is not
    that somebody else changes the files. -/
def writesManifest (s : Service) (event : Event) : Bool :=
  match event, s.ending? event with
  | .files _, _ => false
  | _, some ⟨g, .ok output⟩ =>
    g < s.store.installedGeneration ||
      ((Manifest.ofArtifacts g output.artifacts).save (s.note g output.refreshed).disk
        s.config.artifactsPath).2.isOk
  | _, _ => true

/-- All manifests could be written, and nobody else has changed the files. -/
def manifestsWritten (s : Service) : List Event → Bool
  | [] => true
  | event :: events => s.writesManifest event && (s.step event).1.manifestsWritten events

/-- The place of the manifest. -/
def manifestPlace (s : Service) : Place := placeOf s.config.artifactsPath

/-- The file of the manifest holds that of the artifacts in force. -/
def HoldsManifest (s : Service) : Prop :=
  s.disk.read s.config.artifactsPath =
    .ok (Manifest.ofArtifacts s.store.installedGeneration s.store.current).toJson.indented

theorem HoldsManifest.congr (h : s.HoldsManifest) (hconfig : s'.config = s.config)
    (hspares : Spares s.manifestPlace s.disk s'.disk)
    (hcurrent : s'.store.current = s.store.current)
    (hinstalled : s'.store.installedGeneration = s.store.installedGeneration) :
    s'.HoldsManifest := by
  rw [HoldsManifest, hconfig, hcurrent, hinstalled]
  exact hspares.read h

/-! ### The end of a run -/

theorem note_eq (s : Service) (g : Nat) (refreshed : List (String × UInt64)) : ∃ registry disk,
    s.note g refreshed = { s with runs := s.runs.erase g, registry := registry, disk := disk } :=
  markUpdated_eq _ refreshed

theorem Guards.note {place : Place} {d : Disk} (h : s.Guards place d) (g : Nat)
    (refreshed : List (String × UInt64)) : (s.note g refreshed).Guards place d :=
  (h.eraseRun g s.waiters).markUpdated refreshed

theorem finishWith_ok_eq (s : Service) (g : Nat) (output : RunOutput) : ∃ waiters,
    (s.finishWith g (.ok output)).1 =
      { ((s.note g output.refreshed).install g output.artifacts).1 with waiters := waiters } := by
  rw [finishWith]
  dsimp only [outcomeOf]
  split
  · exact ⟨_, rfl⟩
  · exact ⟨_, rfl⟩

theorem install_of_latest {g : Nat} (h : s.store.installedGeneration ≤ g)
    (artifacts : List Artifact) : ∃ store, (s.install g artifacts).1 = { s with
      store := store
      disk := ((Manifest.ofArtifacts g artifacts).save s.disk s.config.artifactsPath).1 } := by
  rw [install, ArtifactStore.install, if_neg (Nat.not_lt.2 h)]
  exact ⟨_, rfl⟩

theorem install_of_late {g : Nat} (h : g < s.store.installedGeneration)
    (artifacts : List Artifact) : (s.install g artifacts).1 = s := by
  rw [install, ArtifactStore.install, if_pos h]

/-- No other file of the service is in the way of its manifest, and once something is in
    force the file holds the manifest of that. -/
structure KeepsManifest (s : Service) : Prop where
  avoids : s.Avoids s.manifestPlace
  held : s.store.installedGeneration ≠ 0 → s.HoldsManifest

theorem KeepsManifest.congr (h : s.KeepsManifest) (hconfig : s'.config = s.config)
    (hguards : s'.Guards s.manifestPlace s.disk) (hcurrent : s'.store.current = s.store.current)
    (hinstalled : s'.store.installedGeneration = s.store.installedGeneration) :
    s'.KeepsManifest where
  avoids := by
    rw [manifestPlace, hconfig]
    exact hguards.1
  held hne := (h.held (hinstalled ▸ hne)).congr hconfig hguards.2 hcurrent hinstalled

theorem isOk_save (s : Service) {event : Event} {g : Nat} {output : RunOutput}
    (hending : s.ending? event = some ⟨g, .ok output⟩) (hw : s.writesManifest event = true)
    (hg : ¬g < s.store.installedGeneration) :
    ((Manifest.ofArtifacts g output.artifacts).save (s.note g output.refreshed).disk
      s.config.artifactsPath).2.isOk = true := by
  obtain ⟨rfl, -⟩ := ending?_eq_some.1 hending
  simpa [writesManifest, hending, hg] using hw

/-- When artifacts are put in force their manifest is written, and otherwise the file is
    left alone. -/
theorem KeepsManifest.finish (h : s.KeepsManifest) {event : Event} {g : Nat} {output : RunOutput}
    (hending : s.ending? event = some ⟨g, .ok output⟩) (hw : s.writesManifest event = true) :
    (s.step event).1.KeepsManifest := by
  have hguards : (s.note g output.refreshed).Guards s.manifestPlace s.disk :=
    Guards.note ⟨h.avoids, spares_refl s.manifestPlace s.disk⟩ g output.refreshed
  obtain ⟨registry, disk, hnote⟩ := s.note_eq g output.refreshed
  have hstore : (s.note g output.refreshed).store = s.store := by rw [hnote]
  have hconfig : (s.note g output.refreshed).config = s.config := by rw [hnote]
  have hends := s.ends_finishWith g output
  obtain ⟨waiters, heq⟩ := s.finishWith_ok_eq g output
  rw [step_of_ending? hending]
  by_cases hg : g < s.store.installedGeneration
  · obtain ⟨hcurrent, hinstalled⟩ := hends.discarded hg
    rw [install_of_late (hstore ▸ hg)] at heq
    rw [heq] at hcurrent hinstalled ⊢
    exact h.congr hconfig hguards hcurrent hinstalled
  · have hlatest := Nat.le_of_not_lt hg
    obtain ⟨hcurrent, hinstalled⟩ := hends.installed hlatest
    obtain ⟨store, hinstall⟩ := install_of_latest (hstore ▸ hlatest) output.artifacts
    rw [hinstall] at heq
    have hread := read_of_writeJson (s.isOk_save hending hw hg)
    refine ⟨?_, fun _ => ?_⟩
    · have havoids := hguards.1
      rw [manifestPlace, ← hconfig] at havoids
      rw [heq]
      exact havoids
    · rw [HoldsManifest, hinstalled, hcurrent, heq]
      dsimp only
      rw [hconfig]
      exact hread

theorem KeepsManifest.step (h : s.KeepsManifest) {event : Event}
    (hw : s.writesManifest event = true) : (s.step event).1.KeepsManifest := by
  have hguards : s.Guards s.manifestPlace s.disk :=
    ⟨h.avoids, spares_refl s.manifestPlace s.disk⟩
  cases hending : s.ending? event with
  | none =>
    obtain ⟨hcurrent, hinstalled⟩ := inForce_of_ending? hending
    refine h.congr (s.config_step event) (hguards.step hending fun disk hevent => ?_) hcurrent
      hinstalled
    subst hevent
    cases hw
  | some x =>
    obtain ⟨g, output⟩ := x
    cases output with
    | ok output => exact h.finish hending hw
    | error e =>
      obtain ⟨waiters, heq⟩ := s.finishWith_error g e
      rw [step_of_ending? hending, heq]
      exact h.congr rfl (hguards.eraseRun g waiters) rfl rfl

theorem KeepsManifest.after (h : s.KeepsManifest) {events : List Event}
    (hw : s.manifestsWritten events = true) : (s.after events).KeepsManifest := by
  induction events generalizing s with
  | nil => exact h
  | cons event events ih =>
    obtain ⟨hwrites, hrest⟩ := Bool.and_eq_true_iff.1 hw
    exact ih (h.step hwrites) hrest

/-! ### The start -/

/-- No copy of a list of the registry is at the place of the manifest. -/
def ListsElsewhere (s : Service) : Prop :=
  ∀ l ∈ s.registry.lists, s.source.Elsewhere s.manifestPlace l.id

theorem listsElsewhere_of_slash (h : ∀ l ∈ s.registry.lists, '/' ∉ l.id.toList) :
    s.ListsElsewhere :=
  fun l hl => s.config.elsewhere_of_slash s.config.cacheTtlSecs (h l hl) (by decide)

theorem path_ofDisk (d : Disk) (path : String) : (SettingsStore.ofDisk d path).1.path = path := by
  rw [SettingsStore.ofDisk]
  split <;> rfl

theorem keepsManifest_of_start {config : Config} {around : Surroundings} {first : SessionId}
    (h : start config around first = .ok s) (hlists : s.ListsElsewhere) : s.KeepsManifest := by
  have hinstalled : s.store.installedGeneration = 0 := by rw [(fresh_of_start h).store]
  refine ⟨?_, fun hne => absurd hinstalled hne⟩
  rw [start] at h
  obtain ⟨config, -, h⟩ := exists_of_bind_eq_ok h
  obtain rfl := Except.ok.inj h
  refine ⟨?_, fun url => ?_, fun id hid => ?_⟩
  · have hsettings := path_ofDisk around.disk config.settingsPath
    simp only [List.forall_mem_cons]
    refine ⟨?_, config.elsewhere_statisticsPath, config.elsewhere_filterListsPath, by simp⟩
    have helsewhere := config.elsewhere_settingsPath
    rw [← hsettings] at helsewhere
    exact helsewhere
  · exact config.elsewhere_of_slash _ (slash_not_mem_customId url) (by decide)
  · rcases hid with hid | hid | ⟨g, r, hr, -⟩
    · obtain ⟨l, hl, rfl⟩ := List.mem_map.1 hid
      exact hlists l hl
    · cases hid
    · cases hr

/-! ### All runs -/

/-- After any events the artifacts in force are those of the latest run that has
    succeeded, and nothing takes them back; a run that failed changes nothing there. So
    the order in which runs have ended does not matter. Once a run has succeeded, the
    file of the manifest holds that of the artifacts in force, if the manifests could be
    written and no copy of a list is at their place. -/
theorem latest_run_in_force {config : Config} {around : Surroundings} {first : SessionId}
    (hstart : start config around first = .ok s) :
    (∀ events, ((s.successes events).map (·.generation)).Nodup ∧
      Latest (s.successes events) (s.after events).store) ∧
    (∀ events rest, (s.after events).store.installedGeneration ≤
      (s.after (events ++ rest)).store.installedGeneration) ∧
    (∀ events event g e, (s.after events).ending? event = some ⟨g, .error e⟩ →
      (s.after (events ++ [event])).store = (s.after events).store ∧
        (s.after (events ++ [event])).disk = (s.after events).disk) ∧
    (∀ events events', (s.successes events).Perm (s.successes events') →
      (s.after events').store.current = (s.after events).store.current ∧
        (s.after events').store.installedGeneration =
          (s.after events).store.installedGeneration) ∧
    (s.ListsElsewhere → ∀ events, s.manifestsWritten events = true → s.successes events ≠ [] →
      (s.after events).HoldsManifest ∧
        ((s.after events).generation < UInt64.size →
          Manifest.load (s.after events).disk s.config.artifactsPath =
            some (.ofArtifacts (s.after events).store.installedGeneration
              (s.after events).store.current))) := by
  have hfresh := fresh_of_start hstart
  refine ⟨fun events => ⟨nodup_successes hfresh events, latest_after hfresh events⟩,
    fun events rest => ?_, fun events event g e hending => ?_, fun events events' hperm => ?_,
    fun hlists events hw hne => ?_⟩
  · rw [after_append]
    exact (s.after events).installedGeneration_le_after rest
  · obtain ⟨waiters, heq⟩ := (s.after events).finishWith_error g e
    have hstep : s.after (events ++ [event]) = ((s.after events).step event).1 :=
      s.after_append events [event]
    rw [hstep, step_of_ending? hending, heq]
    exact ⟨rfl, rfl⟩
  · exact (latest_after hfresh events).eq_of_perm (latest_after hfresh events') hperm
      (nodup_successes hfresh events)
  · have hkeeps := (keepsManifest_of_start hstart hlists).after hw
    -- The run whose artifacts are in force has ended, so it has a number.
    have hmem := (latest_after hfresh events).mem hne
    have hended := (s.generation_successes_sublist events).subset (List.mem_map_of_mem hmem)
    obtain ⟨hpos, hissued⟩ := (tally_after hfresh events).issued _ hended
    have hheld := hkeeps.held (Nat.pos_iff_ne_zero.1 hpos)
    refine ⟨hheld, fun hsize => ?_⟩
    rw [HoldsManifest, config_after] at hheld
    exact Manifest.load_of_read (Nat.lt_of_le_of_lt hissued hsize) hheld

/-- The files are in the working directory. -/
def hereConfig : Config := { dataDir := "" }

/-- The engine holds an artifact that may be used again. -/
def beforeReuse : Surroundings where
  disk := ((Manifest.mk 1 ["shard_0"]).save {} hereConfig.artifactsPath).1
  engine := (({} : Engine).compile "shard_0" "[]").1

/-- The artifact is put in force. -/
def reuseEvents : List Event := [.command 1 .startUp, .lookUp 1, .finishRun 1]

theorem held_reuseEvents : ∀ s ∈ (start hereConfig beforeReuse .nil).toOption,
    (∀ l ∈ s.registry.lists, '/' ∉ l.id.toList) ∧ s.manifestsWritten reuseEvents = true ∧
      (s.successes reuseEvents).isEmpty = false := by
  decide +kernel

theorem latest_run_in_force_reused : ∃ s, start hereConfig beforeReuse .nil = .ok s ∧
    Latest (s.successes reuseEvents) (s.after reuseEvents).store ∧
      s.successes reuseEvents ≠ [] ∧ (s.after reuseEvents).HoldsManifest := by
  obtain ⟨s, hstart⟩ :=
    exists_start (show hereConfig.validate = .ok hereConfig from rfl) beforeReuse .nil
  obtain ⟨hslash, hw, hsome⟩ := held_reuseEvents s (by rw [hstart]; rfl)
  obtain ⟨hlatest, -, -, -, hmanifest⟩ := latest_run_in_force hstart
  have hne : s.successes reuseEvents ≠ [] := List.isEmpty_eq_false_iff.1 hsome
  exact ⟨s, hstart, (hlatest reuseEvents).2, hne,
    (hmanifest (listsElsewhere_of_slash hslash) reuseEvents hw hne).1⟩

/-- The file of the registry has a list whose copy leaves the cache. -/
def beforeStray : Surroundings where
  disk := (Registry.mk hereConfig.filterListsPath
    [⟨"../artifacts", "", "", false, true, none⟩] Url.reader).save beforeReuse.disk
  engine := beforeReuse.engine

/-- When the artifact is in force, the list is downloaded for a run that fails. -/
def strayEvents : List Event := reuseEvents ++
  [.fail ["shard_0", "minimal"], .command 2 .updateLists] ++ findNoList 2 ++
    [.beginList 2 0 2, .finishList 2 0 2 (.ok "")] ++ toFinish 2 1

instance (s : Service) : Decidable s.HoldsManifest := inferInstanceAs (Decidable (_ = _))

theorem strays_strayEvents : ∀ s ∈ (start hereConfig beforeStray .nil).toOption,
    s.manifestsWritten strayEvents = true ∧
      (s.successes strayEvents).map (·.generation) = [1] ∧
      (s.after strayEvents).runs.isEmpty = true ∧ ¬(s.after strayEvents).HoldsManifest := by
  decide +kernel

/-- The copy of a list may take the place of the manifest, although that was written when
    artifacts were put in force. -/
theorem not_forall_holdsManifest : ¬∀ (config : Config) (around : Surroundings)
    (first : SessionId) (s : Service) (events : List Event),
    start config around first = .ok s → s.manifestsWritten events = true →
      s.successes events ≠ [] → (s.after events).HoldsManifest := by
  intro hall
  obtain ⟨s, hstart⟩ :=
    exists_start (show hereConfig.validate = .ok hereConfig from rfl) beforeStray .nil
  obtain ⟨hw, hone, -, hnot⟩ := strays_strayEvents s (by rw [hstart]; rfl)
  have hne : s.successes strayEvents ≠ [] := fun hnil => by rw [hnil] at hone; cases hone
  exact hnot (hall hereConfig beforeStray .nil s strayEvents hstart hw hne)

end Service

end ContentBlocking
