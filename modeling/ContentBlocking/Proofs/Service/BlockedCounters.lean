import ContentBlocking.Proofs.Service.SavedCounts

/-!
# Counts of blocked requests

The settings and the statistics are read at the start of every session, each in its own
way: the settings are written with a new session, the statistics only when they next
change. Yet the counts of blocked requests in both are the same in every state that the
service comes to from an empty data directory, if they could be written.

* `Service.Resumes`: the total that the next session begins with;
* `agrees_of_start`: the counts are the same when a session begins;
* `Service.Reaches`: the states of all sessions over a data directory;
* `blocked_counters_agree`: the counts there, and after the next start.
-/

namespace ContentBlocking

open Disk

namespace Service

/-! ### The start -/

/-- The settings can be written when a session begins. -/
def savesStart (config : Config) (d : Disk) : Bool :=
  let (settings, d) := SettingsStore.ofDisk d config.settingsPath
  (settings.update d Settings.startSession).2.2.isOk

/-- The next session begins with the total. -/
structure Resumes (config : Config) (total : UInt64) (d : Disk) : Prop where
  kept : KeepsTotal config.dataDir total d
  settings : (SettingsStore.ofDisk d config.settingsPath).1.settings.totalBlockedRequests = total

variable {config : Config} {around : Surroundings} {first : SessionId} {total : UInt64}
  {d : Disk} {s : Service}

/-- Nothing was blocked over an empty directory. -/
theorem resumes_of_isEmptyAt (h : d.IsEmptyAt config.dataDir) : Resumes config 0 d where
  kept := keepsTotal_of_isEmptyAt h
  settings := congrArg Settings.totalBlockedRequests
    (SettingsStore.settings_ofDisk (h.textAt (by decide)))

/-- What a session has left is enough for the total of the next one. -/
theorem Agrees.resumes (h : s.Agrees) (hhere : config.dataDir = s.config.dataDir) :
    Resumes config s.statistics.totalBlocked s.stop.disk := by
  have hread := readJson_of_read h.1.settings s.settings.settings.isPlain_toJson
    s.settings.settings.ofJson?_toJson
  have hpath : config.settingsPath = s.config.settingsPath := by
    rw [Config.settingsPath, hhere, ← Config.settingsPath]
  refine ⟨hhere ▸ h.1.total, ?_⟩
  rw [stop, hpath, SettingsStore.ofDisk, hread]
  exact h.2.total

/-- The totals are those of the files, and the session is a new one, whether or not that
    could be written. -/
theorem counts_of_start (h : Resumes config total around.disk)
    (hstart : start config around first = .ok s) :
    s.settings.settings.totalBlockedRequests = total ∧ s.statistics.totalBlocked = total ∧
      s.settings.settings.blockedRequestsThisSession = 0 ∧ s.statistics.sessionBlocked = 0 ∧
      KeepsTotal config.dataDir total s.disk ∧ ∀ l ∈ s.registry.lists, '/' ∉ l.id.toList := by
  rw [start] at hstart
  obtain ⟨config', hvalid, hstarted⟩ := exists_of_bind_eq_ok hstart
  obtain rfl := eq_of_validate hvalid
  obtain rfl := Except.ok.inj hstarted
  let opened := SettingsStore.ofDisk around.disk config'.settingsPath
  have hbegun : KeepsTotal config'.dataDir total
      (opened.1.change opened.2 ({ · with blockedRequestsThisSession := 0 })).2 := by
    rw [SettingsStore.change, SettingsStore.update, SettingsStore.save, path_ofDisk]
    exact h.kept.settings_ofDisk.writeSettings _
  have hlists := hbegun.lists_ofDisk around.urls
  exact ⟨h.settings, hlists.totalBlocked_ofDisk _ _, rfl, rfl, hlists, hbegun.slash_ofDisk _⟩

theorem agrees_of_start (h : Resumes config total around.disk)
    (hsaves : savesStart config around.disk = true) (hstart : start config around first = .ok s) :
    s.config = config ∧ s.Agrees := by
  obtain ⟨hinSettings, hinStatistics, hnew, hnew', hkept, hslash⟩ := counts_of_start h hstart
  rw [start] at hstart
  obtain ⟨config', hvalid, hstarted⟩ := exists_of_bind_eq_ok hstart
  obtain rfl := eq_of_validate hvalid
  obtain rfl := Except.ok.inj hstarted
  refine ⟨rfl, ?_, hinSettings.trans hinStatistics.symm, hnew.trans hnew'.symm⟩
  refine ⟨?_, rfl, ?_, ?_, ?_, ?_⟩
  · exact path_ofDisk around.disk config'.settingsPath
  · exact StatisticsTracker.isGood_ofDisk _ _ _ _
  · rintro id (hid | hid | ⟨g, r, hr, -⟩)
    · obtain ⟨l, hl, rfl⟩ := List.mem_map.1 hid
      exact hslash l hl
    · cases hid
    · cases hr
  · exact hinStatistics ▸ hkept
  · have helsewhere : Elsewhere (placeOf config'.settingsPath) config'.filterListsPath :=
      Config.elsewhere_of_mem (by decide) (by decide) (by decide)
    let opened := SettingsStore.ofDisk around.disk config'.settingsPath
    have hread : (opened.1.change opened.2 Settings.startSession).2.read opened.1.path =
        .ok (opened.1.settings.startSession).toJson.indented := SettingsStore.read_change hsaves
    rw [path_ofDisk] at hread
    exact (Registry.spares_save helsewhere _).read hread

/-! ### All sessions -/

/-- The service comes to this state over a data directory that was empty at first, in any
    number of sessions. Whenever it changed the settings or the counts, they could be
    written. -/
inductive Reaches (directory : String) : Service → Prop
  | first {config : Config} {around : Surroundings} {id : SessionId} {s : Service}
      (empty : around.disk.IsEmptyAt directory) (here : config.dataDir = directory)
      (started : start config around id = .ok s) (saves : savesStart config around.disk = true) :
      Reaches directory s
  | step {s : Service} (before : Reaches directory s) (event : Event)
      (saves : s.saves event = true) : Reaches directory (s.step event).1
  /-- The service is stopped and started again, with any engine and any shell. -/
  | restart {config : Config} {around : Surroundings} {id : SessionId} {s s' : Service}
      (before : Reaches directory s) (left : around.disk = s.stop.disk)
      (here : config.dataDir = directory) (started : start config around id = .ok s')
      (saves : savesStart config around.disk = true) : Reaches directory s'

variable {directory : String}

theorem Reaches.agrees (h : Reaches directory s) : s.config.dataDir = directory ∧ s.Agrees := by
  induction h with
  | first empty here started saves =>
    subst here
    obtain ⟨hconfig, hagrees⟩ := agrees_of_start (resumes_of_isEmptyAt empty) saves started
    exact ⟨congrArg Config.dataDir hconfig, hagrees⟩
  | step before event saves ih =>
    rw [config_step]
    exact ⟨ih.1, ih.2.step saves⟩
  | restart before left here started saves ih =>
    have hresumes := ih.2.resumes (here.trans ih.1.symm)
    obtain ⟨hconfig, hagrees⟩ := agrees_of_start (left ▸ hresumes) saves started
    exact ⟨hconfig ▸ here, hagrees⟩

/-- What all events change in the settings and in the counts can be written. -/
def savesAll (s : Service) : List Event → Bool
  | [] => true
  | event :: events => s.saves event && (s.step event).1.savesAll events

theorem Reaches.after (h : Reaches directory s) {events : List Event}
    (hsaves : s.savesAll events = true) : Reaches directory (s.after events) := by
  induction events generalizing s with
  | nil => exact h
  | cons event events ih =>
    obtain ⟨hfirst, hrest⟩ := Bool.and_eq_true_iff.1 hsaves
    exact ih (h.step event hfirst) hrest

/-- In every state that the service comes to, the settings and the statistics have the
    same total of blocked requests and the same count for the session. At the next start
    over the directory the totals are unchanged, and both sessions begin at zero. -/
theorem blocked_counters_agree (h : Reaches directory s) :
    s.settings.settings.totalBlockedRequests = s.statistics.totalBlocked ∧
    s.settings.settings.blockedRequestsThisSession = s.statistics.sessionBlocked ∧
    ∀ (config : Config) (around : Surroundings) (first : SessionId),
      config.validate = .ok config → config.dataDir = directory → around.disk = s.stop.disk →
      ∃ s', start config around first = .ok s' ∧
        s'.settings.settings.totalBlockedRequests = s.settings.settings.totalBlockedRequests ∧
        s'.statistics.totalBlocked = s.statistics.totalBlocked ∧
        s'.settings.settings.blockedRequestsThisSession = 0 ∧
        s'.statistics.sessionBlocked = 0 := by
  obtain ⟨hdirectory, hagrees⟩ := h.agrees
  refine ⟨hagrees.2.total, hagrees.2.session, fun config around first hvalid hhere hleft => ?_⟩
  obtain ⟨s', hstart⟩ := exists_start hvalid around first
  have hresumes := hagrees.resumes (hhere.trans hdirectory.symm)
  obtain ⟨hinSettings, hinStatistics, hnew, hnew', -⟩ := counts_of_start (hleft ▸ hresumes) hstart
  exact ⟨s', hstart, hinSettings.trans hagrees.2.total.symm, hinStatistics, hnew, hnew'⟩

/-- Two requests are blocked. -/
def blockedEvents : List Event :=
  [.command 1 (.recordBlocked "https://ads.example/a" none none),
    .command 2 (.recordBlocked "https://ads.example/b" none (some 1))]

theorem saves_blockedEvents : savesStart hereConfig {} = true ∧
    ∀ s ∈ (start hereConfig {} .nil).toOption, s.savesAll blockedEvents = true ∧
      (s.after blockedEvents).statistics.totalBlocked = 2 ∧
      (s.after blockedEvents).statistics.sessionBlocked = 2 := by
  decide +kernel

/-- They are counted, and the next session begins with the total. -/
theorem blocked_counters_agree_blockedEvents : ∃ s s', start hereConfig {} .nil = .ok s ∧
    (s.after blockedEvents).settings.settings.totalBlockedRequests = 2 ∧
    (s.after blockedEvents).settings.settings.blockedRequestsThisSession = 2 ∧
    start hereConfig (s.after blockedEvents).stop .nil = .ok s' ∧
    s'.settings.settings.totalBlockedRequests = 2 ∧ s'.statistics.totalBlocked = 2 ∧
    s'.settings.settings.blockedRequestsThisSession = 0 ∧ s'.statistics.sessionBlocked = 0 := by
  obtain ⟨s, hstart⟩ := exists_start (show hereConfig.validate = .ok hereConfig from rfl) {} .nil
  obtain ⟨hbegun, hsaves⟩ := saves_blockedEvents
  obtain ⟨hsaves, htotal, hsession⟩ := hsaves s (by rw [hstart]; rfl)
  have hempty : ({} : Disk).IsEmptyAt hereConfig.dataDir := isEmptyAt_of_entries rfl _
  have hreaches : Reaches hereConfig.dataDir s := .first hempty rfl hstart hbegun
  obtain ⟨hagree, hagree', hrestart⟩ := blocked_counters_agree (hreaches.after hsaves)
  obtain ⟨s', hstart', htotal', htotal'', hnew, hnew'⟩ :=
    hrestart hereConfig (s.after blockedEvents).stop .nil rfl rfl rfl
  exact ⟨s, s', hstart, hagree.trans htotal, hagree'.trans hsession, hstart',
    htotal'.trans (hagree.trans htotal), htotal''.trans htotal, hnew, hnew'⟩

end Service

end ContentBlocking
