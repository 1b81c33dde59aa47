import ContentBlocking.Proofs.Disk.DataDirectory
import ContentBlocking.Proofs.Service.LastingDomains
import ContentBlocking.Proofs.Service.ManifestFile

/-!
# Counts that are saved

Blocked requests are counted in the settings and in the statistics. Each store has a file
of its own, adds and starts afresh by itself. If both can be written whenever they change,
their counts stay the same, and so do those in the files.

* `Service.saves`: what an event changes in the settings and in the counts is written;
* `Service.Agrees`: the counts are the same, and the files have them;
* `Agrees.handle`, `Agrees.step`: so they stay.
-/

namespace ContentBlocking

open Disk

/-- One more blocked request in the settings. -/
def Settings.countBlocked (s : Settings) : Settings :=
  { s with
    totalBlockedRequests := s.totalBlockedRequests + 1
    blockedRequestsThisSession := s.blockedRequestsThisSession + 1 }

/-- A new session in the settings. -/
def Settings.startSession (s : Settings) : Settings := { s with blockedRequestsThisSession := 0 }

namespace Service

/-! ### What is written -/

/-- The settings can be written after the change. -/
def savesSettings (s : Service) (change : Settings → Settings) : Bool :=
  (s.settings.update s.disk change).2.2.isOk

/-- The counts can be written. -/
def savesCounts (s : Service) (t : StatisticsTracker) : Bool :=
  (s.disk.writeJson t.path t.snapshot.toJson).2.isOk

/-- The counts can be written, and then the settings after the change. -/
def savesBoth (s : Service) (t : StatisticsTracker) (change : Settings → Settings) : Bool :=
  s.savesCounts t && { s with disk := t.save s.disk }.savesSettings change

/-- The whitelist can be written. -/
def savesWhitelist (s : Service) (whitelist : Whitelist) : Bool :=
  s.savesSettings ({ · with whitelistedDomains := whitelist.domains })

/-- If the domain is new on the whitelist, that can be written. -/
def savesDomain (s : Service) (domain : String) : Bool :=
  match s.whitelist.add domain with
  | (whitelist, .ok (_, true)) => s.savesWhitelist whitelist
  | _ => true

/-- What the command changes in the settings and in the counts can be written. -/
def savesCommand (s : Service) : Command → Bool
  | .toggle => s.savesSettings ({ · with isEnabled := !s.isEnabled })
  | .addToWhitelist entry => s.savesDomain entry
  | .removeFromWhitelist entry =>
    match s.whitelist.remove entry with
    | (whitelist, .ok true) => s.savesWhitelist whitelist
    | _ => true
  | .whitelistPermanently id =>
    match (s.decisions.whitelistPermanently id).2 with
    | .ok effects => effects.all fun
      | .whitelist domain => s.savesDomain domain
      | _ => true
    | .error _ => true
  | .recordRequest => s.savesCounts (s.statistics.countRequest .wrapping).run
  | .recordBlocked url page size =>
    s.savesBoth (s.statistics.countBlocked .wrapping url page size).run Settings.countBlocked
  | .recordPageLoad url => s.savesCounts (s.statistics.countPageLoad url)
  | .resetSession => s.savesBoth s.statistics.startSession Settings.startSession
  | _ => true

/-- What the event changes in the settings and in the counts can be written, and nobody
    else changes the files. -/
def saves (s : Service) : Event → Bool
  | .command _ c => s.savesCommand c
  | .files _ => false
  | _ => true

/-! ### What the files have -/

/-- The files have the settings and the total of the counts, and no copy of a list can be
    in their way. -/
structure Keeps (config : Config) (d : Disk) (settings : SettingsStore) (t : StatisticsTracker)
    (registry : Registry) (caches : String → Prop) : Prop where
  settingsPath : settings.path = config.settingsPath
  registryPath : registry.path = config.filterListsPath
  good : t.IsGood config.statisticsPath
  slash : ∀ id, caches id → '/' ∉ id.toList
  total : KeepsTotal config.dataDir t.totalBlocked d
  settings : d.read config.settingsPath = .ok settings.settings.toJson.indented

/-- The settings and the counts have the same numbers. -/
structure Matches (settings : SettingsStore) (t : StatisticsTracker) : Prop where
  total : settings.settings.totalBlockedRequests = t.totalBlocked
  session : settings.settings.blockedRequestsThisSession = t.sessionBlocked

/-- The numbers are the same, and the files have them. -/
def Agrees (s : Service) : Prop :=
  Keeps s.config s.disk s.settings s.statistics s.registry s.Caches ∧
    Matches s.settings s.statistics

variable {config : Config} {d : Disk} {settings : SettingsStore} {t t' : StatisticsTracker}
  {registry : Registry} {caches : String → Prop} {s s' : Service}

theorem Keeps.change (h : Keeps config d settings t registry caches) {change : Settings → Settings}
    (hsaves : (settings.update d change).2.2.isOk = true) :
    Keeps config (settings.change d change).2 (settings.change d change).1 t registry caches where
  settingsPath := h.settingsPath
  registryPath := h.registryPath
  good := h.good
  slash := h.slash
  total := by
    have hwritten := h.total.writeSettings (change settings.settings).toJson
    rw [← Config.settingsPath, ← h.settingsPath] at hwritten
    exact hwritten
  settings := h.settingsPath ▸ SettingsStore.read_change hsaves

theorem Keeps.save (h : Keeps config d settings t registry caches)
    (hgood : t'.IsGood config.statisticsPath)
    (hsaves : (d.writeJson t'.path t'.snapshot.toJson).2.isOk = true) :
    Keeps config (t'.save d) settings t' registry caches where
  settingsPath := h.settingsPath
  registryPath := h.registryPath
  good := hgood
  slash := h.slash
  total := h.total.writeCounts hgood hsaves
  settings := by
    have helsewhere : Elsewhere (placeOf config.settingsPath) t'.path :=
      hgood.path ▸ Config.elsewhere_of_mem (by decide) (by decide) (by decide)
    exact (StatisticsTracker.spares_save helsewhere d).read h.settings

namespace Agrees

/-! ### Parts of steps -/

/-- The settings and the counts are as before, and their files are left alone. -/
theorem congr (h : s.Agrees) (hconfig : s'.config = s.config) (hsettings : s'.settings = s.settings)
    (hstatistics : s'.statistics = s.statistics) (hregistry : s'.registry = s.registry)
    (hspares : SparesStores s.config.dataDir s.disk s'.disk)
    (hcaches : ∀ id, s'.Caches id → s.Caches id) : s'.Agrees := by
  obtain ⟨hkeeps, hmatches⟩ := h
  rw [Agrees, hconfig, hsettings, hstatistics, hregistry]
  exact ⟨{ hkeeps with
    slash := fun id hid => hkeeps.slash id (hcaches id hid)
    total := hkeeps.total.spares hspares
    settings := (hspares _ (by decide) (by decide)).read hkeeps.settings }, hmatches⟩

/-- Nothing is written. -/
theorem idle (h : s.Agrees) (hconfig : s'.config = s.config) (hsettings : s'.settings = s.settings)
    (hstatistics : s'.statistics = s.statistics) (hregistry : s'.registry = s.registry)
    (hdisk : s'.disk = s.disk) (hcaches : ∀ id, s'.Caches id → s.Caches id) : s'.Agrees :=
  h.congr hconfig hsettings hstatistics hregistry (hdisk ▸ sparesStores_refl _ _) hcaches

/-- The settings are changed, and nothing was blocked. -/
theorem changeSettings (h : s.Agrees) {change : Settings → Settings}
    (htotal : (change s.settings.settings).totalBlockedRequests =
      s.settings.settings.totalBlockedRequests)
    (hsession : (change s.settings.settings).blockedRequestsThisSession =
      s.settings.settings.blockedRequestsThisSession)
    (hsaves : s.savesSettings change = true) : (s.changeSettings change).Agrees :=
  ⟨h.1.change hsaves, htotal.trans h.2.total, hsession.trans h.2.session⟩

/-- The counts are changed, and nothing was blocked. -/
theorem setStatistics (h : s.Agrees) (hgood : t.IsGood s.config.statisticsPath)
    (htotal : t.totalBlocked = s.statistics.totalBlocked)
    (hsession : t.sessionBlocked = s.statistics.sessionBlocked) (hsaves : s.savesCounts t = true) :
    { s with statistics := t, disk := t.save s.disk }.Agrees :=
  ⟨h.1.save hgood hsaves, h.2.total.trans htotal.symm, h.2.session.trans hsession.symm⟩

/-- The counts are changed, and then the settings in the same way. -/
theorem setBoth (h : s.Agrees) (change : Settings → Settings)
    (hgood : t.IsGood s.config.statisticsPath)
    (hmatches : Matches { s.settings with settings := change s.settings.settings } t)
    (hsaves : s.savesBoth t change = true) :
    ({ s with statistics := t, disk := t.save s.disk }.changeSettings change).Agrees := by
  obtain ⟨hcounts, hsettings⟩ := Bool.and_eq_true_iff.1 hsaves
  exact ⟨(h.1.save hgood hcounts).change hsettings, hmatches⟩

/-- Something is done with the lists. -/
theorem editLists (h : s.Agrees) (e : Registry.Edit) :
    { s with
      registry := (s.registry.edit s.disk e).1
      disk := (s.registry.edit s.disk e).2 }.Agrees := by
  obtain ⟨hkeeps, hmatches⟩ := h
  have helsewhere : Elsewhere (placeOf s.config.settingsPath) s.registry.path :=
    hkeeps.registryPath ▸ Config.elsewhere_of_mem (by decide) (by decide) (by decide)
  obtain ⟨added, hchanges, hadded⟩ := Registry.changes_edit helsewhere s.disk e
  have hslash (id : String) (hid : Caches { s with
      registry := (s.registry.edit s.disk e).1
      disk := (s.registry.edit s.disk e).2 } id) : '/' ∉ id.toList := by
    rcases hid with hid | hid
    · rcases hchanges.ids id hid with hid | hid
      · exact hkeeps.slash id (.inl hid)
      · obtain ⟨url, rfl⟩ := hadded id hid
        exact slash_not_mem_customId url
    · exact hkeeps.slash id (.inr hid)
  refine ⟨{ hkeeps with
    registryPath := hchanges.path.trans hkeeps.registryPath
    slash := hslash
    total := ?_
    settings := hchanges.spares.read hkeeps.settings }, hmatches⟩
  -- What the file of the lists gets, if anything, is what the registry has now.
  rcases s.registry.edit_cases e with ⟨-, hedit⟩ | ⟨-, lists, hedit⟩
  · rw [hedit]
    exact hkeeps.total
  · rw [hedit] at hslash ⊢
    exact hkeeps.total.writeLists hkeeps.registryPath fun l hl =>
      hslash l.id (.inl (List.mem_map_of_mem hl))

theorem startRun (h : s.Agrees) (reuse : Option (List String)) (refresh : Bool)
    (waiter : Option Waiter) : (s.startRun reuse refresh waiter).Agrees :=
  h.idle rfl rfl rfl rfl rfl fun _ => caches_startRun

/-! ### Commands -/

theorem saveWhitelist (h : s.Agrees) (hsaves : s.savesWhitelist s.whitelist = true) :
    s.saveWhitelist.Agrees := h.changeSettings rfl rfl hsaves

theorem whitelistDomain (h : s.Agrees) {domain : String} (hsaves : s.savesDomain domain = true)
    (waiter : Option Waiter) : (s.whitelistDomain domain waiter).Agrees := by
  rw [Service.whitelistDomain]
  refine startRun ?_ none false waiter
  split
  · next whitelist _ hadd =>
    rw [savesDomain, hadd] at hsaves
    have hset : { s with whitelist := whitelist }.Agrees := h
    exact hset.saveWhitelist hsaves
  · exact h

theorem reload (h : s.Agrees) (surface : Surface) (url : String) :
    (s.reload surface url).Agrees := h

theorem perform (h : s.Agrees) (waiter : Option Waiter) {effect : DecisionEffect}
    (hsaves : ∀ domain, effect = .whitelist domain → s.savesDomain domain = true) :
    (s.perform waiter effect).Agrees := by
  rcases effect with ⟨surface, url⟩ | _ | _ | domain | _
  · exact h.reload surface url
  · exact h
  · exact h
  · exact h.whitelistDomain (hsaves domain rfl) waiter
  · exact h

/-- No domain is put on the whitelist. -/
theorem decide (h : s.Agrees) (waiter : Option Waiter)
    {change : BlockDecisions × List DecisionEffect}
    (hnot : ∀ domain, .whitelist domain ∉ change.2) : (s.decide waiter change).Agrees := by
  have hstart : { s with decisions := change.1 }.Agrees := h
  refine decide_induction (P := Agrees) hstart fun effect heffect s' hs => ?_
  refine hs.perform waiter fun domain hdomain => ?_
  exact absurd (hdomain ▸ heffect) (hnot domain)

theorem tryDecide (h : s.Agrees) (waiter : Option Waiter)
    {change : BlockDecisions × Except Failure (List DecisionEffect)}
    (hnot : ∀ effects, change.2 = .ok effects → ∀ domain, .whitelist domain ∉ effects) :
    (s.tryDecide waiter change).1.Agrees := by
  obtain ⟨b, e | effects⟩ := change
  · exact h
  · have hnone : ∀ domain, .whitelist domain ∉ (b, effects).2 := hnot effects rfl
    exact h.decide waiter hnone

theorem addToWhitelist (h : s.Agrees) {entry : String} (hsaves : s.savesDomain entry = true) :
    (s.addToWhitelist entry).1.Agrees := by
  rcases s.addToWhitelist_cases entry with heq | ⟨domain, hadd, heq⟩ <;> rw [heq]
  · exact h
  · have hset : { s with whitelist := s.whitelist.insert domain }.Agrees := h
    rw [savesDomain, hadd] at hsaves
    exact hset.saveWhitelist hsaves

theorem removeFromWhitelist (h : s.Agrees) {entry : String}
    (hsaves : s.savesCommand (.removeFromWhitelist entry) = true) :
    (s.removeFromWhitelist entry).1.Agrees := by
  rcases s.removeFromWhitelist_cases entry with heq | ⟨domain, hremove, heq⟩ <;> rw [heq]
  · exact h
  · have hset : { s with whitelist := s.whitelist.erase domain }.Agrees := h
    rw [savesCommand, hremove] at hsaves
    exact hset.saveWhitelist hsaves

theorem setListEnabled (h : s.Agrees) (id : String) (enabled : Bool) :
    (s.setListEnabled id enabled).1.Agrees := by
  rw [setListEnabled_fst]
  exact h.editLists (.setEnabled id enabled)

theorem addList (h : s.Agrees) (name url : String) : (s.addList name url).1.Agrees := by
  rw [addList_fst]
  have hedited := h.editLists (.add name url)
  rw [Registry.edit] at hedited
  generalize s.registry.add s.disk name url = added at hedited ⊢
  exact hedited

theorem removeList (h : s.Agrees) (id : String) : (s.removeList id).1.Agrees := by
  have hedited := h.editLists (.remove id)
  rw [Registry.edit] at hedited
  rcases s.removeList_cases id with ⟨list, hremove, heq⟩ | ⟨e, -, heq⟩ <;> rw [heq]
  case inr => exact hedited
  -- The copy of the list that was removed is still in the cache.
  refine ⟨{ hedited.1 with slash := fun id' hid' => ?_ }, hedited.2⟩
  rcases caches_concat (s := { s with
    registry := (s.registry.remove s.disk id).1
    disk := (s.registry.remove s.disk id).2.1 }) hid' with hid' | rfl
  · exact hedited.1.slash id' hid'
  · exact h.1.slash list.id (.inl (Registry.mem_of_remove hremove))

theorem thenRun {changed : Service × Except Failure Unit} (h : changed.1.Agrees) (t : Ticket) :
    (Service.thenRun t changed).1.Agrees := by
  obtain ⟨s', e | ⟨⟩⟩ := changed
  · exact h
  · exact h.startRun none false (some ⟨t, .outcome⟩)

theorem toggle (h : s.Agrees) (hsaves : s.savesCommand .toggle = true) : s.toggle.Agrees := by
  have hset : (s.changeSettings ({ · with isEnabled := !s.isEnabled })).Agrees :=
    h.changeSettings rfl rfl hsaves
  rw [Service.toggle]
  split
  · exact hset
  · exact hset

theorem register (h : s.Agrees) (surface : Surface) : (s.register surface).Agrees := by
  rw [Service.register]
  split
  · split <;> exact h
  · exact h

theorem whitelistPermanently (h : s.Agrees) (t : Ticket) {id : SessionId}
    (hsaves : s.savesCommand (.whitelistPermanently id) = true) :
    (s.handle t (.whitelistPermanently id)).1.Agrees := by
  rcases hchange : s.decisions.whitelistPermanently id with ⟨b, e | effects⟩
  · rw [Service.handle, hchange]
    exact h
  · obtain ⟨x, url, domain, rfl⟩ := effects_whitelistPermanently (congrArg Prod.snd hchange)
    have hdomain : s.savesDomain domain = true := by simpa [savesCommand, hchange] using hsaves
    have hdismissed : (s.dismissed b x id).Agrees := h
    have hlisted := hdismissed.whitelistDomain hdomain (some ⟨t, .outcome⟩)
    rw [handle_whitelistPermanently hchange]
    exact hlisted.reload x url

theorem recordRequest (h : s.Agrees) (t : Ticket) (hsaves : s.savesCommand .recordRequest = true) :
    (s.handle t .recordRequest).1.Agrees := by
  have hgood : (s.statistics.countRequest .wrapping).run.IsGood s.config.statisticsPath :=
    h.1.good.edit s.disk .request
  exact h.setStatistics hgood rfl rfl hsaves

theorem recordBlocked (h : s.Agrees) {url : String} {page : Option String} {size : Option UInt64}
    (hsaves : s.savesCommand (.recordBlocked url page size) = true) :
    (s.recordBlocked url page size).Agrees := by
  have hgood := h.1.good.edit s.disk (.blocked url page size)
  refine h.setBoth Settings.countBlocked hgood ⟨?_, ?_⟩ hsaves
  · exact congrArg (· + 1) h.2.total
  · exact congrArg (· + 1) h.2.session

theorem recordPageLoad (h : s.Agrees) (t : Ticket) {url : String}
    (hsaves : s.savesCommand (.recordPageLoad url) = true) :
    (s.handle t (.recordPageLoad url)).1.Agrees := by
  have hgood : (s.statistics.countPageLoad url).IsGood s.config.statisticsPath :=
    h.1.good.edit s.disk (.pageLoad url)
  exact h.setStatistics hgood rfl rfl hsaves

theorem resetSession (h : s.Agrees) (hsaves : s.savesCommand .resetSession = true) :
    s.resetSession.Agrees := by
  have hgood : s.statistics.startSession.IsGood s.config.statisticsPath :=
    h.1.good.edit s.disk .resetSession
  exact h.setBoth Settings.startSession hgood ⟨h.2.total, rfl⟩ hsaves

/-- The counts stay the same with every command. -/
theorem handle (h : s.Agrees) (t : Ticket) {c : Command} (hsaves : s.savesCommand c = true) :
    (s.handle t c).1.Agrees := by
  rcases c with _ | _ | entry | entry | _ | ⟨id, enabled⟩ | ⟨name, url⟩ | id | surface | surface |
    ⟨surface, url, code⟩ | id | id | id | _ | ⟨url, page, size⟩ | url | _
  case startUp =>
    have hstarted : { s with startedUp := true }.Agrees := h
    exact hstarted.startRun s.reusable false (some ⟨t, .outcome⟩)
  case toggle => exact (h.toggle hsaves).startRun none false (some ⟨t, .enabled⟩)
  case addToWhitelist => exact (h.addToWhitelist hsaves).thenRun t
  case removeFromWhitelist => exact (h.removeFromWhitelist hsaves).thenRun t
  case updateLists => exact h.startRun none true (some ⟨t, .outcome⟩)
  case setListEnabled => exact (h.setListEnabled id enabled).thenRun t
  case addList =>
    have hadded := h.addList name url
    rw [Service.handle]
    split
    · next list hadd =>
      rw [hadd] at hadded
      exact hadded.startRun none false (some ⟨t, .added list⟩)
    · next hadd =>
      rw [hadd] at hadded
      exact hadded
  case removeList => exact (h.removeList id).thenRun t
  case register => exact h.register surface
  case unregister => exact h.decide none (whitelist_not_mem_close s.decisions surface)
  case reportBlock =>
    have hnext : { s with nextSession := s.nextSession.next }.Agrees := h
    exact hnext.decide none
      (whitelist_not_mem_signal s.decisions s.whitelist s.nextSession surface url code)
  case continueOnce => exact h.tryDecide none fun _ => whitelist_not_mem_continueOnce
  case whitelistPermanently => exact h.whitelistPermanently t hsaves
  case cancel => exact h.tryDecide none fun _ => whitelist_not_mem_cancel
  case recordRequest => exact h.recordRequest t hsaves
  case recordBlocked => exact h.recordBlocked hsaves
  case recordPageLoad => exact h.recordPageLoad t hsaves
  case resetSession => exact h.resetSession hsaves

/-! ### Other steps -/

/-- Copies of the lists are changed that are known. -/
theorem sparesStores (h : s.Agrees) {id : String} (hid : s.Caches id) {name : String}
    (hname : name ∈ Config.fileNames) :
    s.source.Elsewhere (placeOf (Path.join s.config.dataDir name)) id :=
  s.config.elsewhere_of_slash _ (h.1.slash id hid) hname

theorem changeRun (h : s.Agrees) (g : Nat) {change : CompileRun → CompileRun}
    (hc : ∀ r, (change r).request = r.request) : (s.changeRun g change).Agrees := by
  rw [Service.changeRun]
  split
  · next r hr => exact h.idle rfl rfl rfl rfl rfl fun _ => caches_setRun hr (hc r)
  · exact h

theorem finishList (h : s.Agrees) (g : Nat) (now : UInt64) (i : Nat) (reply : FetchReply) :
    (s.finishList g now i reply).Agrees := by
  rw [Service.finishList]
  split
  · next r hr =>
    refine h.congr rfl rfl rfl rfl (fun name hname _ => ?_) fun _ =>
      caches_setRun hr (r.loads_finishList s.source s.disk now i reply).request
    exact r.spares_finishList (fun _ hlist => h.sparesStores (caches_of_mem hr hlist) hname) s.disk
      now i reply
  · exact h

theorem compileRun (h : s.Agrees) (g : Nat) : (s.compileRun g).Agrees := by
  rw [Service.compileRun]
  split
  · next r hr =>
    exact h.idle rfl rfl rfl rfl rfl fun _ => caches_setRun hr (r.compiles s.store.engine).request
  · exact h

theorem evict (h : s.Agrees) : s.evict.Agrees := by
  rw [Service.evict]
  split
  · exact h
  · next id rest hevictions =>
    have hmem : id ∈ s.evictions := hevictions ▸ List.mem_cons_self
    exact h.congr rfl rfl rfl rfl
      (fun name hname _ => ListSource.spares_evict (h.sparesStores (.inr (.inl hmem)) hname) s.disk)
      fun _ => caches_evict hevictions

theorem reattach (h : s.Agrees) (surface : Surface) (number : Nat) :
    (s.reattach surface number).Agrees := by
  rw [Service.reattach]
  split
  · exact h
  · exact h

theorem note (h : s.Agrees) (g : Nat) (refreshed : List (String × UInt64)) :
    (s.note g refreshed).Agrees := by
  have hover : { s with runs := s.runs.erase g }.Agrees :=
    h.idle rfl rfl rfl rfl rfl fun _ => caches_eraseRun
  rw [Service.note, markUpdated]
  generalize { s with runs := s.runs.erase g } = s at hover ⊢
  induction refreshed generalizing s with
  | nil => exact hover
  | cons x refreshed ih => exact ih _ (hover.editLists (.markUpdated x.1 x.2))

theorem install (h : s.Agrees) (g : Nat) (artifacts : List Artifact) :
    (s.install g artifacts).1.Agrees := by
  by_cases hg : g < s.store.installedGeneration
  · rwa [install_of_late hg]
  · obtain ⟨store, heq⟩ := install_of_latest (Nat.le_of_not_lt hg) artifacts
    rw [heq]
    exact h.congr rfl rfl rfl rfl (sparesStores_writeManifest _ _ _) fun _ => id

theorem finishRun (h : s.Agrees) (g : Nat) : (s.finishRun g).1.Agrees := by
  rw [Service.finishRun]
  split
  · next request output hr =>
    rcases output with e | output
    · obtain ⟨waiters, heq⟩ := s.finishWith_error g e
      rw [heq]
      exact h.idle rfl rfl rfl rfl rfl fun _ => caches_eraseRun
    · obtain ⟨waiters, heq⟩ := s.finishWith_ok_eq g output
      rw [heq]
      exact (h.note g output.refreshed).install g output.artifacts
  · exact h

/-- The counts stay the same whatever happens next. -/
theorem step (h : s.Agrees) {event : Event} (hsaves : s.saves event = true) :
    (s.step event).1.Agrees := by
  rcases event with ⟨t, c⟩ | g | ⟨g, now, i⟩ | ⟨g, now, i, reply⟩ | g | g | ms | r | _ | names |
    disk
  case command => exact h.handle t hsaves
  case lookUp => exact h.changeRun g fun r => (r.looksUp _).request
  case beginList => exact h.changeRun g fun r => (r.loads_beginList _ _ _ _).request
  case finishList => exact h.finishList g now i reply
  case compileRun => exact h.compileRun g
  case finishRun => exact h.finishRun g
  case elapse =>
    exact elapse_induction (P := Agrees) s ms (fun _ => h) fun _ surface number h =>
      h.reattach surface number
  case reattach =>
    rw [Service.step]
    split
    · have hforgot : { s with reattachments := s.reattachments.erase r }.Agrees := h
      exact hforgot.reattach r.surface r.number
    · exact h
  case evict => exact h.evict
  case fail => exact h
  case files => cases hsaves

end Agrees

end Service

end ContentBlocking
