import ContentBlocking.Proofs.Disk.Elsewhere
import ContentBlocking.Proofs.Service.Endings

/-!
# The files of the service

Apart from the manifest, the service writes its settings, its statistics, the registry
and the copies of lists. A file at any other place is kept, whatever clients ask for
and however the runs go on. Lists that are added have identifiers without a slash, so
only the lists that were in the registry from the start could be in the way.

* `Service.Avoids`: none of the files is at the place;
* `Service.Guards`: so a file at the place is kept;
* `guards_step`: it is kept by everything but the end of a run.
-/

namespace ContentBlocking

open Disk

/-- None of the paths and none of the copies of the lists is at the place, and neither
    is a copy of a list that may still be added. -/
structure KeepsOff (place : Place) (source : ListSource) (paths : List String)
    (lists : String → Prop) : Prop where
  paths : ∀ path ∈ paths, Elsewhere place path
  added : ∀ url, source.Elsewhere place (FilterList.customId url)
  lists : ∀ id, lists id → source.Elsewhere place id

/-- A download ends, and the copy of the list is kept. -/
theorem CompileRun.spares_finishList {place : Place} (r : CompileRun) {source : ListSource}
    (h : ∀ l ∈ r.request.lists, source.Elsewhere place l.id) (d : Disk) (now : UInt64) (i : Nat)
    (reply : FetchReply) : Spares place d (r.finishList source d now i reply).1 := by
  rw [finishList]
  split
  · next stages list _ hlist =>
    split
    · exact ListSource.spares_finish (h list (List.mem_of_getElem? hlist)) d now _ reply
    · exact spares_refl place d
  · exact spares_refl place d

namespace Service

/-- The service may have to do with a copy of the list: the list is in the registry, its
    copy is to be removed, or a run was asked for it. -/
def Caches (s : Service) (id : String) : Prop :=
  id ∈ s.registry.lists.map (·.id) ∨ id ∈ s.evictions ∨
    ∃ g r, s.runs.get? g = some r ∧ id ∈ r.request.lists.map (·.id)

/-- Apart from the manifest, no file of the service is at the place. -/
def Avoids (s : Service) (place : Place) : Prop :=
  KeepsOff place s.source [s.settings.path, s.statistics.path, s.registry.path] s.Caches

/-- A file at the place has been kept since the disk was `d`, and no file of the service
    is at the place. -/
def Guards (s : Service) (place : Place) (d : Disk) : Prop :=
  s.Avoids place ∧ Spares place d s.disk

variable {s s' : Service} {place : Place} {d : Disk} {id : String}

/-! ### Lists with copies -/

/-- A run is asked for lists of the registry. -/
theorem caches_startRun {reuse : Option (List String)} {refresh : Bool} {waiter : Option Waiter}
    (h : (s.startRun reuse refresh waiter).Caches id) : s.Caches id := by
  rcases h with hid | hid | ⟨g, r, hr, hid⟩
  · exact .inl hid
  · exact .inr (.inl hid)
  · have hr : (s.runs.set (s.generation + 1) _).get? g = some r := hr
    rw [Table.get?_set] at hr
    split at hr
    · obtain rfl := Option.some.inj hr
      have henabled : s.registry.enabled.Sublist s.registry.lists := List.filter_sublist
      exact .inl ((henabled.map _).subset hid)
    · exact .inr (.inr ⟨g, r, hr, hid⟩)

/-- A run goes on with what it was asked for. -/
theorem caches_setRun {g : Nat} {r r' : CompileRun} (hr : s.runs.get? g = some r)
    (hrequest : r'.request = r.request) (h : { s with runs := s.runs.set g r' }.Caches id) :
    s.Caches id := by
  rcases h with hid | hid | ⟨g', r'', hr'', hid⟩
  · exact .inl hid
  · exact .inr (.inl hid)
  · rw [Table.get?_set] at hr''
    split at hr''
    · obtain rfl := Option.some.inj hr''
      exact .inr (.inr ⟨g, r, hr, hrequest ▸ hid⟩)
    · exact .inr (.inr ⟨g', r'', hr'', hid⟩)

theorem caches_of_mem {g : Nat} {r : CompileRun} (hr : s.runs.get? g = some r) {l : FilterList}
    (hl : l ∈ r.request.lists) : s.Caches l.id := .inr (.inr ⟨g, r, hr, List.mem_map_of_mem hl⟩)

theorem caches_eraseRun {g : Nat} (h : { s with runs := s.runs.erase g }.Caches id) :
    s.Caches id := by
  rcases h with hid | hid | ⟨g', r, hr, hid⟩
  · exact .inl hid
  · exact .inr (.inl hid)
  · rw [Table.get?_erase] at hr
    split at hr
    · cases hr
    · exact .inr (.inr ⟨g', r, hr, hid⟩)

/-- The copy of the first list that was removed leaves the cache. -/
theorem caches_evict {first : String} {rest : List String}
    (hevictions : s.evictions = first :: rest) (h : { s with evictions := rest }.Caches id) :
    s.Caches id := by
  rcases h with hid | hid | hid
  · exact .inl hid
  · exact .inr (.inl (hevictions ▸ List.mem_cons_of_mem _ hid))
  · exact .inr (.inr hid)

theorem caches_concat {removed : String}
    (h : { s with evictions := s.evictions ++ [removed] }.Caches id) :
    s.Caches id ∨ id = removed := by
  rcases h with hid | hid | hid
  · exact .inl (.inl hid)
  · exact (List.mem_append.1 hid).imp (.inr ∘ .inl) List.mem_singleton.1
  · exact .inl (.inr (.inr hid))

namespace Guards

theorem elsewhere_settings (h : s.Guards place d) : Elsewhere place s.settings.path :=
  h.1.paths _ (by simp)

theorem elsewhere_statistics (h : s.Guards place d) : Elsewhere place s.statistics.path :=
  h.1.paths _ (by simp)

theorem elsewhere_registry (h : s.Guards place d) : Elsewhere place s.registry.path :=
  h.1.paths _ (by simp)

/-- A change of the files that keeps to the paths, and that makes no list known but one
    that is added. -/
theorem change (h : s.Guards place d) (hspares : Spares place s.disk s'.disk)
    (hsource : s'.source = s.source)
    (hpaths : [s'.settings.path, s'.statistics.path, s'.registry.path] =
      [s.settings.path, s.statistics.path, s.registry.path])
    (hlists : ∀ id, s'.Caches id → s.Caches id ∨ ∃ url, id = FilterList.customId url) :
    s'.Guards place d := by
  obtain ⟨havoids, hspares₀⟩ := h
  refine ⟨⟨?_, ?_, fun id hid => ?_⟩, hspares₀.trans hspares⟩
  · rw [hpaths]
    exact havoids.paths
  · rw [hsource]
    exact havoids.added
  · rw [hsource]
    rcases hlists id hid with hid | ⟨url, rfl⟩
    · exact havoids.lists id hid
    · exact havoids.added url

/-- A file is written that is not at the place. -/
theorem write (h : s.Guards place d) (hspares : Spares place s.disk s'.disk)
    (hsource : s'.source = s.source)
    (hpaths : [s'.settings.path, s'.statistics.path, s'.registry.path] =
      [s.settings.path, s.statistics.path, s.registry.path])
    (hlists : s'.Caches = s.Caches) : s'.Guards place d :=
  h.change hspares hsource hpaths fun _ hid => .inl (hlists ▸ hid)

/-! ### Parts of commands -/

theorem changeSettings (h : s.Guards place d) (change : Settings → Settings) :
    (s.changeSettings change).Guards place d :=
  h.write (SettingsStore.spares_change h.elsewhere_settings s.disk change) rfl rfl rfl

theorem setStatistics (h : s.Guards place d) (statistics : StatisticsTracker)
    (hpath : statistics.path = s.statistics.path) :
    { s with statistics := statistics, disk := statistics.save s.disk }.Guards place d := by
  have helsewhere : Elsewhere place statistics.path := hpath ▸ h.elsewhere_statistics
  refine h.write (StatisticsTracker.spares_save helsewhere s.disk) rfl ?_ rfl
  rw [← hpath]

/-- Lists of the registry are changed, and perhaps one is added. -/
theorem setRegistry (h : s.Guards place d) {registry : Registry} {disk : Disk}
    {added : Option String} (hc : s.registry.Changes place s.disk added registry disk)
    (hadded : ∀ id, added = some id → ∃ url, id = FilterList.customId url) :
    { s with registry := registry, disk := disk }.Guards place d := by
  refine h.change hc.spares rfl (by rw [← hc.path]) fun id hid => ?_
  rcases hid with hid | hid
  · rcases hc.ids id hid with hid | hid
    · exact .inl (.inl hid)
    · exact .inr (hadded id hid)
  · exact .inl (.inr hid)

/-- No list is added to the registry. -/
theorem keepLists (h : s.Guards place d) {registry : Registry} {disk : Disk}
    (hc : s.registry.Changes place s.disk none registry disk) :
    { s with registry := registry, disk := disk }.Guards place d :=
  h.setRegistry hc fun id hid => absurd hid.symm (Option.some_ne_none id)

theorem startRun (h : s.Guards place d) (reuse : Option (List String)) (refresh : Bool)
    (waiter : Option Waiter) : (s.startRun reuse refresh waiter).Guards place d :=
  h.change (spares_refl place s.disk) rfl rfl fun _ hid => .inl (caches_startRun hid)

theorem saveWhitelist (h : s.Guards place d) : s.saveWhitelist.Guards place d := h.changeSettings _

theorem whitelistDomain (h : s.Guards place d) (domain : String) (waiter : Option Waiter) :
    (s.whitelistDomain domain waiter).Guards place d := by
  rw [Service.whitelistDomain]
  refine startRun ?_ none false waiter
  split
  · next whitelist _ _ =>
    have hset : { s with whitelist := whitelist }.Guards place d := h
    exact hset.saveWhitelist
  · exact h

theorem perform (h : s.Guards place d) (waiter : Option Waiter) (effect : DecisionEffect) :
    (s.perform waiter effect).Guards place d := by
  cases effect with
  | whitelist domain => exact h.whitelistDomain domain waiter
  | _ => exact h

theorem decide (h : s.Guards place d) (waiter : Option Waiter)
    (change : BlockDecisions × List DecisionEffect) : (s.decide waiter change).Guards place d := by
  have hstart : { s with decisions := change.1 }.Guards place d := h
  exact decide_induction (P := fun s' => s'.Guards place d) hstart fun effect _ s' hs =>
    hs.perform waiter effect

theorem tryDecide (h : s.Guards place d) (waiter : Option Waiter)
    (change : BlockDecisions × Except Failure (List DecisionEffect)) :
    (s.tryDecide waiter change).1.Guards place d := by
  obtain ⟨b, e | effects⟩ := change
  · exact h
  · exact h.decide waiter (b, effects)

theorem addToWhitelist (h : s.Guards place d) (entry : String) :
    (s.addToWhitelist entry).1.Guards place d := by
  rcases s.addToWhitelist_cases entry with heq | ⟨domain, -, heq⟩ <;> rw [heq]
  · exact h
  · have hset : { s with whitelist := s.whitelist.insert domain }.Guards place d := h
    exact hset.saveWhitelist

theorem removeFromWhitelist (h : s.Guards place d) (entry : String) :
    (s.removeFromWhitelist entry).1.Guards place d := by
  rcases s.removeFromWhitelist_cases entry with heq | ⟨domain, -, heq⟩ <;> rw [heq]
  · exact h
  · have hset : { s with whitelist := s.whitelist.erase domain }.Guards place d := h
    exact hset.saveWhitelist

theorem setListEnabled (h : s.Guards place d) (id : String) (enabled : Bool) :
    (s.setListEnabled id enabled).1.Guards place d := by
  rw [setListEnabled_fst]
  exact h.keepLists (Registry.changes_setEnabled h.elsewhere_registry s.disk id enabled)

theorem addList (h : s.Guards place d) (name url : String) :
    (s.addList name url).1.Guards place d := by
  obtain ⟨normal, hc⟩ := Registry.changes_add h.elsewhere_registry s.disk name url
  rw [addList_fst]
  exact h.setRegistry hc fun id hid => ⟨normal, (Option.some.inj hid).symm⟩

theorem removeList (h : s.Guards place d) (id : String) : (s.removeList id).1.Guards place d := by
  have hset := h.keepLists (Registry.changes_remove h.elsewhere_registry s.disk id)
  rcases s.removeList_cases id with ⟨list, hremove, heq⟩ | ⟨e, -, heq⟩ <;> rw [heq]
  case inr => exact hset
  -- The copy of the list that was removed is still in the cache.
  refine ⟨⟨hset.1.paths, hset.1.added, fun id' hid' => ?_⟩, hset.2⟩
  rcases caches_concat (s := { s with
    registry := (s.registry.remove s.disk id).1
    disk := (s.registry.remove s.disk id).2.1 }) hid' with hid' | rfl
  · exact hset.1.lists id' hid'
  · exact h.1.lists list.id (.inl (Registry.mem_of_remove hremove))

theorem thenRun {changed : Service × Except Failure Unit} (h : changed.1.Guards place d)
    (t : Ticket) : (Service.thenRun t changed).1.Guards place d := by
  obtain ⟨s', e | ⟨⟩⟩ := changed
  · exact h
  · exact h.startRun none false (some ⟨t, .outcome⟩)

theorem toggle (h : s.Guards place d) : s.toggle.Guards place d := by
  have hset := h.changeSettings ({ · with isEnabled := !s.isEnabled })
  rw [Service.toggle]
  split
  · exact hset
  · exact hset

theorem register (h : s.Guards place d) (surface : Surface) :
    (s.register surface).Guards place d := by
  rw [Service.register]
  split
  · split <;> exact h
  · exact h

theorem recordBlocked (h : s.Guards place d) (url : String) (page : Option String)
    (size : Option UInt64) : (s.recordBlocked url page size).Guards place d := by
  have hcounted := h.setStatistics (s.statistics.countBlocked .wrapping url page size).run rfl
  rw [Service.recordBlocked]
  exact hcounted.changeSettings _

theorem resetSession (h : s.Guards place d) : s.resetSession.Guards place d := by
  have hcounted := h.setStatistics s.statistics.startSession rfl
  rw [Service.resetSession]
  exact hcounted.changeSettings _

/-! ### Commands -/

/-- No command loses a file at the place. -/
theorem handle (h : s.Guards place d) (t : Ticket) (c : Command) :
    (s.handle t c).1.Guards place d := by
  cases c with
  | startUp =>
    have hstarted : { s with startedUp := true }.Guards place d := h
    exact hstarted.startRun s.reusable false (some ⟨t, .outcome⟩)
  | toggle => exact h.toggle.startRun none false (some ⟨t, .enabled⟩)
  | addToWhitelist entry => exact (h.addToWhitelist entry).thenRun t
  | removeFromWhitelist entry => exact (h.removeFromWhitelist entry).thenRun t
  | updateLists => exact h.startRun none true (some ⟨t, .outcome⟩)
  | setListEnabled id enabled => exact (h.setListEnabled id enabled).thenRun t
  | addList name url =>
    have hadded := h.addList name url
    rw [Service.handle]
    split
    · next list hadd =>
      rw [hadd] at hadded
      exact hadded.startRun none false (some ⟨t, .added list⟩)
    · next hadd =>
      rw [hadd] at hadded
      exact hadded
  | removeList id => exact (h.removeList id).thenRun t
  | register surface => exact h.register surface
  | unregister surface => exact h.decide none (s.decisions.close surface)
  | reportBlock surface url code =>
    have hnext : { s with nextSession := s.nextSession.next }.Guards place d := h
    exact hnext.decide none (s.decisions.signal s.whitelist s.nextSession surface url code)
  | continueOnce id => exact h.tryDecide none (s.decisions.continueOnce id)
  | whitelistPermanently id =>
    have hdecide := h.tryDecide (some ⟨t, .outcome⟩) (s.decisions.whitelistPermanently id)
    rw [Service.handle]
    split
    · next heq =>
      rw [heq] at hdecide
      exact hdecide
    · next heq =>
      rw [heq] at hdecide
      exact hdecide
  | cancel id => exact h.tryDecide none (s.decisions.cancel id)
  | recordRequest => exact h.setStatistics (s.statistics.countRequest .wrapping).run rfl
  | recordBlocked url page size => exact h.recordBlocked url page size
  | recordPageLoad url => exact h.setStatistics (s.statistics.countPageLoad url) rfl
  | resetSession => exact h.resetSession

/-! ### Other steps -/

theorem setRun (h : s.Guards place d) {g : Nat} {r r' : CompileRun} (hr : s.runs.get? g = some r)
    (hrequest : r'.request = r.request) (e : Engine) :
    { s with store := { s.store with engine := e }, runs := s.runs.set g r' }.Guards place d :=
  h.change (spares_refl place s.disk) rfl rfl fun _ hid => .inl (caches_setRun hr hrequest hid)

theorem changeRun (h : s.Guards place d) (g : Nat) {change : CompileRun → CompileRun}
    (hc : ∀ r, (change r).request = r.request) : (s.changeRun g change).Guards place d := by
  rw [Service.changeRun]
  split
  · next r hr => exact h.setRun hr (hc r) s.store.engine
  · exact h

theorem finishList (h : s.Guards place d) (g : Nat) (now : UInt64) (i : Nat) (reply : FetchReply) :
    (s.finishList g now i reply).Guards place d := by
  rw [Service.finishList]
  split
  · next r hr =>
    have hspares : Spares place s.disk (r.finishList s.source s.disk now i reply).1 :=
      r.spares_finishList (fun _ hlist => h.1.lists _ (caches_of_mem hr hlist)) s.disk now i reply
    have hset := h.setRun hr (r.loads_finishList s.source s.disk now i reply).request s.store.engine
    exact hset.write hspares rfl rfl rfl
  · exact h

theorem compileRun (h : s.Guards place d) (g : Nat) : (s.compileRun g).Guards place d := by
  rw [Service.compileRun]
  split
  · next r hr => exact h.setRun hr (r.compiles s.store.engine).request _
  · exact h

theorem reattach (h : s.Guards place d) (surface : Surface) (number : Nat) :
    (s.reattach surface number).Guards place d := by
  rw [Service.reattach]
  split
  · exact h
  · exact h

theorem evict (h : s.Guards place d) : s.evict.Guards place d := by
  rw [Service.evict]
  split
  · exact h
  · next id rest hevictions =>
    have hmem : id ∈ s.evictions := hevictions ▸ List.mem_cons_self
    have hspares : Spares place s.disk (s.source.evict s.disk id) :=
      ListSource.spares_evict (h.1.lists id (.inr (.inl hmem))) s.disk
    exact h.change hspares rfl rfl fun _ hid => .inl (caches_evict hevictions hid)

theorem markUpdated (h : s.Guards place d) (refreshed : List (String × UInt64)) :
    (s.markUpdated refreshed).Guards place d := by
  rw [Service.markUpdated]
  induction refreshed generalizing s with
  | nil => exact h
  | cons x refreshed ih =>
    exact ih (h.keepLists (Registry.changes_markUpdated h.elsewhere_registry s.disk x.1 x.2))

/-- A run is over. -/
theorem eraseRun (h : s.Guards place d) (g : Nat) (waiters : Table Nat Waiter) :
    { s with runs := s.runs.erase g, waiters := waiters }.Guards place d :=
  h.change (spares_refl place s.disk) rfl rfl fun _ hid => .inl (caches_eraseRun hid)

/-- Nothing loses a file at the place, except perhaps the end of a run and whoever else
    changes the files. -/
theorem step (h : s.Guards place d) {event : Event} (hending : s.ending? event = none)
    (hfiles : ∀ disk, event = .files disk → Spares place s.disk disk) :
    (s.step event).1.Guards place d := by
  cases event with
  | command t c => exact h.handle t c
  | lookUp g => exact h.changeRun g fun r => (r.looksUp _).request
  | beginList g now i => exact h.changeRun g fun r => (r.loads_beginList _ _ _ _).request
  | finishList g now i reply => exact h.finishList g now i reply
  | compileRun g => exact h.compileRun g
  | finishRun g =>
    rw [Service.step, finishRun]
    split
    · next request output hr => exact (not_finish_of_ending? hending rfl hr rfl).elim
    · exact h
  | elapse ms =>
    exact elapse_induction (P := (·.Guards place d)) s ms (fun _ => h)
      fun _ surface number h => h.reattach surface number
  | reattach r =>
    rw [Service.step]
    split
    · have hforgot : { s with reattachments := s.reattachments.erase r }.Guards place d := h
      exact hforgot.reattach r.surface r.number
    · exact h
  | evict => exact h.evict
  | fail identifiers => exact h
  | files disk => exact h.write (hfiles disk rfl) rfl rfl rfl

end Guards

end Service

end ContentBlocking
