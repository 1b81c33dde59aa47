import ContentBlocking.Proofs.FilterList.ListTimes
import ContentBlocking.Proofs.Service.ManifestFile

/-!
# Times of downloads

When a run that has succeeded ends, the times of its downloads are noted in the registry,
one after the other, whatever was noted before. So a list has the time that was noted
last.

* `Service.downloadTimes`: the times that were noted for a list since it is registered;
* `Service.editsLists_handle`: commands note no times;
* `Service.HoldsTimes.step`, `Service.holdsTimes_after`: a list has the last of its times.
-/

namespace ContentBlocking

/-- The times of the downloads of one list, in the order of the downloads. -/
def timesIn (refreshed : List (String × UInt64)) (id : String) : List UInt64 :=
  (refreshed.filter (·.1 = id)).map (·.2)

theorem timesIn_cons (x : String × UInt64) (refreshed : List (String × UInt64)) (id : String) :
    timesIn (x :: refreshed) id = (if x.1 = id then [x.2] else []) ++ timesIn refreshed id := by
  rw [timesIn, List.filter_cons]
  split <;> simp_all [timesIn]

namespace Service

/-- The times of the downloads of a list by the run that has ended, if it has succeeded. -/
def Ending.times (x : Ending) (id : String) : List UInt64 :=
  (x.output.toOption.map fun output => timesIn output.refreshed id).getD []

/-- The times that an event notes for a list. -/
def timesNoted (s : Service) (id : String) (event : Event) : List UInt64 :=
  ((s.ending? event).map (·.times id)).getD []

/-- The times that were noted for a list since it is registered, after an event. -/
def noteTimes (s : Service) (id : String) (event : Event) (times : List UInt64) : List UInt64 :=
  if (s.registry.timeOf? id).isSome then times ++ s.timesNoted id event else []

/-- The times that are noted for a list since it is registered, when some were noted
    before. -/
def timesAfter (s : Service) (id : String) (times : List UInt64) : List Event → List UInt64
  | [] => times
  | event :: events => (s.step event).1.timesAfter id (s.noteTimes id event times) events

/-- The times of the downloads of a list that were noted since it is registered. The one
    that it has at first counts as noted. -/
def downloadTimes (s : Service) (id : String) (events : List Event) : List UInt64 :=
  s.timesAfter id ((s.registry.timeOf? id).bind fun time => time).toList events

variable {s s' : Service} {id : String} {times : List UInt64} {event : Event}

/-! ### Commands -/

/-- Between `s` and `s'` the lists are edited once at most, and no download is noted. Every
    run of `s'` is one of `s`, or is new and was asked for the lists that are enabled. -/
structure EditsLists (s s' : Service) : Prop where
  registry : s'.registry = s.registry ∨ ∃ e : Registry.Edit, e.isNote = false ∧
    s'.registry = (s.registry.edit s.disk e).1
  runs : ∀ g r, s'.runs.get? g = some r →
    s.runs.get? g = some r ∨ r.stage = .waiting ∧ r.request.lists = s'.registry.enabled

theorem editsLists_of_same (hregistry : s'.registry = s.registry) (hruns : s'.runs = s.runs) :
    s.EditsLists s' := ⟨.inl hregistry, fun _ _ hr => .inl (hruns ▸ hr)⟩

theorem editsLists_of_edit {e : Registry.Edit} (he : e.isNote = false)
    (hregistry : s'.registry = (s.registry.edit s.disk e).1) (hruns : s'.runs = s.runs) :
    s.EditsLists s' := ⟨.inr ⟨e, he, hregistry⟩, fun _ _ hr => .inl (hruns ▸ hr)⟩

namespace EditsLists

/-- Nothing else happens to the lists and the runs. -/
theorem idle (h : s.EditsLists s') {s'' : Service} (hregistry : s''.registry = s'.registry)
    (hruns : s''.runs = s'.runs) : s.EditsLists s'' where
  registry := hregistry ▸ h.registry
  runs g r hr := hregistry ▸ h.runs g r (hruns ▸ hr)

theorem startRun (h : s.EditsLists s') (reuse : Option (List String)) (refresh : Bool)
    (waiter : Option Waiter) : s.EditsLists (s'.startRun reuse refresh waiter) where
  registry := h.registry
  runs g r hr := by
    have hr : (s'.runs.set (s'.generation + 1) _).get? g = some r := hr
    rw [Table.get?_set] at hr
    split at hr
    · obtain rfl := Option.some.inj hr
      exact .inr ⟨rfl, rfl⟩
    · exact h.runs g r hr

theorem whitelistDomain (h : s.EditsLists s') (domain : String) (waiter : Option Waiter) :
    s.EditsLists (s'.whitelistDomain domain waiter) := by
  rw [Service.whitelistDomain]
  refine startRun ?_ none false waiter
  split <;> exact h.idle rfl rfl

theorem perform (h : s.EditsLists s') (waiter : Option Waiter) (effect : DecisionEffect) :
    s.EditsLists (s'.perform waiter effect) := by
  cases effect with
  | whitelist domain => exact h.whitelistDomain domain waiter
  | _ => exact h.idle rfl rfl

theorem decide (h : s.EditsLists s') (waiter : Option Waiter)
    (change : BlockDecisions × List DecisionEffect) : s.EditsLists (s'.decide waiter change) :=
  decide_induction (P := s.EditsLists) (h.idle rfl rfl)
    fun effect _ _ hs => hs.perform waiter effect

theorem tryDecide (h : s.EditsLists s') (waiter : Option Waiter)
    (change : BlockDecisions × Except Failure (List DecisionEffect)) :
    s.EditsLists (s'.tryDecide waiter change).1 := by
  obtain ⟨b, e | effects⟩ := change
  · exact h.idle rfl rfl
  · exact h.decide waiter (b, effects)

theorem thenRun {changed : Service × Except Failure Unit} (h : s.EditsLists changed.1)
    (t : Ticket) : s.EditsLists (Service.thenRun t changed).1 := by
  obtain ⟨s', e | ⟨⟩⟩ := changed
  · exact h
  · exact h.startRun none false (some ⟨t, .outcome⟩)

end EditsLists

/-- A command edits the lists once at most, and notes no download. -/
theorem editsLists_handle (s : Service) (t : Ticket) (c : Command) :
    s.EditsLists (s.handle t c).1 := by
  have h : s.EditsLists s := editsLists_of_same rfl rfl
  cases c with
  | startUp =>
    have hstarted : s.EditsLists { s with startedUp := true } := h.idle rfl rfl
    exact hstarted.startRun s.reusable false (some ⟨t, .outcome⟩)
  | toggle =>
    have htoggled : s.EditsLists s.toggle := by
      rw [toggle]
      split <;> exact h.idle rfl rfl
    exact htoggled.startRun none false (some ⟨t, .enabled⟩)
  | addToWhitelist entry =>
    refine EditsLists.thenRun ?_ t
    rcases s.addToWhitelist_cases entry with heq | ⟨domain, -, heq⟩ <;> rw [heq]
    · exact h
    · exact h.idle rfl rfl
  | removeFromWhitelist entry =>
    refine EditsLists.thenRun ?_ t
    rcases s.removeFromWhitelist_cases entry with heq | ⟨domain, -, heq⟩ <;> rw [heq]
    · exact h
    · exact h.idle rfl rfl
  | updateLists => exact h.startRun none true (some ⟨t, .outcome⟩)
  | setListEnabled id enabled =>
    refine EditsLists.thenRun ?_ t
    exact editsLists_of_edit (e := .setEnabled id enabled) rfl rfl rfl
  | addList name url =>
    have hregistry := congrArg Service.registry (s.addList_fst name url)
    have hadded : s.EditsLists (s.addList name url).1 :=
      editsLists_of_edit (e := .add name url) rfl hregistry rfl
    rw [handle]
    split
    · next list hadd =>
      rw [hadd] at hadded
      exact hadded.startRun none false (some ⟨t, .added list⟩)
    · next hadd =>
      rw [hadd] at hadded
      exact hadded
  | removeList id =>
    refine EditsLists.thenRun ?_ t
    rcases s.removeList_cases id with ⟨list, -, heq⟩ | ⟨e, -, heq⟩ <;> rw [heq]
    · exact editsLists_of_edit (e := .remove id) rfl rfl rfl
    · exact editsLists_of_edit (e := .remove id) rfl rfl rfl
  | register surface =>
    rw [handle, register]
    split
    · split <;> exact h.idle rfl rfl
    · exact h.idle rfl rfl
  | unregister surface => exact (h.decide none (s.decisions.close surface)).idle rfl rfl
  | reportBlock surface url code =>
    have hnext : s.EditsLists { s with nextSession := s.nextSession.next } := h.idle rfl rfl
    exact hnext.decide none (s.decisions.signal s.whitelist s.nextSession surface url code)
  | continueOnce id => exact h.tryDecide none (s.decisions.continueOnce id)
  | whitelistPermanently id =>
    have hdecide := h.tryDecide (some ⟨t, .outcome⟩) (s.decisions.whitelistPermanently id)
    rw [handle]
    split
    · next heq =>
      rw [heq] at hdecide
      exact hdecide
    · next heq =>
      rw [heq] at hdecide
      exact hdecide
  | cancel id => exact h.tryDecide none (s.decisions.cancel id)
  | _ => exact h.idle rfl rfl

/-! ### Ends of runs -/

/-- A list has the last time that is noted for it, or the one it had. -/
theorem timeOf?_markUpdated (s : Service) (refreshed : List (String × UInt64)) (id : String) :
    (s.markUpdated refreshed).registry.timeOf? id =
      (s.registry.timeOf? id).map fun time => (timesIn refreshed id).getLast?.or time := by
  rw [markUpdated]
  induction refreshed generalizing s with
  | nil => simp [timesIn]
  | cons x refreshed ih =>
    rw [List.foldl_cons, ih, timesIn_cons]
    dsimp only
    rw [Registry.timeOf?_markUpdated, Option.map_map]
    congr 1
    funext time
    simp only [Function.comp_apply, eq_comm (a := id)]
    split
    · rw [List.getLast?_append, Option.or_assoc]
      rfl
    · rfl

theorem ids_markUpdated (s : Service) (refreshed : List (String × UInt64)) :
    (s.markUpdated refreshed).registry.lists.map (·.id) = s.registry.lists.map (·.id) := by
  rw [markUpdated]
  induction refreshed generalizing s with
  | nil => rfl
  | cons x refreshed ih =>
    rw [List.foldl_cons, ih]
    exact s.registry.ids_markUpdated s.disk x.1 x.2

theorem registry_install (s : Service) (g : Nat) (artifacts : List Artifact) :
    (s.install g artifacts).1.registry = s.registry := by
  rw [install]
  split <;> rfl

/-- When a run ends the times of its downloads are noted, and nothing else happens to the
    lists. -/
theorem registry_finishWith (s : Service) (x : Ending) :
    let r := (s.finishWith x.generation x.output).1.registry
    r.lists.map (·.id) = s.registry.lists.map (·.id) ∧
      ∀ id, r.timeOf? id =
        (s.registry.timeOf? id).map fun time => (x.times id).getLast?.or time := by
  intro r
  obtain ⟨g, e | output⟩ := x
  · obtain ⟨waiters, heq⟩ := s.finishWith_error g e
    have hr : r = s.registry := by
      show (s.finishWith g (.error e)).1.registry = _
      rw [heq]
    rw [hr]
    refine ⟨rfl, fun id => ?_⟩
    simp only [Ending.times, Except.toOption, Option.map_none, Option.getD_none,
      List.getLast?_nil, Option.none_or, Option.map_id']
  · obtain ⟨waiters, heq⟩ := s.finishWith_ok_eq g output
    have hr : r = ({ s with runs := s.runs.erase g }.markUpdated output.refreshed).registry := by
      show (s.finishWith g (.ok output)).1.registry = _
      rw [heq]
      exact registry_install _ g output.artifacts
    rw [hr]
    exact ⟨ids_markUpdated _ output.refreshed, timeOf?_markUpdated _ output.refreshed⟩

/-! ### One step -/

theorem registry_lift (s : Service) (due : List Reattachment) :
    (s.lift due).registry = s.registry := by
  refine lift_induction (P := (·.registry = s.registry)) (fun s' surface number hs => ?_) rfl due
  rw [reattach]
  split
  · exact hs
  · exact hs

/-- Only the end of a run notes times. -/
theorem keepsTimes_step (hids : (s.registry.lists.map (·.id)).Nodup)
    (hending : s.ending? event = none) : s.registry.KeepsTimes (s.step event).1.registry := by
  have hstep := s.stepped event
  generalize (s.step event).1 = s' at hstep ⊢
  cases hstep with
  | command t c =>
    rcases (s.editsLists_handle t c).registry with hsame | ⟨e, he, hedit⟩
    · rw [hsame]
      exact Registry.keepsTimes_refl hids
    · rw [hedit]
      exact Registry.keepsTimes_edit hids s.disk he
  | part g hpart => cases hpart <;> exact Registry.keepsTimes_refl hids
  | finish g r output before done => exact (not_finish_of_ending? hending rfl before done).elim
  | lift clock due later pending =>
    rw [registry_lift]
    exact Registry.keepsTimes_refl hids
  | around disk evictions failing => exact Registry.keepsTimes_refl hids

theorem nodup_step (hids : (s.registry.lists.map (·.id)).Nodup) (event : Event) :
    ((s.step event).1.registry.lists.map (·.id)).Nodup := by
  cases hending : s.ending? event with
  | none => exact (keepsTimes_step hids hending).ids
  | some x =>
    rw [step_of_ending? hending, (s.registry_finishWith x).1]
    exact hids

theorem nodup_after (hids : (s.registry.lists.map (·.id)).Nodup) (events : List Event) :
    ((s.after events).registry.lists.map (·.id)).Nodup :=
  after_induction (P := fun s => (s.registry.lists.map (·.id)).Nodup)
    (fun _ event hids => nodup_step hids event) hids events

/-- A list has the last time that an event notes for it, or else the one it had. A list
    that is new has none. -/
theorem timeOf?_step (hids : (s.registry.lists.map (·.id)).Nodup) {time : Option UInt64}
    (h : (s.step event).1.registry.timeOf? id = some time) :
    (∃ before, s.registry.timeOf? id = some before ∧
      time = (s.timesNoted id event).getLast?.or before) ∨
    s.registry.timeOf? id = none ∧ time = none := by
  cases hending : s.ending? event with
  | none =>
    have hnothing : s.timesNoted id event = [] := by rw [timesNoted, hending]; rfl
    rw [hnothing]
    exact ((keepsTimes_step hids hending).time id time h).imp_left fun h => ⟨time, h, rfl⟩
  | some x =>
    rw [step_of_ending? hending, (s.registry_finishWith x).2] at h
    obtain ⟨before, hbefore, rfl⟩ := Option.map_eq_some_iff.1 h
    refine .inl ⟨before, hbefore, ?_⟩
    rw [timesNoted, hending]
    rfl

theorem lastUpdated_step (hids : (s.registry.lists.map (·.id)).Nodup) {l l' : FilterList}
    (hl : l ∈ s.registry.lists) (hl' : l' ∈ (s.step event).1.registry.lists) (hid : l'.id = l.id) :
    l'.lastUpdated = (s.timesNoted l.id event).getLast?.or l.lastUpdated := by
  have hbefore := Registry.timeOf?_of_mem hids hl
  have hafter := Registry.timeOf?_of_mem (nodup_step hids event) hl'
  rw [hid] at hafter
  rcases timeOf?_step hids hafter with ⟨before, hsome, htime⟩ | ⟨hnone, -⟩
  · rw [htime, Option.some.inj (hsome.symm.trans hbefore)]
  · exact nomatch hnone.symm.trans hbefore

/-! ### All events -/

/-- If there is a list with the identifier, it has the last of these times. -/
def HoldsTimes (s : Service) (id : String) (times : List UInt64) : Prop :=
  ∀ time, s.registry.timeOf? id = some time → time = times.getLast?

theorem noteTimes_of_mem {l : FilterList} (hl : l ∈ s.registry.lists) (event : Event)
    (times : List UInt64) : s.noteTimes l.id event times = times ++ s.timesNoted l.id event := by
  refine if_pos (Option.isSome_iff_ne_none.2 fun hnone => ?_)
  exact Registry.timeOf?_eq_none_iff.1 hnone l hl rfl

theorem HoldsTimes.step (h : s.HoldsTimes id times) (hids : (s.registry.lists.map (·.id)).Nodup)
    (event : Event) : (s.step event).1.HoldsTimes id (s.noteTimes id event times) := by
  intro time htime
  rw [noteTimes]
  rcases timeOf?_step hids htime with ⟨before, hbefore, rfl⟩ | ⟨hnone, rfl⟩
  · rw [if_pos (by rw [hbefore]; rfl), List.getLast?_append, ← h before hbefore]
  · rw [if_neg (by rw [hnone]; simp)]
    rfl

theorem HoldsTimes.after (h : s.HoldsTimes id times) (hids : (s.registry.lists.map (·.id)).Nodup)
    (events : List Event) : (s.after events).HoldsTimes id (s.timesAfter id times events) := by
  induction events generalizing s times with
  | nil => exact h
  | cons event events ih => exact ih (h.step hids event) (nodup_step hids event)

theorem holdsTimes_after (hids : (s.registry.lists.map (·.id)).Nodup) (id : String)
    (events : List Event) : (s.after events).HoldsTimes id (s.downloadTimes id events) := by
  refine HoldsTimes.after (fun time htime => ?_) hids events
  rw [htime, Option.bind_some]
  cases time <;> rfl

end Service

end ContentBlocking
