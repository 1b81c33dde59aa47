import ContentBlocking.Proofs.RunDownloads
import ContentBlocking.Proofs.Service.DownloadTimes
import ContentBlocking.Proofs.Service.LateCompile
import ContentBlocking.Proofs.Service.RunProgress

/-!
# The order of downloads

A list has the time that was noted for it last. That is the time of its latest download if
the downloads were noted in their order, as they are when the clock does not run backwards
and no run succeeds between a download of another run and the end of that. Runs that
overlap more than that end in any order, and then an earlier time may replace a later one.

* `IsLatest`: a time is the latest of some times;
* `Service.TakesTurns`: the runs take turns;
* `Service.InOrder`: the downloads were noted in order, and so will be those that have been
  made;
* `Service.lastUpdated_after`: what the time of a list is, and that it is the latest if the
  runs take turns.
-/

namespace ContentBlocking

/-- The time is the latest of the times, and if there are none there is no time. -/
def IsLatest (times : List UInt64) : Option UInt64 → Prop
  | none => times = []
  | some t => t ∈ times ∧ ∀ u ∈ times, u ≤ t

/-- The last of some times in their order is the latest. -/
theorem isLatest_getLast? {times : List UInt64} (h : times.Pairwise (· ≤ ·)) :
    IsLatest times times.getLast? := by
  rcases htime : times.getLast? with _ | t
  · exact List.getLast?_eq_none_iff.1 htime
  · obtain ⟨earlier, rfl⟩ := List.getLast?_eq_some_iff.1 htime
    refine ⟨List.mem_concat_self, fun u hu => ?_⟩
    rcases List.mem_append.1 hu with hu | hu
    · exact (List.pairwise_append.1 h).2.2 u hu t (List.mem_singleton_self t)
    · rw [List.mem_singleton.1 hu]
      exact UInt64.le_refl t

theorem mem_timesIn {refreshed : List (String × UInt64)} {id : String} {t : UInt64} :
    t ∈ timesIn refreshed id ↔ (id, t) ∈ refreshed := by
  simp [timesIn]

/-- A list that is downloaded once has no two times. -/
theorem pairwise_timesIn {refreshed : List (String × UInt64)}
    (h : (refreshed.map (·.1)).Nodup) (id : String) :
    (timesIn refreshed id).Pairwise (· ≤ ·) := by
  induction refreshed with
  | nil => exact .nil
  | cons x refreshed ih =>
    obtain ⟨hnew, hrest⟩ := List.nodup_cons.1 h
    rw [timesIn_cons]
    split
    · next hid =>
      have hnone : timesIn refreshed id = [] := by
        refine List.eq_nil_iff_forall_not_mem.2 fun t ht => hnew ?_
        exact List.mem_map.2 ⟨(id, t), mem_timesIn.1 ht, hid.symm⟩
      rw [hnone]
      exact List.pairwise_singleton _ _
    · exact ih hrest

namespace Service

/-- What the clock shows when a run looks at it. -/
def Event.now? : Event → Option UInt64
  | .beginList _ now _ | .finishList _ now _ _ => some now
  | _ => none

/-- If the event is the end of a run that has succeeded, no other run in flight has
    downloaded anything yet. -/
def EndsAlone (s : Service) (event : Event) : Prop :=
  ∀ g output, s.ending? event = some ⟨g, .ok output⟩ →
    ∀ g' r, s.runs.get? g' = some r → g' ≠ g → r.downloadedAt = []

/-- From `now` on the clock does not run backwards, and no run succeeds between a download
    of another run and the end of that. -/
def TakesTurns (s : Service) (now : UInt64) : List Event → Prop
  | [] => True
  | event :: events => (∀ t ∈ event.now?, now ≤ t) ∧ s.EndsAlone event ∧
      (s.step event).1.TakesTurns (event.now?.getD now) events

/-- The times of a list were noted in order. What the runs in flight have downloaded is not
    earlier, and the clock shows `now` or a later time. -/
structure InOrder (s : Service) (times : List UInt64) (now : UInt64) : Prop where
  runs : EveryRun (CompileRun.DownloadsAt fun t => (∀ u ∈ times, u ≤ t) ∧ t ≤ now) s
  sorted : times.Pairwise (· ≤ ·)
  past : ∀ u ∈ times, u ≤ now

variable {s : Service} {id : String} {times : List UInt64} {now : UInt64} {event : Event}

/-! ### One step -/

/-- A step downloads nothing but what it downloads now. -/
theorem everyRun_downloadsAt_step {P : UInt64 → Prop}
    (hids : (s.registry.lists.map (·.id)).Nodup) (h : EveryRun (CompileRun.DownloadsAt P) s)
    (hnow : ∀ now, event.now? = some now → P now) :
    EveryRun (CompileRun.DownloadsAt P) (s.step event).1 := fun g r hr => by
  cases s.advances_step event hr with
  | stays before => exact h g r before
  | starts t c request =>
    rcases (s.editsLists_handle t c).runs g _ hr with hr | ⟨-, hlists⟩
    · exact h g _ hr
    · refine CompileRun.downloadsAt_waiting ?_
      have hlists : request.lists = (s.step (.command t c)).1.registry.enabled := hlists
      rw [hlists]
      exact (nodup_step hids (.command t c)).sublist (List.filter_sublist.map _)
  | lookUp r before => exact (h g r before).looksUp (r.looksUp _)
  | beginList r before now i => exact CompileRun.downloadsAt_beginList (h g r before) _ _ _ _
  | finishList r before now i reply =>
    exact CompileRun.downloadsAt_finishList (h g r before) _ _ (hnow now rfl) i reply
  | compile r before => exact (h g r before).compiles (r.compiles _)

/-- Only the end of a run that has succeeded notes times, and they are those that the run
    has put down. -/
theorem timesNoted_cases (s : Service) (id : String) (event : Event) :
    s.timesNoted id event = [] ∨ ∃ g output, s.ending? event = some ⟨g, .ok output⟩ ∧
      s.timesNoted id event = timesIn output.refreshed id := by
  rw [timesNoted]
  rcases s.ending? event with _ | ⟨g, e | output⟩
  · exact .inl rfl
  · exact .inl rfl
  · exact .inr ⟨g, output, rfl, rfl⟩

/-- What is noted of a run in flight is when it has downloaded something. -/
theorem exists_run_of_mem_timesNoted {t : UInt64} (h : t ∈ s.timesNoted id event) :
    ∃ g r, s.runs.get? g = some r ∧ t ∈ r.downloadedAt := by
  rcases s.timesNoted_cases id event with hnone | ⟨g, output, hending, htimes⟩
  · exact absurd h (hnone ▸ List.not_mem_nil)
  · obtain ⟨-, r, hr, hdone⟩ := ending?_eq_some.1 hending
    refine ⟨g, r, hr, ?_⟩
    rw [CompileRun.downloadedAt_of_output? (CompileRun.output?_of_done hdone)]
    exact List.mem_map_of_mem (mem_timesIn.1 (htimes ▸ h))

theorem pairwise_timesNoted {P : UInt64 → Prop} (h : EveryRun (CompileRun.DownloadsAt P) s)
    (id : String) (event : Event) : (s.timesNoted id event).Pairwise (· ≤ ·) := by
  rcases s.timesNoted_cases id event with hnone | ⟨g, output, hending, htimes⟩
  · exact hnone ▸ .nil
  · obtain ⟨-, r, hr, hdone⟩ := ending?_eq_some.1 hending
    have honce := (h g r hr).once output (CompileRun.output?_of_done hdone)
    exact htimes ▸ pairwise_timesIn honce id

/-- The other runs are left when one ends. -/
theorem get?_of_ending? {x : Ending} (hending : s.ending? event = some x) {g : Nat}
    {r : CompileRun} (hr : (s.step event).1.runs.get? g = some r) :
    g ≠ x.generation ∧ s.runs.get? g = some r := by
  obtain ⟨registry, disk, waiters, heq⟩ := s.finishWith_eq x.generation x.output
  rw [step_of_ending? hending, heq] at hr
  have hr : (s.runs.erase x.generation).get? g = some r := hr
  rw [Table.get?_erase] at hr
  split at hr
  · cases hr
  · next hg => exact ⟨hg, hr⟩

theorem InOrder.step (h : s.InOrder times now) (hids : (s.registry.lists.map (·.id)).Nodup)
    (hclock : ∀ t ∈ event.now?, now ≤ t) (halone : s.EndsAlone event) (id : String) :
    (s.step event).1.InOrder (s.noteTimes id event times) (event.now?.getD now) := by
  have hle : now ≤ event.now?.getD now := by
    rcases hnow : event.now? with _ | t
    · exact UInt64.le_refl now
    · exact hclock t hnow
  have hnoted : ∀ t ∈ s.timesNoted id event, (∀ u ∈ times, u ≤ t) ∧ t ≤ now := by
    intro t ht
    obtain ⟨g, r, hr, ht⟩ := exists_run_of_mem_timesNoted ht
    exact (h.runs g r hr).times t ht
  have hsorted : (times ++ s.timesNoted id event).Pairwise (· ≤ ·) :=
    List.pairwise_append.2 ⟨h.sorted, pairwise_timesNoted h.runs id event,
      fun u hu t ht => (hnoted t ht).1 u hu⟩
  have hpast : ∀ u ∈ times ++ s.timesNoted id event, u ≤ event.now?.getD now := by
    intro u hu
    rcases List.mem_append.1 hu with hu | hu
    · exact UInt64.le_trans (h.past u hu) hle
    · exact UInt64.le_trans (hnoted u hu).2 hle
  have hruns : EveryRun (CompileRun.DownloadsAt fun t =>
      (∀ u ∈ times ++ s.timesNoted id event, u ≤ t) ∧ t ≤ event.now?.getD now)
        (s.step event).1 := by
    rcases s.timesNoted_cases id event with hnone | ⟨g, output, hending, -⟩
    · rw [hnone, List.append_nil] at hpast ⊢
      refine everyRun_downloadsAt_step hids (fun g r hr => ?_) fun t ht => ?_
      · exact (h.runs g r hr).imp fun t _ ht => ⟨ht.1, UInt64.le_trans ht.2 hle⟩
      · rw [ht] at hpast ⊢
        exact ⟨hpast, UInt64.le_refl t⟩
    · -- The runs that are left have downloaded nothing.
      intro g' r hr
      obtain ⟨hne, hr⟩ := get?_of_ending? hending hr
      have hnothing := halone g output hending g' r hr hne
      exact (h.runs g' r hr).imp fun t ht => absurd ht (hnothing ▸ List.not_mem_nil)
  rw [noteTimes]
  split
  · exact ⟨hruns, hsorted, hpast⟩
  · refine ⟨fun g r hr => (hruns g r hr).imp fun t _ ht => ?_, .nil, List.forall_mem_nil _⟩
    exact ⟨List.forall_mem_nil _, ht.2⟩

/-! ### All events -/

theorem timesAfter_append (s : Service) (id : String) (times : List UInt64)
    (events events' : List Event) :
    s.timesAfter id times (events ++ events') =
      (s.after events).timesAfter id (s.timesAfter id times events) events' := by
  induction events generalizing s times with
  | nil => rfl
  | cons event events ih => exact ih (s.step event).1 (s.noteTimes id event times)

theorem downloadTimes_append (s : Service) (id : String) (events events' : List Event) :
    s.downloadTimes id (events ++ events') =
      (s.after events).timesAfter id (s.downloadTimes id events) events' :=
  s.timesAfter_append id _ events events'

theorem InOrder.after (h : s.InOrder times now) (hids : (s.registry.lists.map (·.id)).Nodup)
    {events : List Event} (hturns : s.TakesTurns now events) (id : String) :
    ∃ now', (s.after events).InOrder (s.timesAfter id times events) now' := by
  induction events generalizing s times now with
  | nil => exact ⟨now, h⟩
  | cons event events ih =>
    obtain ⟨hclock, halone, hrest⟩ := hturns
    exact ih (h.step hids hclock halone id) (nodup_step hids event) hrest

/-- If the runs take turns, the downloads of a list are noted in their order. -/
theorem pairwise_downloadTimes (hnone : s.runs = [])
    (hids : (s.registry.lists.map (·.id)).Nodup)
    (hknown : ∀ l ∈ s.registry.lists, ∀ t ∈ l.lastUpdated, t ≤ now) {events : List Event}
    (hturns : s.TakesTurns now events) (id : String) :
    (s.downloadTimes id events).Pairwise (· ≤ ·) := by
  have hstart : s.InOrder ((s.registry.timeOf? id).bind fun time => time).toList now := by
    refine ⟨fun g r hr => ?_, ?_, fun u hu => ?_⟩
    · rw [hnone] at hr
      cases hr
    · rcases (s.registry.timeOf? id).bind fun time => time with _ | t
      · exact .nil
      · exact List.pairwise_singleton _ t
    · obtain ⟨time, htime, hu⟩ := Option.bind_eq_some_iff.1 (Option.mem_toList.1 hu)
      obtain ⟨l, hl, -, rfl⟩ := Registry.timeOf?_eq_some htime
      exact hknown l hl u hu
  obtain ⟨now', hafter⟩ := hstart.after hids hturns id
  exact hafter.sorted

/-- After any events a list has the time that was noted for it last, and every end of a run
    replaces that, also by an earlier time. If the runs take turns it is the time of the
    latest download, and it only gets later. -/
theorem lastUpdated_after {config : Config} {around : Surroundings} {first : SessionId}
    (hstart : start config around first = .ok s)
    (hids : (s.registry.lists.map (·.id)).Nodup) (events : List Event) :
    (∀ l ∈ (s.after events).registry.lists,
      l.lastUpdated = (s.downloadTimes l.id events).getLast?) ∧
    (∀ event, ∀ l ∈ (s.after events).registry.lists,
      ∀ l' ∈ (s.after (events ++ [event])).registry.lists, l'.id = l.id →
        l'.lastUpdated = ((s.after events).timesNoted l.id event).getLast?.or l.lastUpdated) ∧
    ∀ now, (∀ l ∈ s.registry.lists, ∀ t ∈ l.lastUpdated, t ≤ now) →
      (s.TakesTurns now events → ∀ l ∈ (s.after events).registry.lists,
        IsLatest (s.downloadTimes l.id events) l.lastUpdated) ∧
      ∀ event, s.TakesTurns now (events ++ [event]) → ∀ l ∈ (s.after events).registry.lists,
        ∀ l' ∈ (s.after (events ++ [event])).registry.lists, l'.id = l.id →
          ∀ t ∈ l.lastUpdated, ∃ t' ∈ l'.lastUpdated, t ≤ t' := by
  have hholds (events : List Event) (l : FilterList) (hl : l ∈ (s.after events).registry.lists) :
      l.lastUpdated = (s.downloadTimes l.id events).getLast? :=
    holdsTimes_after hids l.id events l.lastUpdated
      (Registry.timeOf?_of_mem (nodup_after hids events) hl)
  have hnone := (fresh_of_start hstart).runs
  have hstep (event : Event) :
      s.after (events ++ [event]) = ((s.after events).step event).1 := s.after_append events [event]
  refine ⟨hholds events, fun event l hl l' hl' hid => ?_, fun now hknown => ?_⟩
  · rw [hstep] at hl'
    exact lastUpdated_step (nodup_after hids events) hl hl' hid
  · have hlatest (events : List Event) (hturns : s.TakesTurns now events) (l : FilterList)
        (hl : l ∈ (s.after events).registry.lists) :
        IsLatest (s.downloadTimes l.id events) l.lastUpdated := by
      rw [hholds events l hl]
      exact isLatest_getLast? (pairwise_downloadTimes hnone hids hknown hturns l.id)
    refine ⟨hlatest events, fun event hturns l hl l' hl' hid t ht => ?_⟩
    -- The time of the list stays among those that were noted for it.
    have hmem : t ∈ s.downloadTimes l.id (events ++ [event]) := by
      have hnoted : s.downloadTimes l.id (events ++ [event]) =
          (s.after events).noteTimes l.id event (s.downloadTimes l.id events) :=
        s.downloadTimes_append l.id events [event]
      rw [hnoted, noteTimes_of_mem hl]
      exact List.mem_append_left _ (List.mem_of_getLast? ((hholds events l hl).symm.trans ht))
    have hafter := hlatest (events ++ [event]) hturns l' hl'
    rw [hid] at hafter
    rcases hlast : l'.lastUpdated with _ | t'
    · rw [hlast] at hafter
      exact absurd hmem (hafter ▸ List.not_mem_nil)
    · rw [hlast] at hafter
      exact ⟨t', rfl, hafter.2 t hmem⟩

/-! ### Two runs -/

/-- The run has two lists, which it has downloaded at the time, and the engine is ready for
    its only shard. -/
def HasLists (s : Service) (g : Nat) (now : UInt64) : Prop :=
  s.store.engine.failing = [] ∧ s.store.engine.ruleLimit = none ∧
    ∃ r ∈ s.runs.get? g, r.shards?.map List.length = some 1 ∧ r.request.maxShards ≠ 0 ∧
      r.refreshed = [("easylist", now), ("easyprivacy", now)]

instance (s : Service) (g : Nat) (now : UInt64) : Decidable (s.HasLists g now) :=
  inferInstanceAs (Decidable (_ ∧ _))

/-- The compile of a run notes no times. -/
theorem timesAfter_compileParts (hsome : (s.registry.timeOf? id).isSome = true) (g n : Nat) :
    (s.after (compileParts g n)).registry = s.registry ∧
      s.timesAfter id times (compileParts g n) = times := by
  induction n generalizing s with
  | zero => exact ⟨rfl, rfl⟩
  | succ n ih =>
    have hregistry : (s.compileRun g).registry = s.registry := by
      rw [compileRun]
      split <;> rfl
    have hfirst : s.noteTimes id (.compileRun g) times = times := by
      rw [noteTimes, if_pos hsome]
      exact List.append_nil times
    obtain ⟨hafter, htimes⟩ := ih (s := s.compileRun g) (hregistry ▸ hsome)
    refine ⟨hafter.trans hregistry, ?_⟩
    rw [compileParts, List.replicate_succ, timesAfter, hfirst]
    exact htimes

/-- A run that has two lists comes to the engine and ends, and the time of its downloads is
    noted. -/
theorem noted_after_compile_finish {g : Nat} (h : s.HasLists g now) {time : Option UInt64}
    (htime : s.registry.timeOf? "easylist" = some time) :
    (s.after (toFinish g 1)).registry.timeOf? "easylist" = some (some now) ∧
      ∀ times, s.timesAfter "easylist" times (toFinish g 1) = times ++ [now] := by
  obtain ⟨hfailing, hlimit, r, hr, hn, hmax, hrefreshed⟩ := h
  obtain ⟨output, hending, houtput⟩ := ending?_compileParts ⟨hfailing, hlimit⟩ hr hn hmax
  have hsome : (s.registry.timeOf? "easylist").isSome = true := by rw [htime]; rfl
  have hcompiled (times : List UInt64) :
      (s.after (compileParts g 3)).registry = s.registry ∧
        s.timesAfter "easylist" times (compileParts g 3) = times :=
    timesAfter_compileParts hsome g 3
  have hnoted : (Ending.mk g (.ok output)).times "easylist" = [now] := by
    show timesIn output.refreshed "easylist" = [now]
    rw [houtput, hrefreshed]
    rfl
  refine ⟨?_, fun times => ?_⟩
  · rw [after_toFinish hending, (registry_finishWith _ ⟨g, .ok output⟩).2, (hcompiled []).1,
      htime, Option.map_some, hnoted]
    rfl
  · have hlast : s.timesAfter "easylist" times (toFinish g 1) =
        (s.after (compileParts g 3)).noteTimes "easylist" (.finishRun g)
          (s.timesAfter "easylist" times (compileParts g 3)) := s.timesAfter_append _ _ _ _
    rw [hlast, (hcompiled times).2, noteTimes, (hcompiled times).1, if_pos hsome, timesNoted,
      hending, Option.map_some, Option.getD_some, hnoted]

/-- The other run is not held back by that. -/
theorem HasLists.after_other {g g' : Nat} {now' : UInt64} (h : s.HasLists g now)
    (h' : s.HasLists g' now') (hne : g ≠ g') : (s.after (toFinish g' 1)).HasLists g now := by
  obtain ⟨hfailing, hlimit, r, hr, hrun⟩ := h
  obtain ⟨-, -, r', hr', hn', hmax', -⟩ := h'
  obtain ⟨shards, hshards, hone⟩ := Option.map_eq_some_iff.1 hn'
  obtain ⟨hready, hruns, -⟩ := after_compile_finish ⟨hfailing, hlimit⟩ hr' hshards
    (shards_ne_nil_of_shards? hshards hmax')
  rw [hone] at hready hruns
  refine ⟨hready.failing, hready.ruleLimit, r, ?_, hrun⟩
  rw [hruns, if_neg hne]
  exact hr

/-- Some events that are no ends of runs come before events that do not look at the clock. -/
theorem takesTurns_append {events rest : List Event}
    (hends : ∀ event ∈ events, ∀ g, event ≠ .finishRun g)
    (hclock : (now :: events.filterMap Event.now?).Pairwise (· ≤ ·))
    (hrest : ∀ now', (s.after events).TakesTurns now' rest) :
    s.TakesTurns now (events ++ rest) := by
  induction events generalizing s now with
  | nil => exact hrest now
  | cons event events ih =>
    obtain ⟨hend, hends⟩ := List.forall_mem_cons.1 hends
    obtain ⟨hle, hsorted⟩ := List.pairwise_cons.1 hclock
    have halone : s.EndsAlone event := fun g output hending =>
      absurd (ending?_eq_some.1 hending).1 (hend g)
    cases hnow : event.now? with
    | none =>
      rw [List.filterMap_cons_none hnow] at hle hsorted
      refine ⟨by simp [hnow], halone, ih hends ?_ hrest⟩
      exact hnow ▸ List.pairwise_cons.2 ⟨hle, hsorted⟩
    | some t =>
      rw [List.filterMap_cons_some hnow] at hle hsorted
      refine ⟨fun t' ht' => ?_, halone, ih hends ?_ hrest⟩
      · obtain rfl := Option.some.inj (hnow.symm.trans ht')
        exact hle t List.mem_cons_self
      · rw [hnow]
        exact hsorted

theorem get?_after_compileParts {g g' : Nat} (hne : g' ≠ g) (n : Nat) :
    (s.after (compileParts g n)).runs.get? g' = s.runs.get? g' := by
  induction n generalizing s with
  | zero => rfl
  | succ n ih =>
    have hfirst : (s.compileRun g).runs.get? g' = s.runs.get? g' := by
      rw [compileRun]
      split
      · rw [Table.get?_set, if_neg hne]
      · rfl
    exact (ih (s := s.compileRun g)).trans hfirst

/-- The run that comes to the engine ends alone if no other one has downloaded anything. -/
theorem takesTurns_compile_finish {g : Nat} (hkeys : s.runs.keys.Nodup)
    (halone : ∀ run ∈ s.runs, run.1 ≠ g → run.2.downloadedAt = []) (n : Nat) (now : UInt64) :
    s.TakesTurns now (toFinish g n) := by
  have hends : ∀ event ∈ compileParts g (n + 2), ∀ g', event ≠ .finishRun g' := by
    intro event hevent g'
    rw [List.eq_of_mem_replicate hevent]
    exact nofun
  have hclock : (compileParts g (n + 2)).filterMap Event.now? = [] :=
    List.filterMap_replicate_of_none rfl
  refine takesTurns_append hends ?_ fun now' => ⟨nofun, fun g₁ output hending g' r hr hne => ?_,
    trivial⟩
  · rw [hclock]
    exact List.pairwise_singleton _ _
  · obtain rfl := Event.finishRun.inj (ending?_eq_some.1 hending).1
    rw [get?_after_compileParts hne] at hr
    exact halone (g', r) ((Table.get?_eq_some_iff hkeys).1 hr) hne

/-- A run finds two lists. -/
def getLists (g : Nat) (now : UInt64) : List Event :=
  [.lookUp g, .beginList g now 0, .finishList g now 0 (.ok ""), .beginList g now 1,
    .finishList g now 1 (.ok "")]

/-- One run has its lists when the other one begins to look for them. -/
def turnEvents : List Event :=
  [.command 1 .updateLists, .command 2 .updateLists] ++ getLists 1 100 ++
    [.lookUp 2, .beginList 2 150 0]

theorem held_turnEvents : ∀ s₀ ∈ (start {} {} .nil).toOption,
    let s := s₀.after turnEvents
    (s₀.registry.lists.map (·.id)).Nodup ∧ (∀ l ∈ s₀.registry.lists, l.lastUpdated = none) ∧
      s.registry.timeOf? "easylist" = some none ∧ s.HasLists 1 100 ∧ s.runs.keys.Nodup ∧
      ∀ run ∈ s.runs, run.1 ≠ 1 → run.2.downloadedAt = [] := by
  decide +kernel

theorem lastUpdated_after_turnEvents : ∃ s, start {} {} .nil = .ok s ∧
    let events := turnEvents ++ toFinish 1 1
    (s.registry.lists.map (·.id)).Nodup ∧
      (∀ l ∈ s.registry.lists, ∀ t ∈ l.lastUpdated, t ≤ 0) ∧ s.TakesTurns 0 events ∧
      ∃ l ∈ (s.after events).registry.lists, l.id = "easylist" ∧ l.lastUpdated = some 100 ∧
        IsLatest (s.downloadTimes l.id events) l.lastUpdated := by
  obtain ⟨s₀, hstart⟩ := exists_start (show Config.validate {} = .ok {} from rfl) {} .nil
  obtain ⟨hids, hnever, htime, hlists, hkeys, halone⟩ := held_turnEvents s₀ (by rw [hstart]; rfl)
  have hknown : ∀ l ∈ s₀.registry.lists, ∀ t ∈ l.lastUpdated, t ≤ 0 := by
    intro l hl t ht
    rw [hnever l hl] at ht
    cases ht
  have hturns : s₀.TakesTurns 0 (turnEvents ++ toFinish 1 1) :=
    takesTurns_append (by simp [turnEvents, getLists]) (by decide)
      (takesTurns_compile_finish hkeys halone 1)
  obtain ⟨hnoted, -⟩ := noted_after_compile_finish hlists htime
  rw [← after_append] at hnoted
  obtain ⟨l, hl, hid, hlast⟩ := Registry.timeOf?_eq_some hnoted
  obtain ⟨-, -, hlatest⟩ :=
    lastUpdated_after hstart hids (turnEvents ++ toFinish 1 1)
  exact ⟨s₀, hstart, hids, hknown, hturns, l, hl, hid, hlast, (hlatest 0 hknown).1 hturns l hl⟩

/-- Both runs have downloaded their lists before one of them ends. -/
def overlapEvents : List Event :=
  [.command 1 .updateLists, .command 2 .updateLists] ++ getLists 1 100 ++ getLists 2 200

theorem held_overlapEvents : ∀ s₀ ∈ (start {} {} .nil).toOption,
    let s := s₀.after overlapEvents
    (s₀.registry.lists.map (·.id)).Nodup ∧ (∀ l ∈ s₀.registry.lists, l.lastUpdated = none) ∧
      s₀.downloadTimes "easylist" overlapEvents = [] ∧
      s.registry.timeOf? "easylist" = some none ∧ s.HasLists 1 100 ∧ s.HasLists 2 200 := by
  decide +kernel

/-- When the later of two runs that overlap ends first, the earlier time replaces the later
    one, although the clock never runs backwards. -/
theorem not_forall_isLatest : ¬∀ (config : Config) (around : Surroundings) (first : SessionId)
    (s : Service) (now : UInt64) (events : List Event), start config around first = .ok s →
    (s.registry.lists.map (·.id)).Nodup →
    (∀ l ∈ s.registry.lists, ∀ t ∈ l.lastUpdated, t ≤ now) →
    (now :: events.filterMap Event.now?).Pairwise (· ≤ ·) →
    ∀ l ∈ (s.after events).registry.lists,
      IsLatest (s.downloadTimes l.id events) l.lastUpdated := by
  intro hall
  obtain ⟨s₀, hstart⟩ := exists_start (show Config.validate {} = .ok {} from rfl) {} .nil
  obtain ⟨hids, hnever, htimes, htime, hlists₁, hlists₂⟩ :=
    held_overlapEvents s₀ (by rw [hstart]; rfl)
  have hknown : ∀ l ∈ s₀.registry.lists, ∀ t ∈ l.lastUpdated, t ≤ 0 := by
    intro l hl t ht
    rw [hnever l hl] at ht
    cases ht
  let events : List Event := overlapEvents ++ (toFinish 2 1 ++ toFinish 1 1)
  -- The later time is noted first.
  obtain ⟨htime₂, htimes₂⟩ := noted_after_compile_finish hlists₂ htime
  obtain ⟨htime₁, htimes₁⟩ :=
    noted_after_compile_finish (hlists₁.after_other hlists₂ (by decide)) htime₂
  have hafter : (s₀.after events).registry.timeOf? "easylist" = some (some 100) := by
    rw [after_append, after_append]
    exact htime₁
  have hnoted : s₀.downloadTimes "easylist" events = [200, 100] := by
    rw [downloadTimes_append, timesAfter_append, htimes, htimes₂, htimes₁]
    rfl
  obtain ⟨l, hl, hid, hlast⟩ := Registry.timeOf?_eq_some hafter
  have hclaimed := hall {} {} .nil s₀ 0 events hstart hids hknown (by decide) l hl
  rw [hid, hlast, hnoted] at hclaimed
  exact absurd (hclaimed.2 200 List.mem_cons_self) (by decide)

end Service

end ContentBlocking
