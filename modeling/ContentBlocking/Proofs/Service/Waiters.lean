import ContentBlocking.Proofs.Service.RunProgress
import ContentBlocking.Proofs.Table

/-!
# Who waits for which run

A command that starts a run leaves one client to wait for it, and any other command is
answered at once. The client is answered when the run ends. So the clients that wait are
those of the runs in flight, and every command is answered once or still waits.

* `Service.awaits?`: what the client of a command waits for;
* `Service.Serves`: how a command is served, and `serves_handle`: every command is;
* `Service.Ledger`: the clients that wait, and those that were answered;
* `ledger_after`: what it says holds after all events;
* `answersOnce`: every command is answered once, by its own run if it starts one.
-/

namespace ContentBlocking

/-- The command starts a run, unless it is refused. -/
def Command.MayStartRun : Command → Prop
  | .startUp | .toggle | .addToWhitelist _ | .removeFromWhitelist _ | .updateLists
  | .setListEnabled _ _ | .addList _ _ | .removeList _ | .whitelistPermanently _ => True
  | _ => False

namespace Service

/-- What the client of a command waits for, if the command starts a run. -/
def awaits? (s : Service) : Command → Option Awaited
  | .startUp | .updateLists => some .outcome
  | .toggle => some .enabled
  | .addToWhitelist entry => (s.addToWhitelist entry).2.toOption.map fun _ => .outcome
  | .removeFromWhitelist entry => (s.removeFromWhitelist entry).2.toOption.map fun _ => .outcome
  | .setListEnabled id enabled => (s.setListEnabled id enabled).2.toOption.map fun _ => .outcome
  | .addList name url => (s.addList name url).2.toOption.map .added
  | .removeList id => (s.removeList id).2.toOption.map fun _ => .outcome
  | .whitelistPermanently id =>
    (s.decisions.whitelistPermanently id).2.toOption.map fun _ => .outcome
  | _ => none

/-- How a command is served: its client waits for the run that starts, or is answered at
    once; a command that is refused is answered with the cause. -/
inductive Serves (s : Service) (t : Ticket) (c : Command) (s' : Service) : Option Reply → Prop
  | waits (awaited : Awaited) (awaits : s.awaits? c = some awaited)
      (generation : s'.generation = s.generation + 1)
      (waiters : s'.waiters = s.waiters.set (s.generation + 1) ⟨t, awaited⟩) :
      Serves s t c s' none
  | answers (reply : Reply) (awaits : s.awaits? c = none)
      (generation : s'.generation = s.generation) (waiters : s'.waiters = s.waiters)
      (refused : c.MayStartRun → ∃ e, reply = .failed e) : Serves s t c s' (some reply)

variable {s s' : Service} {t : Ticket} {c : Command}

/-! ### Parts of commands -/

/-- No run is started, and the same clients wait. -/
structure SameWaiters (s s' : Service) : Prop where
  generation : s'.generation = s.generation
  waiters : s'.waiters = s.waiters

theorem sameWaiters_refl (s : Service) : SameWaiters s s := ⟨rfl, rfl⟩

theorem SameWaiters.trans {s'' : Service} (h : SameWaiters s s') (h' : SameWaiters s' s'') :
    SameWaiters s s'' := ⟨h'.generation.trans h.generation, h'.waiters.trans h.waiters⟩

theorem Edits.sameWaiters (h : s.Edits s') : SameWaiters s s' :=
  ⟨h.generation, h.waiters⟩

theorem sameWaiters_toggle (s : Service) : SameWaiters s s.toggle := by
  rw [toggle]
  split <;> exact ⟨rfl, rfl⟩

theorem sameWaiters_register (s : Service) (surface : Surface) :
    SameWaiters s (s.register surface) := by
  rw [register]
  split
  · split <;> exact ⟨rfl, rfl⟩
  · exact ⟨rfl, rfl⟩

/-- A run is started for which the client waits. -/
theorem SameWaiters.startRun (h : SameWaiters s s') {awaited : Awaited}
    (hawaits : s.awaits? c = some awaited) (reuse : Option (List String)) (refresh : Bool) :
    Serves s t c (s'.startRun reuse refresh (some ⟨t, awaited⟩)) none := by
  refine .waits awaited hawaits ?_ ?_
  · rw [← h.generation]
    rfl
  · rw [← h.generation, ← h.waiters]
    rfl

/-- A command that may start a run does so, unless it is refused. -/
theorem serves_thenRun {changed : Service × Except Failure Unit}
    (hawaits : s.awaits? c = changed.2.toOption.map fun _ => .outcome)
    (hc : SameWaiters s changed.1) :
    Serves s t c (thenRun t changed).1 (thenRun t changed).2 := by
  obtain ⟨s', e | ⟨⟩⟩ := changed
  · exact .answers (.failed e) hawaits hc.generation hc.waiters fun _ => ⟨e, rfl⟩
  · exact hc.startRun hawaits none false

/-! ### Decisions -/

/-- Only when a domain goes on the whitelist does a decision start a run. -/
theorem sameWaiters_decide (s : Service) (waiter : Option Waiter)
    (change : BlockDecisions × List DecisionEffect)
    (h : ∀ domain, .whitelist domain ∉ change.2) : SameWaiters s (s.decide waiter change) := by
  refine decide_induction (P := SameWaiters s) ⟨rfl, rfl⟩ fun effect heffect s' hs => ?_
  cases effect with
  | whitelist domain => exact absurd heffect (h domain)
  | _ => exact ⟨hs.generation, hs.waiters⟩

/-- A decision that starts no run is answered at once. -/
theorem serves_tryDecide {change : BlockDecisions × Except Failure (List DecisionEffect)}
    (hawaits : s.awaits? c = none) (hc : ¬c.MayStartRun)
    (h : ∀ effects, change.2 = .ok effects → ∀ domain, .whitelist domain ∉ effects) :
    Serves s t c (s.tryDecide none change).1 (replyOf (s.tryDecide none change).2) := by
  obtain ⟨b, e | effects⟩ := change
  · exact .answers (.failed e) hawaits rfl rfl fun _ => ⟨e, rfl⟩
  · have hsame := s.sameWaiters_decide none (b, effects) (h _ rfl)
    exact .answers .done hawaits hsame.generation hsame.waiters fun hmay => absurd hmay hc

theorem serves_whitelistDomain (hsame : SameWaiters s s') {awaited : Awaited}
    (hawaits : s.awaits? c = some awaited) (domain : String) :
    Serves s t c (s'.whitelistDomain domain (some ⟨t, awaited⟩)) none := by
  rw [whitelistDomain]
  refine SameWaiters.startRun (hsame.trans ?_) hawaits none false
  split <;> exact ⟨rfl, rfl⟩

theorem Serves.reload {reply : Option Reply} (h : Serves s t c s' reply) (x : Surface)
    (url : String) : Serves s t c (s'.reload x url) reply := by
  cases h with
  | waits awaited awaits generation waiters => exact .waits awaited awaits generation waiters
  | answers reply awaits generation waiters refused =>
    exact .answers reply awaits generation waiters refused

theorem serves_whitelistPermanently (s : Service) (t : Ticket) (id : SessionId) :
    Serves s t (.whitelistPermanently id) (s.handle t (.whitelistPermanently id)).1
      (s.handle t (.whitelistPermanently id)).2 := by
  rw [handle]
  have hawaits : s.awaits? (.whitelistPermanently id) =
      (s.decisions.whitelistPermanently id).2.toOption.map fun _ => .outcome := rfl
  rcases hchange : s.decisions.whitelistPermanently id with ⟨b, e | effects⟩
  · rw [hchange] at hawaits
    exact .answers (.failed e) hawaits rfl rfl fun _ => ⟨e, rfl⟩
  · rw [hchange] at hawaits
    obtain ⟨x, url, domain, rfl⟩ := effects_whitelistPermanently (congrArg Prod.snd hchange)
    let dismissed : Service :=
      { s with decisions := b, store := s.store.tell (.dismiss x id) }
    have hsame : SameWaiters s dismissed := ⟨rfl, rfl⟩
    exact (serves_whitelistDomain hsame hawaits domain).reload x url

/-! ### Commands -/

theorem serves_handle (s : Service) (t : Ticket) (c : Command) :
    Serves s t c (s.handle t c).1 (s.handle t c).2 := by
  have hdone {s' : Service} {c : Command} {reply : Reply} (h : SameWaiters s s')
      (hawaits : s.awaits? c = none) (hc : ¬c.MayStartRun) : Serves s t c s' (some reply) :=
    .answers reply hawaits h.generation h.waiters fun hmay => absurd hmay hc
  cases c with
  | startUp =>
    have hstarted : SameWaiters s { s with startedUp := true } := ⟨rfl, rfl⟩
    exact hstarted.startRun rfl s.reusable false
  | toggle => exact s.sameWaiters_toggle.startRun rfl none false
  | addToWhitelist entry => exact serves_thenRun rfl (s.edits_addToWhitelist entry).sameWaiters
  | removeFromWhitelist entry =>
    exact serves_thenRun rfl (s.edits_removeFromWhitelist entry).sameWaiters
  | updateLists => exact s.sameWaiters_refl.startRun rfl none true
  | setListEnabled id enabled =>
    exact serves_thenRun rfl (s.edits_setListEnabled id enabled).sameWaiters
  | addList name url =>
    have hawaits : s.awaits? (.addList name url) = (s.addList name url).2.toOption.map .added := rfl
    have hsame := (s.edits_addList name url).sameWaiters
    rw [handle]
    split
    · next s' list hadd =>
      rw [hadd] at hawaits hsame
      exact hsame.startRun hawaits none false
    · next s' e hadd =>
      rw [hadd] at hawaits hsame
      exact .answers (.failed e) hawaits hsame.generation hsame.waiters fun _ => ⟨e, rfl⟩
  | removeList id => exact serves_thenRun rfl (s.edits_removeList id).sameWaiters
  | register surface => exact hdone (s.sameWaiters_register surface) rfl id
  | unregister surface =>
    have hsame := s.sameWaiters_decide none _ (whitelist_not_mem_close s.decisions surface)
    exact hdone ⟨hsame.generation, hsame.waiters⟩ rfl id
  | reportBlock surface url code =>
    have hsame := sameWaiters_decide { s with nextSession := s.nextSession.next } none _
      (whitelist_not_mem_signal s.decisions s.whitelist s.nextSession surface url code)
    exact hdone ⟨hsame.generation, hsame.waiters⟩ rfl id
  | continueOnce id =>
    exact serves_tryDecide rfl (fun h => h) fun _ => whitelist_not_mem_continueOnce
  | whitelistPermanently id => exact s.serves_whitelistPermanently t id
  | cancel id => exact serves_tryDecide rfl (fun h => h) fun _ => whitelist_not_mem_cancel
  | recordRequest => exact hdone ⟨rfl, rfl⟩ rfl id
  | recordBlocked url page size => exact hdone ⟨rfl, rfl⟩ rfl id
  | recordPageLoad url => exact hdone ⟨rfl, rfl⟩ rfl id
  | resetSession => exact hdone ⟨rfl, rfl⟩ rfl id

/-! ### The end of a run -/

/-- What is reported of a run that has ended with this output. -/
def outcomeFor (s : Service) (g : Nat) (output : RunOutput) : CompileOutcome where
  generation := g
  installed := s.store.installedGeneration ≤ g
  enabled := s.isEnabled
  artifacts := output.artifacts
  fallback := output.fallback
  reused := output.reused
  dropped := output.dropped

theorem install_snd (s : Service) (g : Nat) (artifacts : List Artifact) :
    (s.install g artifacts).2 = Decidable.decide (s.store.installedGeneration ≤ g) := by
  rw [install, ArtifactStore.install]
  by_cases hg : g < s.store.installedGeneration
  · rw [if_pos hg]
    simpa using hg
  · rw [if_neg hg]
    simpa using hg

theorem outcomeOf_snd (s : Service) (g : Nat) (output : Except Failure RunOutput) :
    (s.outcomeOf g output).2 = output.map (s.outcomeFor g) := by
  cases output with
  | error e => rfl
  | ok output =>
    obtain ⟨registry, disk, hmarked⟩ := s.markUpdated_eq output.refreshed
    obtain ⟨disk', hinstall⟩ := install_eq { s with registry := registry, disk := disk } g output
    have hinstalled :=
      install_snd { s with registry := registry, disk := disk } g output.artifacts
    rw [outcomeOf, hmarked]
    dsimp only
    rw [hinstalled, hinstall]
    rfl

/-- The client that waits for the run is answered, and does not wait any more. -/
theorem finishWith_waiters (s : Service) (g : Nat) (output : Except Failure RunOutput) :
    (s.finishWith g output).1.waiters = s.waiters.erase g ∧
      (s.finishWith g output).2 = (s.waiters.get? g).map fun w =>
        (w.ticket, w.awaited.reply (output.map (s.outcomeFor g))) := by
  obtain ⟨registry, disk, houtcome⟩ := outcomeOf_eq { s with runs := s.runs.erase g } g output
  have hreply := outcomeOf_snd { s with runs := s.runs.erase g } g output
  rw [finishWith]
  dsimp only
  rw [houtcome, hreply]
  cases hw : s.waiters.get? g with
  | none =>
    rw [Table.erase_of_get?_eq_none hw]
    exact ⟨rfl, rfl⟩
  | some w => exact ⟨rfl, rfl⟩

/-! ### All requests and answers -/

/-- A client that waits for a run, or has waited for it. -/
structure Request where
  /-- The number of the run. -/
  generation : Nat
  waiter : Waiter

/-- The request that an event is, if it starts a run. -/
def request? (s : Service) : Event → Option Request
  | .command t c => (s.awaits? c).map fun awaited => ⟨s.generation + 1, ⟨t, awaited⟩⟩
  | _ => none

/-- The requests for runs among some events, in their order. -/
def requests (s : Service) : List Event → List Request
  | [] => []
  | event :: events => (s.request? event).toList ++ (s.step event).1.requests events

/-- The answers that the clients got, in their order. -/
def answers (s : Service) : List Event → List (Ticket × Reply)
  | [] => []
  | event :: events => (s.step event).2.toList ++ (s.step event).1.answers events

/-- The ticket of a command. -/
def Event.ticket? : Event → Option Ticket
  | .command t _ => some t
  | _ => none

/-- The clients that wait are those whose runs have been started and have not ended; the
    runs are numbered in the order of their commands, and every command was answered
    once or has a client that waits. -/
structure Ledger (s : Service) (requests : List Request) (ended : List Nat)
    (asked answered : List Ticket) : Prop where
  numbers : requests.map (·.generation) = List.range' 1 s.generation
  waiting : ∀ g w, s.waiters.get? g = some w ↔ ⟨g, w⟩ ∈ requests ∧ g ∉ ended
  keys : s.waiters.keys.Nodup
  accounted : (answered ++ s.waiters.values.map (·.ticket)).Perm asked

theorem map_ticket_values (waiters : Table Nat Waiter) :
    waiters.values.map (·.ticket) = waiters.map (·.2.ticket) := by
  rw [Table.values, List.map_map]
  rfl

namespace Ledger

variable {requests : List Request} {ended : List Nat} {asked answered : List Ticket}

theorem congr (h : s.Ledger requests ended asked answered) (hsame : SameWaiters s s') :
    s'.Ledger requests ended asked answered := by
  obtain ⟨hgeneration, hwaiters⟩ := hsame
  refine ⟨?_, ?_, ?_, ?_⟩
  · rw [hgeneration]
    exact h.numbers
  · rw [hwaiters]
    exact h.waiting
  · rw [hwaiters]
    exact h.keys
  · rw [hwaiters]
    exact h.accounted

/-- A number that has not been handed out is not waited for. -/
theorem get?_eq_none (h : s.Ledger requests ended asked answered) {g : Nat}
    (hg : s.generation < g) : s.waiters.get? g = none := by
  cases hw : s.waiters.get? g with
  | none => rfl
  | some w =>
    have hmem : g ∈ requests.map (·.generation) :=
      List.mem_map_of_mem ((h.waiting g w).1 hw).1
    rw [h.numbers, List.mem_range'_1] at hmem
    omega

theorem wait (h : s.Ledger requests ended asked answered) (htally : s.Tally ended) (w : Waiter)
    (hgeneration : s'.generation = s.generation + 1)
    (hwaiters : s'.waiters = s.waiters.set (s.generation + 1) w) :
    s'.Ledger (requests ++ [⟨s.generation + 1, w⟩]) ended (asked ++ [w.ticket]) answered where
  numbers := by
    rw [List.map_append, h.numbers, hgeneration, List.range'_concat]
    simp [Nat.add_comm]
  waiting g v := by
    have hwaiting := h.waiting g v
    have hnew : s.generation + 1 ∉ ended := fun hmem => by
      have hissued := (htally.issued _ hmem).2
      omega
    rw [hwaiters, Table.get?_set]
    split
    · next hg =>
      subst hg
      have hnone := h.get?_eq_none (Nat.lt_succ_self _)
      rw [hnone] at hwaiting
      simp only [reduceCtorEq, false_iff, not_and] at hwaiting
      constructor
      · rintro heq
        obtain rfl := Option.some.inj heq
        exact ⟨by simp, hnew⟩
      · rintro ⟨hmem, -⟩
        rcases List.mem_append.1 hmem with hmem | hmem
        · exact absurd hnew (hwaiting hmem)
        · rw [(Request.mk.inj (List.mem_singleton.1 hmem)).2]
    · next hg =>
      rw [hwaiting]
      simp [hg]
  keys := by
    rw [hwaiters]
    exact Table.nodup_keys_set h.keys (h.get?_eq_none (Nat.lt_succ_self _)) w
  accounted := by
    have hperm := (Table.perm_set (h.get?_eq_none (Nat.lt_succ_self _)) w).map (·.2.ticket)
    have haccounted := h.accounted
    rw [map_ticket_values] at haccounted
    rw [hwaiters, map_ticket_values]
    have hmoved := (List.Perm.append_left answered hperm).trans List.perm_middle
    exact (hmoved.trans (haccounted.cons w.ticket)).trans (List.perm_append_singleton _ _).symm

/-- The client of a run in flight waits. -/
theorem exists_waiter (h : s.Ledger requests ended asked answered) (htally : s.Tally ended)
    {g : Nat} (hg : s.InFlight g) : ∃ w, s.waiters.get? g = some w := by
  obtain ⟨hpos, hissued, hnot⟩ := (htally.inFlight g).1 hg
  have hmem : g ∈ requests.map (·.generation) := by
    rw [h.numbers, List.mem_range'_1]
    omega
  obtain ⟨⟨g', w⟩, hrequest, rfl⟩ := List.mem_map.1 hmem
  exact ⟨w, (h.waiting _ w).2 ⟨hrequest, hnot⟩⟩

theorem finish (h : s.Ledger requests ended asked answered) {g : Nat} {w : Waiter}
    (hw : s.waiters.get? g = some w) (hgeneration : s'.generation = s.generation)
    (hwaiters : s'.waiters = s.waiters.erase g) :
    s'.Ledger requests (ended ++ [g]) asked (answered ++ [w.ticket]) where
  numbers := by
    rw [hgeneration]
    exact h.numbers
  waiting g' v := by
    have hwaiting := h.waiting g' v
    rw [hwaiters, Table.get?_erase]
    split
    · next hg => simp [hg]
    · next hg =>
      rw [hwaiting]
      simp [hg]
  keys := by
    rw [hwaiters]
    exact Table.nodup_keys_erase h.keys g
  accounted := by
    have hperm := (Table.perm_erase h.keys hw).map (·.2.ticket)
    have haccounted := h.accounted
    rw [map_ticket_values] at haccounted
    rw [hwaiters, map_ticket_values, List.append_assoc]
    exact (List.Perm.append_left answered hperm.symm).trans haccounted

/-- A command that is answered at once. -/
theorem answer (h : s.Ledger requests ended asked answered) (hsame : SameWaiters s s')
    (t : Ticket) : s'.Ledger requests ended (asked ++ [t]) (answered ++ [t]) := by
  have hkept := h.congr hsame
  refine ⟨hkept.numbers, hkept.waiting, hkept.keys, ?_⟩
  rw [List.append_assoc]
  have hmoved : (answered ++ ([t] ++ s'.waiters.values.map (·.ticket))).Perm
      (t :: (answered ++ s'.waiters.values.map (·.ticket))) := List.perm_middle
  exact (hmoved.trans (hkept.accounted.cons t)).trans (List.perm_append_singleton t asked).symm

end Ledger

/-! ### Steps -/

theorem sameWaiters_changeRun (s : Service) (g : Nat) (change : CompileRun → CompileRun) :
    SameWaiters s (s.changeRun g change) := by
  rw [changeRun]
  split <;> exact ⟨rfl, rfl⟩

theorem sameWaiters_reattach (s : Service) (surface : Surface) (number : Nat) :
    SameWaiters s (s.reattach surface number) := by
  rw [reattach]
  split <;> exact ⟨rfl, rfl⟩

/-- Only commands and the ends of runs matter to those who wait. -/
theorem sameWaiters_step {event : Event} (hending : s.ending? event = none)
    (hcommand : event.ticket? = none) :
    SameWaiters s (s.step event).1 ∧ (s.step event).2 = none := by
  cases event with
  | command t c => cases hcommand
  | lookUp g => exact ⟨s.sameWaiters_changeRun g _, rfl⟩
  | beginList g now i => exact ⟨s.sameWaiters_changeRun g _, rfl⟩
  | finishList g now i reply =>
    refine ⟨?_, rfl⟩
    rw [step, finishList]
    split <;> exact ⟨rfl, rfl⟩
  | compileRun g =>
    refine ⟨?_, rfl⟩
    rw [step, compileRun]
    split <;> exact ⟨rfl, rfl⟩
  | finishRun g =>
    rw [step, finishRun]
    split
    · next request output hr => exact (not_finish_of_ending? hending rfl hr rfl).elim
    · exact ⟨s.sameWaiters_refl, rfl⟩
  | elapse ms =>
    refine ⟨elapse_induction (P := SameWaiters s) s ms (fun _ => ⟨rfl, rfl⟩) ?_, rfl⟩
    exact fun s' surface number h => h.trans (s'.sameWaiters_reattach surface number)
  | reattach r =>
    rw [step]
    split
    · have hforgot : SameWaiters s { s with reattachments := s.reattachments.erase r } := ⟨rfl, rfl⟩
      exact ⟨hforgot.trans (sameWaiters_reattach _ r.surface r.number), rfl⟩
    · exact ⟨s.sameWaiters_refl, rfl⟩
  | evict =>
    refine ⟨?_, rfl⟩
    rw [step, evict]
    split <;> exact ⟨rfl, rfl⟩
  | fail identifiers => exact ⟨⟨rfl, rfl⟩, rfl⟩
  | files disk => exact ⟨⟨rfl, rfl⟩, rfl⟩

/-- The end of a run answers its own client. -/
theorem finish_step {event : Event} {x : Ending} (hending : s.ending? event = some x) {w : Waiter}
    (hw : s.waiters.get? x.generation = some w) :
    (s.step event).1.generation = s.generation ∧
      (s.step event).1.waiters = s.waiters.erase x.generation ∧
      (s.step event).2 = some
        (w.ticket, w.awaited.reply (x.output.map (s.outcomeFor x.generation))) := by
  obtain ⟨registry, disk, waiters, heq⟩ := s.finishWith_eq x.generation x.output
  obtain ⟨hwaiters, hreply⟩ := s.finishWith_waiters x.generation x.output
  rw [step_of_ending? hending]
  refine ⟨?_, hwaiters, ?_⟩
  · rw [heq]
  · rw [hreply, hw]
    rfl

theorem Ledger.step {requests : List Request} {ended : List Nat} {asked answered : List Ticket}
    (h : s.Ledger requests ended asked answered) (htally : s.Tally ended) (event : Event) :
    (s.step event).1.Ledger (requests ++ (s.request? event).toList)
      (ended ++ (s.ending? event).toList.map (·.generation)) (asked ++ event.ticket?.toList)
      (answered ++ (s.step event).2.toList.map (·.1)) := by
  cases hending : s.ending? event with
  | some x =>
    obtain ⟨rfl, r, hr, -⟩ := ending?_eq_some.1 hending
    obtain ⟨w, hw⟩ := h.exists_waiter htally ⟨r, hr⟩
    obtain ⟨hgeneration, hwaiters, hreply⟩ := finish_step hending hw
    rw [hreply]
    simpa [request?, Event.ticket?] using h.finish hw hgeneration hwaiters
  | none =>
    cases hticket : event.ticket? with
    | none =>
      obtain ⟨hsame, hreply⟩ := sameWaiters_step hending hticket
      have hrequest : s.request? event = none := by
        cases event with
        | command t c => cases hticket
        | _ => rfl
      rw [hreply, hrequest]
      simpa using h.congr hsame
    | some t =>
      cases event with
      | command t' c =>
        obtain rfl := Option.some.inj hticket
        have hserves := s.serves_handle t' c
        have hstep : s.step (.command t' c) =
            ((s.handle t' c).1, (s.handle t' c).2.map (t', ·)) := rfl
        rw [hstep, request?]
        generalize s.handle t' c = handled at hserves
        obtain ⟨s', reply⟩ := handled
        cases hserves with
        | waits awaited awaits generation waiters =>
          rw [awaits]
          simpa using h.wait htally ⟨t', awaited⟩ generation waiters
        | answers reply awaits generation waiters refused =>
          rw [awaits]
          simpa using h.answer ⟨generation, waiters⟩ t'
      | _ => cases hticket

/-! ### All events -/

/-- The tickets of the commands among some events. -/
def asked (events : List Event) : List Ticket := events.filterMap Event.ticket?

/-- The tickets of the answers, in their order. -/
def answered (s : Service) (events : List Event) : List Ticket := (s.answers events).map (·.1)

theorem requests_append (s : Service) (events events' : List Event) :
    s.requests (events ++ events') =
      s.requests events ++ (s.after events).requests events' := by
  induction events generalizing s with
  | nil => rfl
  | cons event events ih =>
    rw [List.cons_append, requests, requests, ih, List.append_assoc]
    rfl

theorem answers_append (s : Service) (events events' : List Event) :
    s.answers (events ++ events') = s.answers events ++ (s.after events).answers events' := by
  induction events generalizing s with
  | nil => rfl
  | cons event events ih =>
    rw [List.cons_append, answers, answers, ih, List.append_assoc]
    rfl

theorem ledger_of_start {config : Config} {around : Surroundings} {first : SessionId}
    (h : start config around first = .ok s) : s.Ledger [] [] [] [] := by
  rw [start] at h
  obtain ⟨config, -, h⟩ := exists_of_bind_eq_ok h
  obtain rfl := Except.ok.inj h
  refine ⟨rfl, fun g w => ?_, List.nodup_nil, .refl _⟩
  have hnone : (none : Option Waiter) ≠ some w := (Option.some_ne_none w).symm
  exact ⟨fun hw => absurd hw hnone, fun hrequest => absurd hrequest.1 List.not_mem_nil⟩

/-- After any events, those who wait are the clients of the runs in flight, and every
    command was answered once or has a client that waits. -/
theorem ledger_after {config : Config} {around : Surroundings} {first : SessionId}
    (h : start config around first = .ok s) (events : List Event) :
    (s.after events).Ledger (s.requests events) (s.ended events) (asked events)
      (s.answered events) := by
  induction events using List.reverseRecOn with
  | nil => exact ledger_of_start h
  | append_singleton events event ih =>
    have hasked : asked (events ++ [event]) = asked events ++ event.ticket?.toList := by
      rw [asked, List.filterMap_append, asked]
      cases hticket : event.ticket? with
      | none => rw [List.filterMap_cons_none hticket]; rfl
      | some t => rw [List.filterMap_cons_some hticket]; rfl
    have hanswered : s.answered (events ++ [event]) =
        s.answered events ++ ((s.after events).step event).2.toList.map (·.1) := by
      rw [answered, answers_append, List.map_append, answers, answers, List.append_nil, answered]
    have hrequests : s.requests (events ++ [event]) =
        s.requests events ++ ((s.after events).request? event).toList := by
      rw [requests_append, requests, requests, List.append_nil]
    rw [hasked, hanswered, hrequests, ended_concat, after_append]
    exact ih.step (tally_after (fresh_of_start h) events) event

/-- Whoever waits is answered by the run they wait for, and every command is answered
    once. -/
structure AnswersOnce (s : Service) (events : List Event) : Prop where
  /-- Runs are numbered in the order of their commands. -/
  numbers : (s.requests events).map (·.generation) = List.range' 1 (s.after events).generation
  /-- The runs that are waited for have been started and have not ended. -/
  keys : ∀ g, (s.after events).waiters.has g = true ↔
    0 < g ∧ g ≤ (s.after events).generation ∧ g ∉ s.ended events
  waiting : ∀ g w, (s.after events).waiters.get? g = some w ↔
    ⟨g, w⟩ ∈ s.requests events ∧ g ∉ s.ended events
  /-- No run ends twice. -/
  once : (s.ended events).Nodup
  /-- Every command was answered once, or its client waits. -/
  accounted : (s.answered events ++ (s.after events).waiters.values.map (·.ticket)).Perm
    (asked events)
  serves : ∀ t c, (s.after events).Serves t c ((s.after events).handle t c).1
    ((s.after events).handle t c).2
  /-- The end of a run answers the client that has asked for that run. -/
  finishes : ∀ event x, (s.after events).ending? event = some x →
    ∃ w, ⟨x.generation, w⟩ ∈ s.requests events ∧
      ((s.after events).step event).1.waiters = (s.after events).waiters.erase x.generation ∧
      ((s.after events).step event).2 = some
        (w.ticket, w.awaited.reply (x.output.map ((s.after events).outcomeFor x.generation)))
  /-- Nothing else is answered. -/
  quiet : ∀ event, (s.after events).ending? event = none → event.ticket? = none →
    SameWaiters (s.after events) ((s.after events).step event).1 ∧
      ((s.after events).step event).2 = none
  /-- The parts of a run in flight bring it to its end, whatever its downloads give. -/
  ends : ∀ g, (s.after events).InFlight g →
    ∃ n maxShards, ∀ now reply, (s.after events).ended (toEnd g n maxShards now reply) = [g]

/-- Every command is answered once, whatever order commands and the ends of runs come
    in: at once, or by the run that it starts. -/
theorem answersOnce {config : Config} {around : Surroundings} {first : SessionId}
    (hstart : start config around first = .ok s) (events : List Event) : s.AnswersOnce events := by
  have hfresh := fresh_of_start hstart
  have hledger := ledger_after hstart events
  have htally := tally_after hfresh events
  have hwaits (g : Nat) : (s.after events).waiters.has g = true ↔ (s.after events).InFlight g := by
    rw [Table.has, Option.isSome_iff_exists]
    refine ⟨?_, hledger.exists_waiter htally⟩
    rintro ⟨w, hw⟩
    obtain ⟨hrequest, hnot⟩ := (hledger.waiting g w).1 hw
    have hissued : g ∈ (s.requests events).map (·.generation) :=
      List.mem_map_of_mem (f := (·.generation)) hrequest
    rw [hledger.numbers, List.mem_range'_1] at hissued
    exact (htally.inFlight g).2 ⟨by omega, by omega, hnot⟩
  refine ⟨hledger.numbers, fun g => (hwaits g).trans (htally.inFlight g), hledger.waiting,
    htally.once, hledger.accounted, serves_handle _, fun event x hending => ?_,
    fun _ => sameWaiters_step, fun g hg => ?_⟩
  · obtain ⟨-, r, hr, -⟩ := ending?_eq_some.1 hending
    obtain ⟨w, hw⟩ := hledger.exists_waiter htally ⟨r, hr⟩
    obtain ⟨-, hwaiters, hreply⟩ := finish_step hending hw
    exact ⟨w, ((hledger.waiting _ w).1 hw).1, hwaiters, hreply⟩
  · obtain ⟨r, hr⟩ := hg
    exact ⟨r.request.lists.length, r.request.maxShards,
      ended_toEnd (everyRun_after keptByRuns_isWhole hfresh events) hr⟩

/-- The engine compiles nothing. -/
def beforeOvertaking : Surroundings where
  engine := { failing := ["shard_0", "minimal"] }

/-- Two runs are started, and the second one ends first; then a command is refused. -/
def overtakenEvents : List Event :=
  [.command 1 .startUp, .command 2 .toggle] ++ toEnd 2 2 1 0 (fun _ => .error (.status 503)) ++
    [.command 3 (.removeList "easylist")] ++ toEnd 1 2 1 0 fun _ => .error (.status 503)

theorem answered_overtakenEvents : ∀ s ∈ (start {} beforeOvertaking .nil).toOption,
    s.answered overtakenEvents = [2, 3, 1] := by
  decide +kernel

theorem answersOnce_overtaken : ∃ s, start {} beforeOvertaking .nil = .ok s ∧
    s.AnswersOnce overtakenEvents ∧ s.answered overtakenEvents = [2, 3, 1] := by
  obtain ⟨s, hstart⟩ :=
    exists_start (show Config.validate {} = .ok {} from rfl) beforeOvertaking .nil
  exact ⟨s, hstart, answersOnce hstart overtakenEvents,
    answered_overtakenEvents s (by rw [hstart]; rfl)⟩

end Service

end ContentBlocking
