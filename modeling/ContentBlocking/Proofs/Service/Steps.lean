import ContentBlocking.Proofs.Except
import ContentBlocking.Service.Basic

/-!
# Steps of the service

The service handles one thing at a time, but between two commands the parts of
any run may be done, timers may be late, and the files and the engine may change
without it. An `Event` is one of these things, and `Service.after` the service
after some of them in a row.

Commands do little to the runs and to what the surfaces run. `Quiet` says that a
change leaves all of that alone, and `KeptByParts.handle` that a command is made
of quiet changes and of a few others. Most commands are made of even fewer, as
`KeptByMostParts.handle` says. What becomes of the whitelist and of the lists when they
are edited is said by `addToWhitelist_cases` and the lemmas beside it.
-/

namespace ContentBlocking

/-- The command neither turns blocking on or off nor registers a surface. -/
def Command.IsCommon : Command → Prop
  | .toggle | .register _ => False
  | _ => True

namespace Service

/-- What happens next. -/
inductive Event where
  | command (t : Ticket) (c : Command)
  /-- A run looks for the artifacts of an earlier one. -/
  | lookUp (generation : Nat)
  /-- A run begins to load a list. -/
  | beginList (generation : Nat) (now : UInt64) (i : Nat)
  | finishList (generation : Nat) (now : UInt64) (i : Nat) (reply : FetchReply)
  /-- A run plans its shards, or has the engine compile the next of them. -/
  | compileRun (generation : Nat)
  /-- The end of a run is dealt with. -/
  | finishRun (generation : Nat)
  | elapse (ms : Nat)
  /-- A suspension is lifted, however early or late that is. -/
  | reattach (r : Reattachment)
  | evict
  /-- From now on the engine fails on these identifiers. -/
  | fail (identifiers : List String)
  /-- The files are not what they were. -/
  | files (disk : Disk)

/-- A run with two lists finds neither of them. -/
def findNoList (g : Nat) : List Event :=
  [.lookUp g, .beginList g 0 0, .beginList g 0 1, .finishList g 0 0 (.error (.status 503)),
    .finishList g 0 1 (.error (.status 503))]

/-- Parts of the compile of run `g`, with nothing between them. -/
def compileParts (g n : Nat) : List Event := List.replicate n (.compileRun g)

/-- The last parts of run `g`, which has its lists and `n` shards to be compiled. -/
def toFinish (g n : Nat) : List Event := compileParts g (n + 2) ++ [.finishRun g]

/-- The service after an event, and the answer that a client gets. -/
def step (s : Service) : Event → Service × Option (Ticket × Reply)
  | .command t c =>
    let (s, reply) := s.handle t c
    (s, reply.map (t, ·))
  | .lookUp generation => (s.lookUp generation, none)
  | .beginList generation now i => (s.beginList generation now i, none)
  | .finishList generation now i reply => (s.finishList generation now i reply, none)
  | .compileRun generation => (s.compileRun generation, none)
  | .finishRun generation => s.finishRun generation
  | .elapse ms => (s.elapse ms, none)
  | .reattach r =>
    if r ∈ s.reattachments then
      ({ s with reattachments := s.reattachments.erase r }.reattach r.surface r.number, none)
    else (s, none)
  | .evict => (s.evict, none)
  | .fail identifiers =>
    ({ s with store.engine.failing := identifiers }, none)
  | .files disk => ({ s with disk := disk }, none)

/-- The service after some events. -/
def after (s : Service) (events : List Event) : Service :=
  events.foldl (fun s event => (s.step event).1) s

theorem after_cons (s : Service) (event : Event) (events : List Event) :
    s.after (event :: events) = (s.step event).1.after events := rfl

theorem after_append (s : Service) (events events' : List Event) :
    s.after (events ++ events') = (s.after events).after events' := List.foldl_append

/-- What holds at first and is kept up by every step holds after all events. -/
theorem after_induction {P : Service → Prop} (hstep : ∀ s event, P s → P (s.step event).1)
    {s : Service} (h : P s) (events : List Event) : P (s.after events) := by
  induction events generalizing s with
  | nil => exact h
  | cons event events ih => exact ih (hstep s event h)

/-- Lifts suspensions, one after the other. -/
def lift (s : Service) (due : List Reattachment) : Service :=
  due.foldl (fun s r => s.reattach r.surface r.number) s

theorem lift_induction {P : Service → Prop}
    (hreattach : ∀ (s : Service) surface number, P s → P (s.reattach surface number))
    {s : Service} (h : P s) (due : List Reattachment) : P (s.lift due) := by
  induction due generalizing s with
  | nil => exact h
  | cons r due ih => exact ih (hreattach _ _ _ h)

/-- What is kept up by lifting suspensions is kept up while time passes. -/
theorem elapse_induction {P : Service → Prop} (s : Service) (ms : Nat)
    (hstart : ∀ later, P { s with clock := s.clock + ms, reattachments := later })
    (hreattach : ∀ (s : Service) surface number, P s → P (s.reattach surface number)) :
    P (s.elapse ms) :=
  lift_induction hreattach (hstart _) _

/-! ### The start -/

/-- A configuration that is accepted is used as it is. -/
theorem eq_of_validate {config config' : Config} (h : config.validate = .ok config') :
    config' = config := by
  rw [Config.validate] at h
  split at h
  · cases h
  · split at h
    · cases h
    · split at h
      · cases h
      · exact (Except.ok.inj h).symm

/-- A good configuration is enough for a start. -/
theorem exists_start {config config' : Config} (h : config.validate = .ok config')
    (around : Surroundings) (first : SessionId) : ∃ s, start config around first = .ok s := by
  rw [start, h]
  exact ⟨_, rfl⟩

/-- At first there are no runs and no surfaces, and nothing is in force. -/
structure Fresh (around : Surroundings) (s : Service) : Prop where
  store : s.store = { engine := around.engine, shell := around.shell }
  generation : s.generation = 0
  runs : s.runs = []

theorem fresh_of_start {config : Config} {around : Surroundings} {first : SessionId} {s : Service}
    (h : start config around first = .ok s) : Fresh around s := by
  rw [start] at h
  obtain ⟨config, -, h⟩ := exists_of_bind_eq_ok h
  obtain rfl := Except.ok.inj h
  exact ⟨rfl, rfl, rfl⟩

/-! ### Commands -/

/-- Between `s` and `s'` nothing happens to the runs, to the artifacts and the
    surfaces, and to whether blocking is on. -/
structure Quiet (s s' : Service) : Prop where
  store : s'.store = { s.store with shell := s'.store.shell }
  isEnabled : s'.isEnabled = s.isEnabled
  config : s'.config = s.config
  generation : s'.generation = s.generation
  runs : s'.runs = s.runs
  reattachments : s'.reattachments = s.reattachments

theorem quiet_refl (s : Service) : s.Quiet s := ⟨rfl, rfl, rfl, rfl, rfl, rfl⟩

theorem Quiet.trans {s s' s'' : Service} (h : s.Quiet s') (h' : s'.Quiet s'') : s.Quiet s'' where
  store := by rw [h'.store, h.store]
  isEnabled := h'.isEnabled.trans h.isEnabled
  config := h'.config.trans h.config
  generation := h'.generation.trans h.generation
  runs := h'.runs.trans h.runs
  reattachments := h'.reattachments.trans h.reattachments

theorem quiet_markUpdated (s : Service) (refreshed : List (String × UInt64)) :
    s.Quiet (s.markUpdated refreshed) := by
  rw [markUpdated]
  induction refreshed generalizing s with
  | nil => exact s.quiet_refl
  | cons x refreshed ih =>
    have hfirst : s.Quiet { s with
        registry := (s.registry.markUpdated s.disk x.1 x.2).1
        disk := (s.registry.markUpdated s.disk x.1 x.2).2 } := ⟨rfl, rfl, rfl, rfl, rfl, rfl⟩
    exact hfirst.trans (ih _)

/-- A domain that is new on the whitelist is saved, and nothing else changes. -/
theorem addToWhitelist_cases (s : Service) (entry : String) :
    (s.addToWhitelist entry).1 = s ∨
      ∃ domain, s.whitelist.add entry = (s.whitelist.insert domain, .ok (domain, true)) ∧
        (s.addToWhitelist entry).1 =
          { s with whitelist := s.whitelist.insert domain }.saveWhitelist := by
  rw [addToWhitelist]
  rcases s.whitelist.add_cases entry with
    ⟨domain, -, -, hadd⟩ | ⟨domain, -, -, hadd⟩ | ⟨e, -, hadd⟩ <;> rw [hadd]
  · exact .inr ⟨domain, rfl, rfl⟩
  · exact .inl rfl
  · exact .inl rfl

theorem removeFromWhitelist_cases (s : Service) (entry : String) :
    (s.removeFromWhitelist entry).1 = s ∨
      ∃ domain, s.whitelist.remove entry = (s.whitelist.erase domain, .ok true) ∧
        (s.removeFromWhitelist entry).1 =
          { s with whitelist := s.whitelist.erase domain }.saveWhitelist := by
  rw [removeFromWhitelist]
  rcases s.whitelist.remove_cases entry with
    ⟨domain, -, -, hremove⟩ | ⟨domain, -, -, hremove⟩ | ⟨e, -, hremove⟩ <;> rw [hremove]
  · exact .inr ⟨domain, rfl, rfl⟩
  · exact .inl rfl
  · exact .inl rfl

theorem setListEnabled_fst (s : Service) (id : String) (enabled : Bool) :
    (s.setListEnabled id enabled).1 = { s with
      registry := (s.registry.setEnabled s.disk id enabled).1
      disk := (s.registry.setEnabled s.disk id enabled).2.1 } := rfl

theorem addList_fst (s : Service) (name url : String) :
    (s.addList name url).1 = { s with
      registry := (s.registry.add s.disk name url).1
      disk := (s.registry.add s.disk name url).2.1 } := rfl

theorem addList_snd (s : Service) (name url : String) :
    (s.addList name url).2 = (s.registry.add s.disk name url).2.2 := by
  rw [addList]

/-- The copy of a list that is removed is to leave the cache. -/
theorem removeList_cases (s : Service) (id : String) :
    (∃ list, (s.registry.remove s.disk id).2.2 = .ok list ∧ s.removeList id = ({ s with
      registry := (s.registry.remove s.disk id).1
      disk := (s.registry.remove s.disk id).2.1
      evictions := s.evictions ++ [list.id] }, .ok ())) ∨
    ∃ e, (s.registry.remove s.disk id).2.2 = .error e ∧ s.removeList id = ({ s with
      registry := (s.registry.remove s.disk id).1
      disk := (s.registry.remove s.disk id).2.1 }, .error e) := by
  rw [removeList]
  generalize s.registry.remove s.disk id = removed
  obtain ⟨registry, disk, e | list⟩ := removed
  · exact .inr ⟨e, rfl, rfl⟩
  · exact .inl ⟨list, rfl, rfl⟩

/-- Between `s` and `s'` at most the lists, the settings and the whitelist are edited. -/
structure Edits (s s' : Service) : Prop extends Quiet s s' where
  waiters : s'.waiters = s.waiters

theorem edits_refl (s : Service) : s.Edits s := ⟨s.quiet_refl, rfl⟩

theorem edits_addToWhitelist (s : Service) (entry : String) :
    s.Edits (s.addToWhitelist entry).1 := by
  rcases s.addToWhitelist_cases entry with heq | ⟨domain, -, heq⟩ <;> rw [heq]
  · exact edits_refl _
  · exact ⟨⟨rfl, rfl, rfl, rfl, rfl, rfl⟩, rfl⟩

theorem edits_removeFromWhitelist (s : Service) (entry : String) :
    s.Edits (s.removeFromWhitelist entry).1 := by
  rcases s.removeFromWhitelist_cases entry with heq | ⟨domain, -, heq⟩ <;> rw [heq]
  · exact edits_refl _
  · exact ⟨⟨rfl, rfl, rfl, rfl, rfl, rfl⟩, rfl⟩

theorem edits_setListEnabled (s : Service) (id : String) (enabled : Bool) :
    s.Edits (s.setListEnabled id enabled).1 := by
  rw [setListEnabled_fst]
  exact ⟨⟨rfl, rfl, rfl, rfl, rfl, rfl⟩, rfl⟩

theorem edits_addList (s : Service) (name url : String) : s.Edits (s.addList name url).1 := by
  rw [addList_fst]
  exact ⟨⟨rfl, rfl, rfl, rfl, rfl, rfl⟩, rfl⟩

theorem edits_removeList (s : Service) (id : String) : s.Edits (s.removeList id).1 := by
  rcases s.removeList_cases id with ⟨list, -, heq⟩ | ⟨e, -, heq⟩ <;> rw [heq] <;>
    exact ⟨⟨rfl, rfl, rfl, rfl, rfl, rfl⟩, rfl⟩

/-- What holds when the decisions are changed, and is kept up by every effect, holds when
    all effects are carried out. -/
theorem decide_induction {P : Service → Prop} {s : Service} {waiter : Option Waiter}
    {change : BlockDecisions × List DecisionEffect} (hstart : P { s with decisions := change.1 })
    (hperform : ∀ effect ∈ change.2, ∀ s', P s' → P (s'.perform waiter effect)) :
    P (s.decide waiter change) := by
  obtain ⟨decisions, effects⟩ := change
  replace hstart : P { s with decisions := decisions } := hstart
  have hfold (s' : Service) (hs : P s') :
      P (effects.foldl (fun s effect => s.perform waiter effect) s') := by
    induction effects generalizing s' with
    | nil => exact hs
    | cons effect effects ih =>
      obtain ⟨heffect, heffects⟩ := List.forall_mem_cons.1 hperform
      exact ih heffects _ (heffect s' hs)
  exact hfold _ hstart

/-- The parts of most commands keep up `P`. -/
structure KeptByMostParts (P : Service → Prop) : Prop where
  quiet : ∀ s s' : Service, s.Quiet s' → P s → P s'
  startRun : ∀ (s : Service) reuse refresh waiter, P s → P (s.startRun reuse refresh waiter)
  reload : ∀ (s : Service) surface url, P s → P (s.reload surface url)
  forget : ∀ (s : Service) surface, P s → P { s with store := (s.store.unregister surface).1 }

/-- The parts of commands keep up `P`. -/
structure KeptByParts (P : Service → Prop) : Prop extends KeptByMostParts P where
  toggle : ∀ s : Service, P s → P s.toggle
  register : ∀ (s : Service) surface, P s → P (s.register surface)

namespace KeptByMostParts

variable {P : Service → Prop} {s : Service}

theorem whitelistDomain (hP : KeptByMostParts P) (h : P s) (domain : String)
    (waiter : Option Waiter) : P (s.whitelistDomain domain waiter) := by
  rw [Service.whitelistDomain]
  refine hP.startRun _ _ _ _ ?_
  split <;> exact hP.quiet _ _ ⟨rfl, rfl, rfl, rfl, rfl, rfl⟩ h

theorem perform (hP : KeptByMostParts P) (h : P s) (waiter : Option Waiter)
    (effect : DecisionEffect) : P (s.perform waiter effect) := by
  cases effect with
  | reload surface url => exact hP.reload s surface url h
  | present session => exact hP.quiet _ _ ⟨rfl, rfl, rfl, rfl, rfl, rfl⟩ h
  | dismiss id surface => exact hP.quiet _ _ ⟨rfl, rfl, rfl, rfl, rfl, rfl⟩ h
  | whitelist domain => exact hP.whitelistDomain h domain waiter
  | leave surface => exact hP.quiet _ _ ⟨rfl, rfl, rfl, rfl, rfl, rfl⟩ h

theorem decide (hP : KeptByMostParts P) (h : P s) (waiter : Option Waiter)
    (change : BlockDecisions × List DecisionEffect) : P (s.decide waiter change) := by
  have hstart : P { s with decisions := change.1 } :=
    hP.quiet _ _ ⟨rfl, rfl, rfl, rfl, rfl, rfl⟩ h
  exact decide_induction hstart fun effect _ _ hs => hP.perform hs waiter effect

theorem tryDecide (hP : KeptByMostParts P) (h : P s) (waiter : Option Waiter)
    (change : BlockDecisions × Except Failure (List DecisionEffect)) :
    P (s.tryDecide waiter change).1 := by
  obtain ⟨decisions, e | effects⟩ := change
  · exact hP.quiet _ _ ⟨rfl, rfl, rfl, rfl, rfl, rfl⟩ h
  · exact hP.decide h waiter (decisions, effects)

theorem thenRun (hP : KeptByMostParts P) (h : P s) (t : Ticket)
    {changed : Service × Except Failure Unit} (hc : s.Quiet changed.1) :
    P (Service.thenRun t changed).1 := by
  have hchanged : P changed.1 := hP.quiet _ _ hc h
  obtain ⟨s', e | ⟨⟩⟩ := changed
  · exact hchanged
  · exact hP.startRun s' none false (some ⟨t, .outcome⟩) hchanged

/-- Commands do nothing but what their parts do. -/
theorem handle (hP : KeptByMostParts P) (h : P s) (t : Ticket) {c : Command} (hc : c.IsCommon) :
    P (s.handle t c).1 := by
  have hquiet {s' : Service} (hs : s.Quiet s') : P s' := hP.quiet _ _ hs h
  cases c with
  | startUp =>
    have hstarted : P { s with startedUp := true } := hquiet ⟨rfl, rfl, rfl, rfl, rfl, rfl⟩
    exact hP.startRun _ s.reusable false (some ⟨t, .outcome⟩) hstarted
  | toggle => exact hc.elim
  | addToWhitelist entry => exact hP.thenRun h t (s.edits_addToWhitelist entry).toQuiet
  | removeFromWhitelist entry => exact hP.thenRun h t (s.edits_removeFromWhitelist entry).toQuiet
  | updateLists => exact hP.startRun s none true (some ⟨t, .outcome⟩) h
  | setListEnabled id enabled => exact hP.thenRun h t (s.edits_setListEnabled id enabled).toQuiet
  | addList name url =>
    have hadded := hquiet (s.edits_addList name url).toQuiet
    rw [Service.handle]
    split
    · next s' list hadd =>
      rw [hadd] at hadded
      exact hP.startRun s' none false (some ⟨t, .added list⟩) hadded
    · next hadd =>
      rw [hadd] at hadded
      exact hadded
  | removeList id => exact hP.thenRun h t (s.edits_removeList id).toQuiet
  | register surface => exact hc.elim
  | unregister surface => exact hP.forget _ surface (hP.decide h none _)
  | reportBlock surface url code =>
    have hnext : P { s with nextSession := s.nextSession.next } :=
      hquiet ⟨rfl, rfl, rfl, rfl, rfl, rfl⟩
    exact hP.decide hnext none (s.decisions.signal s.whitelist s.nextSession surface url code)
  | continueOnce id => exact hP.tryDecide h none (s.decisions.continueOnce id)
  | whitelistPermanently id =>
    have hdecide := hP.tryDecide h (some ⟨t, .outcome⟩) (s.decisions.whitelistPermanently id)
    rw [Service.handle]
    split
    · next heq =>
      rw [heq] at hdecide
      exact hdecide
    · next heq =>
      rw [heq] at hdecide
      exact hdecide
  | cancel id => exact hP.tryDecide h none (s.decisions.cancel id)
  | recordRequest => exact hquiet ⟨rfl, rfl, rfl, rfl, rfl, rfl⟩
  | recordBlocked url page size => exact hquiet ⟨rfl, rfl, rfl, rfl, rfl, rfl⟩
  | recordPageLoad url => exact hquiet ⟨rfl, rfl, rfl, rfl, rfl, rfl⟩
  | resetSession => exact hquiet ⟨rfl, rfl, rfl, rfl, rfl, rfl⟩

end KeptByMostParts

theorem KeptByParts.handle {P : Service → Prop} (hP : KeptByParts P) {s : Service} (h : P s)
    (t : Ticket) (c : Command) : P (s.handle t c).1 := by
  cases c with
  | toggle => exact hP.startRun _ none false (some ⟨t, .enabled⟩) (hP.toggle s h)
  | register surface => exact hP.register s surface h
  | _ => exact hP.toKeptByMostParts.handle h t trivial

end Service

end ContentBlocking
