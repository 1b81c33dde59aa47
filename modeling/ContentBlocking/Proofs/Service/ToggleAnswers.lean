import ContentBlocking.Proofs.Service.LateCompile
import ContentBlocking.Proofs.Service.RunNumbers
import ContentBlocking.Proofs.Service.Waiters
import Mathlib.Algebra.Group.Nat.Even

/-!
# What a client that has turned blocking on or off is told

Blocking is turned on or off when the command is handled, but the client is answered when
the run that follows has ended, and is told whether blocking is on then. Nothing but these
commands turns it on or off, so the client is told what its own command has done as long
as an even number of other ones came in between.

* `isEnabled_step`: what an event does to whether blocking is on;
* `isEnabled_after_eq_iff`: whether it is on after some events;
* `step_of_toggle`: what a client is told;
* `toggle_answer_iff`: and when that is what its command has done;
* `not_forall_toggle_answer`: another client turns blocking off again before the run ends.
-/

namespace ContentBlocking.Service

variable {s s₀ : Service}

/-! ### Turning blocking on and off -/

/-- The event turns blocking on or off. -/
def Event.isToggle : Event → Bool
  | .command _ .toggle => true
  | _ => false

theorem keptByMostParts_isEnabled (on : Bool) : KeptByMostParts (·.isEnabled = on) where
  quiet _ _ hq h := hq.isEnabled.trans h
  startRun _ _ _ _ h := h
  reload _ _ _ h := h
  forget _ _ h := h

theorem isEnabled_toggle (s : Service) : s.toggle.isEnabled = !s.isEnabled := by
  rw [toggle]
  split <;> rfl

theorem isEnabled_register (s : Service) (surface : Surface) :
    (s.register surface).isEnabled = s.isEnabled := by
  rw [register]
  split
  · split <;> rfl
  · rfl

theorem isEnabled_reattach (s : Service) (surface : Surface) (number : Nat) :
    (s.reattach surface number).isEnabled = s.isEnabled := by
  rw [reattach]
  split <;> rfl

theorem isEnabled_of_doesPart {s' : Service} {g : Nat} (h : s.DoesPart g s') :
    s'.isEnabled = s.isEnabled := by
  cases h <;> rfl

/-- Nothing else turns blocking on or off. -/
theorem isEnabled_step (s : Service) (event : Event) :
    (s.step event).1.isEnabled = if event.isToggle then !s.isEnabled else s.isEnabled := by
  cases event with
  | command t c =>
    by_cases hcommon : c.IsCommon
    · have htoggle : (Event.command t c).isToggle = false := by
        cases c with
        | toggle => exact hcommon.elim
        | _ => rfl
      rw [htoggle]
      exact (keptByMostParts_isEnabled s.isEnabled).handle rfl t hcommon
    · cases c with
      | toggle => exact s.isEnabled_toggle
      | register surface => exact s.isEnabled_register surface
      | _ => exact absurd trivial hcommon
  | finishRun g =>
    rw [step, finishRun]
    split
    · next request output hr =>
      obtain ⟨registry, disk, waiters, heq⟩ := s.finishWith_eq g output
      rw [heq]
      rfl
    · rfl
  | elapse ms =>
    exact elapse_induction (P := (·.isEnabled = s.isEnabled)) s ms (fun _ => rfl)
      fun s' surface number h => (s'.isEnabled_reattach surface number).trans h
  | reattach r =>
    rw [step]
    split
    · exact isEnabled_reattach _ r.surface r.number
    · rfl
  | evict =>
    rw [step, evict]
    split <;> rfl
  | fail identifiers => rfl
  | files disk => rfl
  | _ => exact isEnabled_of_doesPart (s.doesPart_step rfl)

theorem isEnabled_after_eq_iff (s : Service) (events : List Event) :
    (s.after events).isEnabled = s.isEnabled ↔ Even (events.countP Event.isToggle) := by
  induction events generalizing s with
  | nil => simp [after]
  | cons event events ih =>
    have hstep := s.isEnabled_step event
    have hrest := ih (s.step event).1
    rw [after_cons, List.countP_cons]
    rcases htoggle : event.isToggle with _ | _
    · rw [htoggle] at hstep
      simpa [hstep] using hrest
    · rw [htoggle] at hstep
      rw [if_pos rfl, Nat.even_add_one, ← hrest, hstep, if_pos rfl]
      exact Bool.not_eq_not.symm

/-! ### Answers -/

/-- The run that a client has started by turning blocking on or off ends well, and the client
    is told whether blocking is on then. -/
theorem step_of_toggle {config : Config} {around : Surroundings} {first : SessionId}
    (hstart : start config around first = .ok s₀) (before : List Event)
    {between : List Event} {t : Ticket} {event : Event} {output : RunOutput} :
    let s := s₀.after before
    let s' := s₀.after (before ++ .command t .toggle :: between)
    s'.ending? event = some ⟨s.generation + 1, .ok output⟩ →
      (s'.step event).2 = some (t, .enabled s'.isEnabled) := by
  intro s s' hending
  have hledger := ledger_after hstart (before ++ .command t .toggle :: between)
  have htally := tally_after (fresh_of_start hstart) (before ++ .command t .toggle :: between)
  obtain ⟨-, r, hr, -⟩ := ending?_eq_some.1 hending
  have hasked : ⟨s.generation + 1, ⟨t, .enabled⟩⟩ ∈
      s₀.requests (before ++ .command t .toggle :: between) := by
    rw [requests_append]
    exact List.mem_append_right _ List.mem_cons_self
  -- The run is in flight, so its client still waits.
  have hwaits : s'.waiters.get? (s.generation + 1) = some ⟨t, .enabled⟩ :=
    (hledger.waiting _ _).2 ⟨hasked, ((htally.inFlight _).1 ⟨r, hr⟩).2.2⟩
  obtain ⟨-, -, hanswer⟩ := finish_step hending hwaits
  exact hanswer

/-- The run that a client has started by turning blocking on or off ends well. Then the client
    is told whether blocking is on, and that is what its command has done if and only if
    blocking was turned on or off an even number of times in between. -/
theorem toggle_answer_iff {config : Config} {around : Surroundings} {first : SessionId}
    (hstart : start config around first = .ok s₀) (before : List Event)
    {between : List Event} {t : Ticket} {event : Event} {output : RunOutput} :
    let s := s₀.after before
    let s' := s₀.after (before ++ .command t .toggle :: between)
    s'.ending? event = some ⟨s.generation + 1, .ok output⟩ →
      (s'.step event).2 = some (t, .enabled s'.isEnabled) ∧
      ((s'.step event).2 = some (t, .enabled !s.isEnabled) ↔
        Even (between.countP Event.isToggle)) := by
  intro s s' hending
  have hanswer : (s'.step event).2 = some (t, .enabled s'.isEnabled) :=
    step_of_toggle hstart before hending
  refine ⟨hanswer, ?_⟩
  have hafter : s' = (s.step (.command t .toggle)).1.after between := after_append _ _ _
  have htoggled : (s.step (.command t .toggle)).1.isEnabled = !s.isEnabled :=
    s.isEnabled_step (.command t .toggle)
  rw [hanswer, ← isEnabled_after_eq_iff (s.step (.command t .toggle)).1, ← hafter, htoggled]
  simp

/-- Blocking is turned on or off once more before the first run has ended. -/
def turnedOnAgain : List Event := .command 2 .toggle :: findNoList 1 ++ compileParts 1 3

theorem loaded_turnedOnAgain : ∀ s₀ ∈ (start {} {} .nil).toOption,
    let s := s₀.after (.command 1 .toggle :: .command 2 .toggle :: findNoList 1)
    s.store.engine.failing = [] ∧ s.store.engine.ruleLimit = none ∧
      ∃ r ∈ s.runs.get? 1, r.shards?.map List.length = some 1 ∧ r.request.maxShards ≠ 0 := by
  decide +kernel

/-- Then that run ends well. -/
theorem ending?_turnedOnAgain (hstart : start {} {} .nil = .ok s₀) : ∃ output,
    (s₀.after (.command 1 .toggle :: turnedOnAgain)).ending? (.finishRun 1) =
      some ⟨s₀.generation + 1, .ok output⟩ := by
  obtain ⟨hfailing, hlimit, r, hr, hshards, hmax⟩ := loaded_turnedOnAgain s₀ (by rw [hstart]; rfl)
  rw [turnedOnAgain, ← List.cons_append, after_append, (fresh_of_start hstart).generation]
  obtain ⟨output, hending, -⟩ := ending?_compileParts ⟨hfailing, hlimit⟩ hr hshards hmax
  exact ⟨output, hending⟩

theorem toggle_answer_iff_turnedOnAgain : ∃ s₀ output, start {} {} .nil = .ok s₀ ∧
    let s := s₀.after (.command 1 .toggle :: turnedOnAgain)
    s.ending? (.finishRun 1) = some ⟨s₀.generation + 1, .ok output⟩ ∧
      (s.step (.finishRun 1)).2 = some (1, .enabled s.isEnabled) ∧
      (s.step (.finishRun 1)).2 ≠ some (1, .enabled !s₀.isEnabled) := by
  obtain ⟨s₀, hstart⟩ := exists_start (show Config.validate {} = .ok {} from rfl) {} .nil
  obtain ⟨output, hending⟩ := ending?_turnedOnAgain hstart
  obtain ⟨hanswer, hiff⟩ := toggle_answer_iff hstart [] hending
  exact ⟨s₀, output, hstart, hending, hanswer, fun h => absurd (hiff.1 h) (by decide)⟩

theorem not_fails_of_ending? {event : Event} {g : Nat} {output : RunOutput}
    (h : s.ending? event = some ⟨g, .ok output⟩) : ¬s.Fails event := by
  obtain ⟨rfl, r, hr, hdone⟩ := ending?_eq_some.1 h
  rintro ⟨r', e, hr', hfailed⟩
  obtain rfl := Option.some.inj (hr.symm.trans hr')
  rw [hdone] at hfailed
  cases hfailed

/-- None fails of some events that end no run and one that does not fail. -/
theorem noneFails_concat {events : List Event} {event : Event}
    (hquiet : ∀ event ∈ events, ∀ g, event ≠ .finishRun g) (h : ¬(s.after events).Fails event) :
    s.NoneFails (events ++ [event]) := by
  induction events generalizing s with
  | nil => exact ⟨h, trivial⟩
  | cons first events ih =>
    refine ⟨?_, ih (fun event hevent => hquiet event (List.mem_cons_of_mem first hevent)) h⟩
    cases first with
    | finishRun g => exact absurd rfl (hquiet _ List.mem_cons_self g)
    | _ => exact id

/-- One client turns blocking off and another one turns it on again. No run fails, and the
    first client is told that blocking is on. -/
theorem not_forall_toggle_answer : ¬∀ (config : Config) (around : Surroundings)
    (first : SessionId) (s₀ : Service) (before between : List Event) (t : Ticket) (event : Event)
    (output : RunOutput), start config around first = .ok s₀ →
    let s := s₀.after before
    let events := before ++ .command t .toggle :: between
    s₀.NoneFails (events ++ [event]) →
    (s₀.after events).ending? event = some ⟨s.generation + 1, .ok output⟩ →
    ((s₀.after events).step event).2 = some (t, .enabled !s.isEnabled) := by
  intro hall
  obtain ⟨s₀, hstart⟩ := exists_start (show Config.validate {} = .ok {} from rfl) {} .nil
  obtain ⟨output, hending⟩ := ending?_turnedOnAgain hstart
  have hnone : s₀.NoneFails (.command 1 .toggle :: turnedOnAgain ++ [.finishRun 1]) :=
    noneFails_concat (by simp [turnedOnAgain, findNoList, compileParts])
      (not_fails_of_ending? hending)
  have hclaimed := hall {} {} .nil s₀ [] turnedOnAgain 1 (.finishRun 1) output hstart hnone hending
  have hanswer := step_of_toggle hstart [] hending
  obtain ⟨-, hreply⟩ := Prod.mk.inj (Option.some.inj (hanswer.symm.trans hclaimed))
  -- Blocking was turned off and on, so that it is what it was at first.
  have hsame : (s₀.after (.command 1 .toggle :: turnedOnAgain)).isEnabled = s₀.isEnabled :=
    (s₀.isEnabled_after_eq_iff _).2 (by decide)
  have hflipped : (!s₀.isEnabled) = s₀.isEnabled := (Reply.enabled.inj hreply).symm.trans hsame
  simp at hflipped

end ContentBlocking.Service
