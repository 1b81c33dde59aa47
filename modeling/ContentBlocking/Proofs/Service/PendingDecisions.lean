import ContentBlocking.Proofs.BlockDecision.PopUps
import ContentBlocking.Proofs.Service.RunMoves

/-!
# Decisions of the service

The decisions that are pending change only by commands, and a command asks for at most one
thing of them. So what every call keeps up about the decisions the service keeps up too:
each of them is kept under its own surface.

* `Service.Calls`: the service asks for at most one thing of the decisions;
* `calls_step`: every event does so;
* `isKept_of_start`, `isKept_after`: decisions are kept under their surfaces.
-/

namespace ContentBlocking

namespace Service

open BlockDecisions (Call)

variable {s s' : Service}

/-- Between `s` and `s'` the decisions stay as they are, or one thing is asked of them. -/
def Calls (s s' : Service) : Prop :=
  s'.decisions = s.decisions ∨ ∃ c, s'.decisions = (s.decisions.call c).1

theorem decisions_perform (s : Service) (waiter : Option Waiter) (effect : DecisionEffect) :
    (s.perform waiter effect).decisions = s.decisions := by
  cases effect with
  | whitelist domain =>
    rw [perform, whitelistDomain]
    split <;> rfl
  | _ => rfl

/-- The effects of a change leave the decisions alone. -/
theorem decisions_decide (s : Service) (waiter : Option Waiter)
    (change : BlockDecisions × List DecisionEffect) :
    (s.decide waiter change).decisions = change.1 := by
  refine decide_induction (P := fun s' => s'.decisions = change.1) rfl fun effect _ s' hs => ?_
  rw [decisions_perform, hs]

theorem decisions_tryDecide (s : Service) (waiter : Option Waiter)
    (change : BlockDecisions × Except Failure (List DecisionEffect)) :
    (s.tryDecide waiter change).1.decisions = change.1 := by
  obtain ⟨decisions, e | effects⟩ := change
  · rfl
  · exact s.decisions_decide waiter (decisions, effects)

theorem decisions_thenRun (t : Ticket) (changed : Service × Except Failure Unit) :
    (thenRun t changed).1.decisions = changed.1.decisions := by
  obtain ⟨s', e | ⟨⟩⟩ := changed <;> rfl

theorem calls_handle (s : Service) (t : Ticket) (c : Command) : s.Calls (s.handle t c).1 := by
  have hthenRun {changed : Service × Except Failure Unit}
      (h : changed.1.decisions = s.decisions) : s.Calls (thenRun t changed).1 :=
    .inl ((decisions_thenRun t changed).trans h)
  cases c with
  | toggle =>
    refine .inl ?_
    rw [handle, toggle]
    dsimp only
    split <;> rfl
  | addToWhitelist entry =>
    refine hthenRun ?_
    rcases s.addToWhitelist_cases entry with heq | ⟨domain, -, heq⟩
    · rw [heq]
    · rw [heq]
      rfl
  | removeFromWhitelist entry =>
    refine hthenRun ?_
    rcases s.removeFromWhitelist_cases entry with heq | ⟨domain, -, heq⟩
    · rw [heq]
    · rw [heq]
      rfl
  | setListEnabled id enabled => exact hthenRun rfl
  | addList name url =>
    have hadded : (s.addList name url).1.decisions = s.decisions := rfl
    refine .inl ?_
    rw [handle]
    split <;> next hadd =>
      rw [hadd] at hadded
      exact hadded
  | removeList id =>
    refine hthenRun ?_
    rcases s.removeList_cases id with ⟨list, -, heq⟩ | ⟨e, -, heq⟩ <;> rw [heq]
  | register surface =>
    refine .inl ?_
    rw [handle, register]
    split
    · split <;> rfl
    · rfl
  | unregister surface => exact .inr ⟨.close surface, s.decisions_decide none _⟩
  | reportBlock surface url code =>
    exact .inr ⟨.signal s.whitelist s.nextSession surface url code,
      decisions_decide { s with nextSession := s.nextSession.next } none _⟩
  | continueOnce id => exact .inr ⟨.continueOnce id, s.decisions_tryDecide none _⟩
  | whitelistPermanently id =>
    have hdone := s.decisions_tryDecide (some ⟨t, .outcome⟩) (s.decisions.whitelistPermanently id)
    refine .inr ⟨.whitelistPermanently id, ?_⟩
    rw [handle]
    split <;> next heq =>
      rw [heq] at hdone
      exact hdone
  | cancel id => exact .inr ⟨.cancel id, s.decisions_tryDecide none _⟩
  | _ => exact .inl rfl

theorem decisions_reattach (s : Service) (surface : Surface) (number : Nat) :
    (s.reattach surface number).decisions = s.decisions := by
  rw [reattach]
  split <;> rfl

theorem calls_step (s : Service) (event : Event) : s.Calls (s.step event).1 := by
  have hstep := s.stepped event
  generalize (s.step event).1 = s' at hstep ⊢
  cases hstep with
  | command t c => exact s.calls_handle t c
  | part g hpart => cases hpart <;> exact .inl rfl
  | finish g r output before done =>
    obtain ⟨registry, disk, waiters, heq⟩ := s.finishWith_eq g output
    rw [heq]
    exact .inl rfl
  | lift clock due later pending =>
    have hstart : { s with clock := clock, reattachments := later }.decisions = s.decisions := rfl
    exact .inl (lift_induction (P := fun s' => s'.decisions = s.decisions)
      (fun s' surface number hs => (s'.decisions_reattach surface number).trans hs) hstart due)
  | around disk evictions failing => exact .inl rfl

theorem isKept_of_start {config : Config} {around : Surroundings} {first : SessionId}
    (h : start config around first = .ok s) : s.decisions.IsKept := by
  rw [start] at h
  obtain ⟨config, -, h⟩ := exists_of_bind_eq_ok h
  obtain rfl := Except.ok.inj h
  exact BlockDecisions.isKept_empty

/-- After any events each decision is kept under its own surface. -/
theorem isKept_after (h : s.decisions.IsKept) (events : List Event) :
    (s.after events).decisions.IsKept := by
  refine after_induction (P := fun s => s.decisions.IsKept) (fun s event hkept => ?_) h events
  rcases s.calls_step event with heq | ⟨c, heq⟩ <;> rw [heq]
  · exact hkept
  · exact (BlockDecisions.popsUp_call hkept c).isKept hkept

end Service

end ContentBlocking
