import ContentBlocking.Proofs.Service.RunMoves

/-!
# Suspensions

A surface on which the user lets a page pass is suspended for a while. Whatever
happens, the suspension that it is in is one that is to be lifted later on, so it does
not last.

* `Service.Pends`: every suspension is to be lifted;
* `pends_step`: every step keeps that up.
-/

namespace ContentBlocking

namespace Service

variable {s s' : Service}

/-- A surface that is suspended gets a number, under which it is suspended then. -/
theorem suspended_suspend (st : ArtifactStore) (x : Surface) :
    (st.suspend x).1.suspended = match (st.suspend x).2 with
      | some number => st.suspended.set x number
      | none => st.suspended := by
  have hputs := ArtifactStore.puts_detach st x
  rw [ArtifactStore.suspend]
  split
  · next heq =>
    rw [heq] at hputs
    exact hputs.suspended
  · next heq =>
    rw [heq] at hputs
    exact congrArg (Table.set · x _) hputs.suspended

/-- Every suspension is to be lifted, by those of `due` or later. -/
def Pends (s : Service) (due : List Reattachment) : Prop :=
  ∀ x number, s.store.suspended.get? x = some number →
    ∃ r, (r ∈ due ∨ r ∈ s.reattachments) ∧ r.surface = x ∧ r.number = number

theorem Pends.congr {due : List Reattachment} (h : s.Pends due)
    (hs : s'.store.suspended = s.store.suspended) (hr : s'.reattachments = s.reattachments) :
    s'.Pends due := by
  intro x number hx
  rw [hs] at hx
  rw [hr]
  exact h x number hx

/-- A suspension that is lifted, or whose surface is forgotten, need not be lifted any
    more. -/
theorem Pends.erase {due due' : List Reattachment} (h : s.Pends due) (surface : Surface)
    (hs : s'.store.suspended = s.store.suspended.erase surface)
    (hr : s'.reattachments = s.reattachments)
    (hdue : ∀ r ∈ due, r.surface = surface ∨ r ∈ due') : s'.Pends due' := by
  intro x number hx
  rw [hs, Table.get?_erase] at hx
  split at hx
  · cases hx
  · next hne =>
    obtain ⟨r, hr', rfl, heq⟩ := h x number hx
    rw [hr]
    exact ⟨r, hr'.imp_left fun hmem => (hdue r hmem).resolve_left hne, rfl, heq⟩

theorem pends_reload (h : s.Pends []) (surface : Surface) (url : String) :
    (s.reload surface url).Pends [] := by
  have hsuspended := suspended_suspend s.store surface
  rw [reload]
  generalize s.store.suspend surface = suspended at hsuspended
  obtain ⟨store, number⟩ := suspended
  cases number with
  | none =>
    have hsame : store.suspended = s.store.suspended := hsuspended
    exact h.congr hsame rfl
  | some number =>
    have hset : store.suspended = s.store.suspended.set surface number := hsuspended
    intro x n hx
    have hget : store.suspended.get? x = some n := hx
    rw [hset, Table.get?_set] at hget
    split at hget
    · next heq =>
      obtain rfl := Option.some.inj hget
      exact ⟨⟨s.clock + s.config.reattachDelayMs, surface, number⟩,
        .inr (List.mem_append_right _ (List.mem_singleton_self _)), heq.symm, rfl⟩
    · obtain ⟨r, hr, heq⟩ := h x n hget
      exact ⟨r, hr.imp_right (List.mem_append_left _), heq⟩

theorem pends_unregister (h : s.Pends []) (surface : Surface) :
    Pends { s with store := (s.store.unregister surface).1 } [] := by
  rw [ArtifactStore.unregister]
  split
  · exact h.erase surface rfl rfl fun _ hr => absurd hr List.not_mem_nil
  · exact h

theorem suspended_register (s : Service) (surface : Surface) :
    (s.register surface).store.suspended = s.store.suspended ∧
      (s.register surface).reattachments = s.reattachments := by
  have hsame : ∀ isNew st, s.store.register surface = (st, isNew) →
      st.suspended = s.store.suspended := by
    intro isNew st heq
    rw [ArtifactStore.register] at heq
    split at heq <;> (obtain rfl := congrArg Prod.fst heq; rfl)
  rw [register]
  split
  · next st heq =>
    split
    · exact ⟨(ArtifactStore.puts_apply st surface).suspended.trans (hsame _ _ heq), rfl⟩
    · exact ⟨hsame _ _ heq, rfl⟩
  · next st heq => exact ⟨hsame _ _ heq, rfl⟩

theorem suspended_ended (st : ArtifactStore) (enabled : Bool) (g : Nat)
    (output : Except Failure RunOutput) :
    (st.ended enabled g output).suspended = st.suspended := by
  cases output with
  | error e => rfl
  | ok output =>
    rw [ArtifactStore.ended]
    dsimp only
    split
    · rfl
    · split
      · exact (ArtifactStore.puts_applyAll _).suspended
      · rfl

theorem keptByParts_pends : KeptByParts (·.Pends []) where
  quiet _ _ hq h := h.congr (by rw [hq.store]) hq.reattachments
  startRun _ _ _ _ h := h
  reload _ surface url h := pends_reload h surface url
  toggle s h := by
    rw [toggle]
    split
    · exact h
    · exact h.congr (ArtifactStore.puts_detachAll _).suspended rfl
  register s surface h :=
    h.congr (s.suspended_register surface).1 (s.suspended_register surface).2
  forget _ surface h := pends_unregister h surface

theorem pends_reattach {r : Reattachment} {due : List Reattachment} (h : s.Pends (r :: due)) :
    (s.reattach r.surface r.number).Pends due := by
  rw [reattach]
  split
  · next store heq =>
    rw [ArtifactStore.resume] at heq
    split at heq
    · obtain rfl := congrArg Prod.fst heq
      have hputs := ArtifactStore.puts_apply
        { s.store with suspended := s.store.suspended.erase r.surface } r.surface
      have hdue : ∀ r' ∈ r :: due, r'.surface = r.surface ∨ r' ∈ due := fun r' hr' =>
        (List.mem_cons.1 hr').imp_left (congrArg _)
      refine h.erase r.surface ?_ rfl hdue
      dsimp only
      split
      · exact hputs.suspended
      · rfl
    · cases heq
  · next store heq =>
    -- The surface is not in this suspension, so the one it is in is another.
    have hother : s.store.suspended.get? r.surface ≠ some r.number := by
      intro hnumber
      rw [ArtifactStore.resume, if_pos hnumber] at heq
      cases heq
    intro x number hx
    obtain ⟨r', hr', rfl, rfl⟩ := h x number hx
    refine ⟨r', hr'.imp_left fun hmem => (List.mem_cons.1 hmem).resolve_left ?_, rfl, rfl⟩
    rintro rfl
    exact hother hx

theorem pends_lift {due : List Reattachment} (h : s.Pends due) : (s.lift due).Pends [] := by
  induction due generalizing s with
  | nil => exact h
  | cons r due ih => exact ih (pends_reattach h)

theorem pends_step (s : Service) (event : Event) (h : s.Pends []) :
    (s.step event).1.Pends [] := by
  have hstep := s.stepped event
  generalize (s.step event).1 = s' at hstep ⊢
  cases hstep with
  | command t c => exact keptByParts_pends.handle h t c
  | part g hpart =>
    cases hpart with
    | idle => exact h
    | part d e r r' before request attachments => exact h
  | finish g r output before done =>
    obtain ⟨registry, disk, waiters, heq⟩ := s.finishWith_eq g output
    rw [heq]
    exact h.congr (suspended_ended _ _ _ _) rfl
  | lift clock due later pending =>
    refine pends_lift fun x number hx => ?_
    obtain ⟨r, hr, heq⟩ := h x number hx
    exact ⟨r, pending r (hr.resolve_left List.not_mem_nil), heq⟩
  | around disk evictions failing => exact h

theorem pends_of_fresh {around : Surroundings} (h : Fresh around s) : s.Pends [] := by
  intro x number hx
  rw [h.store] at hx
  cases hx

end Service

end ContentBlocking
