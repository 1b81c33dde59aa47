import ContentBlocking.Proofs.Artifact.AwakeSurfaces
import ContentBlocking.Proofs.Service.RunMoves

/-!
# The numbers of runs

Every run has a number of its own, so the end of a run either leaves the store as it
is or puts other artifacts in force than those of any run before. A run that is later
than the one whose artifacts are in force stays in flight until that happens, or until
it fails.

* `Service.Numbered`: the runs in flight are unlike the one whose artifacts are in
  force;
* `ended_cases`: what the end of a run does to the store;
* `exists_run_step`: later runs stay in flight.
-/

namespace ContentBlocking

namespace Service

variable {s s' : Service}

/-- The runs in flight have been issued, and none is the one whose artifacts are in
    force. -/
structure Numbered (s : Service) : Prop where
  installed : s.store.installedGeneration ≤ s.generation
  issued : ∀ g r, s.runs.get? g = some r → g ≤ s.generation
  unlike : ∀ g r, s.runs.get? g = some r → g ≠ s.store.installedGeneration

theorem Numbered.idles (h : s.Numbered) (hi : Idles s s') : s'.Numbered where
  installed := by
    rw [hi.rules.installedGeneration, hi.generation]
    exact h.installed
  issued g r hr := by
    rw [hi.runs] at hr
    rw [hi.generation]
    exact h.issued g r hr
  unlike g r hr := by
    rw [hi.runs] at hr
    rw [hi.rules.installedGeneration]
    exact h.unlike g r hr

theorem Numbered.startRun (h : s.Numbered) (reuse : Option (List String)) (refresh : Bool)
    (waiter : Option Waiter) : (s.startRun reuse refresh waiter).Numbered := by
  have hinstalled := h.installed
  have hruns (g : Nat) (r : CompileRun)
      (hr : (s.startRun reuse refresh waiter).runs.get? g = some r) :
      g = s.generation + 1 ∨ s.runs.get? g = some r := by
    have hr : (s.runs.set (s.generation + 1) _).get? g = some r := hr
    rw [Table.get?_set] at hr
    split at hr
    · next hg => exact .inl hg
    · exact .inr hr
  refine ⟨Nat.le_succ_of_le hinstalled, fun g r hr => ?_, fun g r hr => ?_⟩
  · rcases hruns g r hr with rfl | hr
    · exact Nat.le_refl _
    · exact Nat.le_succ_of_le (h.issued g r hr)
  · rcases hruns g r hr with rfl | hr
    · show s.generation + 1 ≠ s.store.installedGeneration
      omega
    · exact h.unlike g r hr

theorem keptByParts_numbered : KeptByParts Numbered :=
  keptByParts_of_idles (fun _ _ hi h => h.idles hi)
    fun _ reuse refresh waiter h => h.startRun reuse refresh waiter

theorem numbered_of_fresh {around : Surroundings} (h : Fresh around s) : s.Numbered where
  installed := by
    rw [h.store]
    exact Nat.zero_le _
  issued g r hr := by
    rw [h.runs] at hr
    cases hr
  unlike g r hr := by
    rw [h.runs] at hr
    cases hr

/-! ### The end of a run -/

/-- The artifacts of a run are put in force, and applied if blocking is on. -/
structure Installs (enabled : Bool) (st : ArtifactStore) (g : Nat) (st' : ArtifactStore) :
    Prop where
  latest : st.installedGeneration ≤ g
  installedGeneration : st'.installedGeneration = g
  attached : enabled = true → ∀ x, st'.IsAwake x → st'.engine.attached x = st'.identifiers

/-- The end of a run leaves the store as it is, or puts artifacts in force. -/
theorem ended_cases (st : ArtifactStore) (enabled : Bool) (g : Nat)
    (output : Except Failure RunOutput) :
    (st.ended enabled g output = st ∧ ∀ o, output = .ok o → g < st.installedGeneration) ∨
      Installs enabled st g (st.ended enabled g output) := by
  cases output with
  | error e => exact .inl ⟨rfl, nofun⟩
  | ok output =>
    by_cases hg : g < st.installedGeneration
    · exact .inl ⟨if_pos hg, fun _ _ => hg⟩
    · rw [ArtifactStore.ended, if_neg hg]
      have hputs := ArtifactStore.puts_applyAll
        { st with installedGeneration := g, current := output.artifacts }
      refine .inr ⟨Nat.le_of_not_lt hg, ?_, ?_⟩
      · dsimp only
        split
        · exact hputs.installedGeneration
        · rfl
      · rintro rfl x hx
        have hids := congrArg (List.map (·.identifier)) hputs.current
        exact (hputs.attached x ((hputs.isAwake_iff x).1 hx)).trans hids.symm

theorem Numbered.step (h : s.Numbered) (event : Event) : (s.step event).1.Numbered := by
  have hstep := s.stepped event
  generalize (s.step event).1 = s' at hstep ⊢
  cases hstep with
  | command t c => exact keptByParts_numbered.handle h t c
  | part g hpart =>
    cases hpart with
    | idle => exact h
    | part d e r r' before request attachments =>
      -- The run keeps its number.
      have hruns (g' : Nat) (r'' : CompileRun) (hr : (s.runs.set g r').get? g' = some r'') :
          ∃ r, s.runs.get? g' = some r := by
        rw [Table.get?_set] at hr
        split at hr
        · next hg => exact ⟨r, hg ▸ before⟩
        · exact ⟨r'', hr⟩
      refine ⟨h.installed, fun g' r'' hr => ?_, fun g' r'' hr => ?_⟩
      · obtain ⟨r, hr⟩ := hruns g' r'' hr
        exact h.issued g' r hr
      · obtain ⟨r, hr⟩ := hruns g' r'' hr
        exact h.unlike g' r hr
  | finish g r output before done =>
    obtain ⟨registry, disk, waiters, heq⟩ := s.finishWith_eq g output
    rw [heq]
    have hruns (g' : Nat) (r' : CompileRun) (hr : (s.runs.erase g).get? g' = some r') :
        g' ≠ g ∧ s.runs.get? g' = some r' := by
      rw [Table.get?_erase] at hr
      split at hr
      · cases hr
      · next hne => exact ⟨hne, hr⟩
    have hissued (g' : Nat) (r' : CompileRun) (hr : (s.runs.erase g).get? g' = some r') :
        g' ≤ s.generation := h.issued g' r' (hruns g' r' hr).2
    have hcases := ended_cases s.store s.isEnabled g output
    generalize s.store.ended s.isEnabled g output = store at hcases ⊢
    rcases hcases with ⟨rfl, -⟩ | hinstalls
    · exact ⟨h.installed, hissued, fun g' r' hr => h.unlike g' r' (hruns g' r' hr).2⟩
    · obtain rfl := hinstalls.installedGeneration
      exact ⟨h.issued _ r before, hissued, fun g' r' hr => (hruns g' r' hr).1⟩
  | lift clock due later pending =>
    exact h.idles (s.idles_lift clock due later)
  | around disk evictions failing => exact ⟨h.1, h.2, h.3⟩

/-! ### Runs that fail -/

/-- The event is the end of a run that failed. -/
def Fails (s : Service) : Event → Prop
  | .finishRun g => ∃ r e, s.runs.get? g = some r ∧ r.stage = .done (.error e)
  | _ => False

/-- None of the events is the end of a run that failed. -/
def NoneFails (s : Service) : List Event → Prop
  | [] => True
  | event :: events => ¬s.Fails event ∧ (s.step event).1.NoneFails events

theorem keptByParts_inFlight (g : Nat) : KeptByParts fun s => ∃ r, s.runs.get? g = some r := by
  refine keptByParts_of_idles (fun s s' hi h => ?_) fun s reuse refresh waiter h => ?_
  · rw [hi.runs]
    exact h
  · have hset (r : CompileRun) : ∃ r', (s.runs.set (s.generation + 1) r).get? g = some r' := by
      rw [Table.get?_set]
      split
      · exact ⟨r, rfl⟩
      · exact h
    exact hset _

/-- A later run than the one whose artifacts are in force stays in flight until it
    fails or is put in force itself. -/
theorem exists_run_step {g : Nat} {r : CompileRun} (hr : s.runs.get? g = some r)
    (hg : s.store.installedGeneration < g) {event : Event} (hf : ¬s.Fails event)
    (hi : (s.step event).1.store.installedGeneration = s.store.installedGeneration) :
    ∃ r', (s.step event).1.runs.get? g = some r' := by
  have hstep := s.stepped event
  generalize (s.step event).1 = s' at hstep hi ⊢
  cases hstep with
  | command t c => exact (keptByParts_inFlight g).handle ⟨r, hr⟩ t c
  | part g' hpart =>
    cases hpart with
    | idle => exact ⟨r, hr⟩
    | part d e r' r'' before request attachments =>
      show ∃ r', (s.runs.set g' r'').get? g = some r'
      rw [Table.get?_set]
      split
      · exact ⟨r'', rfl⟩
      · exact ⟨r, hr⟩
  | finish g' r' output before done =>
    obtain ⟨registry, disk, waiters, heq⟩ := s.finishWith_eq g' output
    rw [heq] at hi ⊢
    show ∃ r', (s.runs.erase g').get? g = some r'
    rw [Table.get?_erase]
    split
    · next hsame =>
      subst hsame
      cases output with
      | error e => exact absurd ⟨r', e, before, done⟩ hf
      | ok output =>
        -- It would have been put in force.
        rcases ended_cases s.store s.isEnabled g (.ok output) with ⟨-, hstale⟩ | hinstalls
        · exact absurd (hstale output rfl) (Nat.lt_asymm hg)
        · exact absurd (hi.symm.trans hinstalls.installedGeneration) (Nat.ne_of_lt hg)
    · exact ⟨r, hr⟩
  | lift clock due later pending =>
    rw [(s.idles_lift clock due later).runs]
    exact ⟨r, hr⟩
  | around disk evictions failing => exact ⟨r, hr⟩

end Service

end ContentBlocking
