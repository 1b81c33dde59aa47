import ContentBlocking.Proofs.Service.Endings
import Mathlib.Data.List.Nodup

/-!
# The latest run wins

Runs end in any order. What is in force afterwards does not depend on the order: it is
what the latest run got, among those that have succeeded.

* `Service.successes`: the runs that have succeeded, with their artifacts;
* `Latest`: the artifacts in force are those of the latest of these runs;
* `latest_after`: so it is after all events;
* `Latest.eq_of_perm`: the order of the ends does not matter.
-/

namespace ContentBlocking

/-- The artifacts in force are those of the latest of the runs, if there are any. -/
structure Latest (runs : List Commit) (st : ArtifactStore) : Prop where
  nothing : runs = [] → st.current = [] ∧ st.installedGeneration = 0
  mem : runs ≠ [] → ⟨st.installedGeneration, st.current⟩ ∈ runs
  highest : ∀ c ∈ runs, c.generation ≤ st.installedGeneration

namespace Latest

variable {runs runs' : List Commit} {st st' : ArtifactStore}

theorem congr (h : Latest runs st) (hcurrent : st'.current = st.current)
    (hinstalled : st'.installedGeneration = st.installedGeneration) : Latest runs st' where
  nothing hnil := by
    rw [hcurrent, hinstalled]
    exact h.nothing hnil
  mem hne := by
    rw [hcurrent, hinstalled]
    exact h.mem hne
  highest := by
    rw [hinstalled]
    exact h.highest

/-- A run that succeeds too late does not count. -/
theorem discard (h : Latest runs st) {c : Commit} (hlate : c.generation < st.installedGeneration)
    (hcurrent : st'.current = st.current)
    (hinstalled : st'.installedGeneration = st.installedGeneration) :
    Latest (runs ++ [c]) st' where
  nothing hnil := absurd hnil (by simp)
  mem _ := by
    have hne : runs ≠ [] := fun hnil => by
      rw [(h.nothing hnil).2] at hlate
      exact Nat.not_lt_zero _ hlate
    rw [hcurrent, hinstalled]
    exact List.mem_append_left _ (h.mem hne)
  highest d hd := by
    rw [hinstalled]
    rcases List.mem_append.1 hd with hd | hd
    · exact h.highest d hd
    · obtain rfl := List.mem_singleton.1 hd
      exact Nat.le_of_lt hlate

/-- Any other run is put in force. -/
theorem install (h : Latest runs st) {c : Commit} (hlatest : st.installedGeneration ≤ c.generation)
    (hcurrent : st'.current = c.artifacts) (hinstalled : st'.installedGeneration = c.generation) :
    Latest (runs ++ [c]) st' where
  nothing hnil := absurd hnil (by simp)
  mem _ := by
    rw [hcurrent, hinstalled]
    exact List.mem_append_right _ (List.mem_singleton_self c)
  highest d hd := by
    rw [hinstalled]
    rcases List.mem_append.1 hd with hd | hd
    · exact Nat.le_trans (h.highest d hd) hlatest
    · obtain rfl := List.mem_singleton.1 hd
      exact Nat.le_refl _

/-- The same runs in another order lead to the same artifacts. -/
theorem eq_of_perm (h : Latest runs st) (h' : Latest runs' st') (hperm : runs.Perm runs')
    (hnodup : (runs.map (·.generation)).Nodup) :
    st'.current = st.current ∧ st'.installedGeneration = st.installedGeneration := by
  by_cases hnil : runs = []
  · obtain ⟨hcurrent, hinstalled⟩ := h.nothing hnil
    obtain ⟨hcurrent', hinstalled'⟩ := h'.nothing (List.nil_perm.1 (hnil ▸ hperm))
    exact ⟨hcurrent'.trans hcurrent.symm, hinstalled'.trans hinstalled.symm⟩
  · have hnil' : runs' ≠ [] := fun h => hnil (List.perm_nil.1 (h ▸ hperm))
    have hmem := h.mem hnil
    have hmem' := hperm.mem_iff.2 (h'.mem hnil')
    -- Each of the two is as late as the other, and a number belongs to one run.
    have hsame : st'.installedGeneration = st.installedGeneration :=
      Nat.le_antisymm (h.highest _ hmem') (h'.highest _ (hperm.mem_iff.1 hmem))
    have heq := List.inj_on_of_nodup_map hnodup hmem' hmem hsame
    exact ⟨congrArg Commit.artifacts heq, hsame⟩

end Latest

namespace Service

/-- The run of an end and its artifacts, if it has succeeded. -/
def Ending.success? (x : Ending) : Option Commit :=
  x.output.toOption.map (⟨x.generation, ·.artifacts⟩)

/-- The runs that have succeeded, in the order of their ends. -/
def successes (s : Service) (events : List Event) : List Commit :=
  (s.endings events).filterMap Ending.success?

variable {s : Service} {event : Event} {x : Ending}

theorem successes_concat (s : Service) (events : List Event) (event : Event) :
    s.successes (events ++ [event]) =
      s.successes events ++ ((s.after events).ending? event).toList.filterMap Ending.success? := by
  rw [successes, endings_concat, List.filterMap_append, successes]

/-- The numbers of the runs that have succeeded are among those of all that have ended. -/
theorem generation_successes_sublist (s : Service) (events : List Event) :
    ((s.successes events).map (·.generation)).Sublist (s.ended events) := by
  rw [successes, ended]
  induction s.endings events with
  | nil => exact .slnil
  | cons x ends ih =>
    obtain ⟨g, output⟩ := x
    cases output with
    | error e => exact .cons g ih
    | ok output => exact .cons_cons g ih

/-! ### One step -/

theorem keptByParts_inForce (current : List Artifact) (g : Nat) :
    KeptByParts fun s => s.store.current = current ∧ s.store.installedGeneration = g := by
  refine keptByParts_of_idles (fun s s' hi h => ?_) fun _ _ _ _ h => h
  exact ⟨hi.rules.current.trans h.1, hi.rules.installedGeneration.trans h.2⟩

/-- Only the end of a run changes what is in force. -/
theorem inForce_of_ending? (h : s.ending? event = none) :
    (s.step event).1.store.current = s.store.current ∧
      (s.step event).1.store.installedGeneration = s.store.installedGeneration := by
  have hstep := s.stepped event
  generalize (s.step event).1 = s' at hstep ⊢
  cases hstep with
  | command t c => exact (keptByParts_inForce _ _).handle ⟨rfl, rfl⟩ t c
  | part g hpart => cases hpart <;> exact ⟨rfl, rfl⟩
  | finish g r output before done => exact (not_finish_of_ending? h rfl before done).elim
  | lift clock due later pending =>
    have hidles := s.idles_lift clock due later
    exact ⟨hidles.rules.current, hidles.rules.installedGeneration⟩
  | around disk evictions failing => exact ⟨rfl, rfl⟩

/-- The end of a run that failed changes nothing but who waits. -/
theorem finishWith_error (s : Service) (g : Nat) (e : Failure) : ∃ waiters,
    (s.finishWith g (.error e)).1 =
      { s with runs := s.runs.erase g, waiters := waiters } := by
  rw [finishWith]
  dsimp only [outcomeOf]
  split
  · exact ⟨_, rfl⟩
  · exact ⟨s.waiters, rfl⟩

theorem Latest.step {runs : List Commit} (h : Latest runs s.store) (event : Event) :
    Latest (runs ++ (s.ending? event).toList.filterMap Ending.success?)
      (s.step event).1.store := by
  cases hending : s.ending? event with
  | none =>
    have hnil : runs ++ (none : Option Ending).toList.filterMap Ending.success? = runs :=
      List.append_nil runs
    obtain ⟨hcurrent, hinstalled⟩ := inForce_of_ending? hending
    rw [hnil]
    exact h.congr hcurrent hinstalled
  | some x =>
    obtain ⟨g, output⟩ := x
    rw [step_of_ending? hending]
    cases output with
    | error e =>
      have hnil : runs ++ (some (Ending.mk g (.error e))).toList.filterMap Ending.success? =
          runs := List.append_nil runs
      obtain ⟨waiters, heq⟩ := s.finishWith_error g e
      rw [hnil, heq]
      exact h
    | ok output =>
      have hends := s.ends_finishWith g output
      by_cases hg : g < s.store.installedGeneration
      · obtain ⟨hcurrent, hinstalled⟩ := hends.discarded hg
        exact h.discard hg hcurrent hinstalled
      · obtain ⟨hcurrent, hinstalled⟩ := hends.installed (Nat.le_of_not_lt hg)
        exact h.install (Nat.le_of_not_lt hg) hcurrent hinstalled

/-- What is in force is never taken back. -/
theorem installedGeneration_le_step (s : Service) (event : Event) :
    s.store.installedGeneration ≤ (s.step event).1.store.installedGeneration := by
  cases hending : s.ending? event with
  | none => exact Nat.le_of_eq (inForce_of_ending? hending).2.symm
  | some x =>
    obtain ⟨g, output⟩ := x
    rw [step_of_ending? hending]
    cases output with
    | error e =>
      obtain ⟨waiters, heq⟩ := s.finishWith_error g e
      exact Nat.le_of_eq (congrArg (·.store.installedGeneration) heq).symm
    | ok output =>
      have hends := s.ends_finishWith g output
      by_cases hg : g < s.store.installedGeneration
      · exact Nat.le_of_eq (hends.discarded hg).2.symm
      · rw [(hends.installed (Nat.le_of_not_lt hg)).2]
        exact Nat.le_of_not_lt hg

/-! ### All events -/

theorem latest_after {around : Surroundings} (h : Fresh around s) (events : List Event) :
    Latest (s.successes events) (s.after events).store := by
  induction events using List.reverseRecOn with
  | nil =>
    refine ⟨fun _ => ?_, fun hne => absurd rfl hne, nofun⟩
    have hstore : (s.after []).store = s.store := rfl
    rw [hstore, h.store]
    exact ⟨rfl, rfl⟩
  | append_singleton events event ih =>
    rw [successes_concat, after_append]
    exact Latest.step ih event

theorem nodup_successes {around : Surroundings} (h : Fresh around s) (events : List Event) :
    ((s.successes events).map (·.generation)).Nodup :=
  (tally_after h events).once.sublist (s.generation_successes_sublist events)

theorem installedGeneration_le_after (s : Service) (events : List Event) :
    s.store.installedGeneration ≤ (s.after events).store.installedGeneration := by
  induction events generalizing s with
  | nil => exact Nat.le_refl _
  | cons event events ih => exact Nat.le_trans (s.installedGeneration_le_step event) (ih _)

end Service

end ContentBlocking
