import ContentBlocking.Proofs.Service.IssuedRuns

/-!
# The ends of runs

Every run that was issued is either in flight or has ended, and it ends once.

* `Service.Ending`, `Service.endings`: the ends of runs among some events;
* `Service.Tally`: the runs in flight are those that were issued and have not ended;
* `tally_after`: so it is after all events.
-/

namespace ContentBlocking

namespace Service

/-- The end of a run. -/
structure Ending where
  /-- The number of the run. -/
  generation : Nat
  output : Except Failure RunOutput

/-- The end of a run that an event is, if it is one. -/
def ending? (s : Service) : Event → Option Ending
  | .finishRun g =>
    match s.runs.get? g with
    | some ⟨_, .done output⟩ => some ⟨g, output⟩
    | _ => none
  | _ => none

/-- The ends of runs among some events, in their order. -/
def endings (s : Service) : List Event → List Ending
  | [] => []
  | event :: events => (s.ending? event).toList ++ (s.step event).1.endings events

/-- The numbers of the runs that have ended. -/
def ended (s : Service) (events : List Event) : List Nat := (s.endings events).map (·.generation)

variable {s s' : Service} {event : Event} {x : Ending}

theorem endings_append (s : Service) (events events' : List Event) :
    s.endings (events ++ events') = s.endings events ++ (s.after events).endings events' := by
  induction events generalizing s with
  | nil => rfl
  | cons event events ih =>
    rw [List.cons_append, endings, endings, ih, List.append_assoc]
    rfl

theorem endings_concat (s : Service) (events : List Event) (event : Event) :
    s.endings (events ++ [event]) =
      s.endings events ++ ((s.after events).ending? event).toList := by
  rw [endings_append, endings, endings, List.append_nil]

theorem ended_concat (s : Service) (events : List Event) (event : Event) :
    s.ended (events ++ [event]) =
      s.ended events ++ ((s.after events).ending? event).toList.map (·.generation) := by
  rw [ended, endings_concat, List.map_append, ended]

/-- The end of a run in flight whose work is done. -/
theorem ending?_eq_some : s.ending? event = some x ↔
    event = .finishRun x.generation ∧
      ∃ r, s.runs.get? x.generation = some r ∧ r.stage = .done x.output := by
  constructor
  · intro h
    cases event with
    | finishRun g =>
      rw [ending?] at h
      split at h
      · next request output hr =>
        obtain rfl := Option.some.inj h
        exact ⟨rfl, _, hr, rfl⟩
      · cases h
    | _ => cases h
  · rintro ⟨rfl, ⟨request, stage⟩, hr, rfl⟩
    rw [ending?, hr]

theorem step_of_ending? (h : s.ending? event = some x) :
    s.step event = s.finishWith x.generation x.output := by
  obtain ⟨rfl, ⟨request, stage⟩, hr, rfl⟩ := ending?_eq_some.1 h
  rw [step, finishRun, hr]

theorem not_finish_of_ending? (h : s.ending? event = none) {r : CompileRun} {g : Nat}
    {output : Except Failure RunOutput} (hevent : event = .finishRun g)
    (before : s.runs.get? g = some r) (done : r.stage = .done output) : False := by
  have hsome : s.ending? event = some ⟨g, output⟩ :=
    ending?_eq_some.2 ⟨hevent, r, before, done⟩
  rw [h] at hsome
  cases hsome

/-! ### Runs in flight -/

/-- The run is in flight. -/
def InFlight (s : Service) (g : Nat) : Prop := ∃ r, s.runs.get? g = some r

/-- The runs in flight are those that were issued and have not ended, and each of the
    latter was issued and has ended once. -/
structure Tally (s : Service) (ended : List Nat) : Prop where
  inFlight : ∀ g, s.InFlight g ↔ 0 < g ∧ g ≤ s.generation ∧ g ∉ ended
  issued : ∀ g ∈ ended, 0 < g ∧ g ≤ s.generation
  once : ended.Nodup

theorem Tally.congr {ended : List Nat} (h : s.Tally ended)
    (hgeneration : s'.generation = s.generation)
    (hruns : ∀ g, s'.InFlight g ↔ s.InFlight g) : s'.Tally ended where
  inFlight g := by
    rw [hruns, hgeneration]
    exact h.inFlight g
  issued := by
    rw [hgeneration]
    exact h.issued
  once := h.once

theorem inFlight_set {runs : Table Nat CompileRun} {g g' : Nat} {r : CompileRun} :
    (∃ r', (runs.set g' r).get? g = some r') ↔ g = g' ∨ ∃ r', runs.get? g = some r' := by
  rw [Table.get?_set]
  split
  · next h => simp [h]
  · next h => simp [h]

theorem Tally.issue {ended : List Nat} (h : s.Tally ended) {r : CompileRun}
    (hgeneration : s'.generation = s.generation + 1)
    (hruns : s'.runs = s.runs.set (s.generation + 1) r) : s'.Tally ended where
  inFlight g := by
    have hflight := h.inFlight g
    rw [InFlight, hruns, inFlight_set, hgeneration, ← InFlight, hflight]
    -- No run has ended before it was issued.
    have hnew (hmem : g ∈ ended) : g ≤ s.generation := (h.issued g hmem).2
    constructor
    · rintro (rfl | ⟨hpos, hle, hnot⟩)
      · exact ⟨Nat.succ_pos _, Nat.le_refl _, fun hmem => absurd (hnew hmem) (by omega)⟩
      · exact ⟨hpos, by omega, hnot⟩
    · rintro ⟨hpos, hle, hnot⟩
      by_cases hg : g = s.generation + 1
      · exact .inl hg
      · exact .inr ⟨hpos, by omega, hnot⟩
  issued g hg := by
    have hissued := h.issued g hg
    rw [hgeneration]
    omega
  once := h.once

theorem Tally.finish {ended : List Nat} (h : s.Tally ended) {g : Nat} (hg : s.InFlight g)
    (hgeneration : s'.generation = s.generation) (hruns : s'.runs = s.runs.erase g) :
    s'.Tally (ended ++ [g]) where
  inFlight g' := by
    have hflight := h.inFlight g'
    rw [InFlight, hruns, Table.get?_erase, hgeneration]
    split
    · next hsame => simp [hsame]
    · next hne =>
      rw [← InFlight, hflight]
      simp [hne]
  issued g' hg' := by
    rw [hgeneration]
    rcases List.mem_append.1 hg' with hg' | hg'
    · exact h.issued g' hg'
    · obtain rfl := List.mem_singleton.1 hg'
      have hflight := (h.inFlight g').1 hg
      exact ⟨hflight.1, hflight.2.1⟩
  once := by
    have hnot := ((h.inFlight g).1 hg).2.2
    refine List.nodup_append.2 ⟨h.once, by simp, ?_⟩
    rintro a ha b hb rfl
    exact hnot (List.mem_singleton.1 hb ▸ ha)

theorem tally_of_fresh {around : Surroundings} (h : Fresh around s) : s.Tally [] where
  inFlight g := by
    rw [InFlight, h.runs, h.generation]
    constructor
    · rintro ⟨r, hr⟩
      cases hr
    · rintro ⟨hpos, hle, -⟩
      omega
  issued := nofun
  once := List.nodup_nil

/-- A step issues at most one run and ends at most one. -/
theorem Tally.step {ended : List Nat} (h : s.Tally ended) (event : Event) :
    (s.step event).1.Tally (ended ++ (s.ending? event).toList.map (·.generation)) := by
  cases hending : s.ending? event with
  | some x =>
    obtain ⟨-, r, hr, -⟩ := ending?_eq_some.1 hending
    obtain ⟨registry, disk, waiters, heq⟩ := s.finishWith_eq x.generation x.output
    rw [step_of_ending? hending, heq]
    exact h.finish ⟨r, hr⟩ rfl rfl
  | none =>
    have hnil : ended ++ (none : Option Ending).toList.map (·.generation) = ended :=
      List.append_nil ended
    rw [hnil]
    have hstep := s.stepped event
    generalize (s.step event).1 = s' at hstep ⊢
    cases hstep with
    | command t c =>
      cases s.issues_handle t c with
      | none generation runs => exact h.congr generation fun g => by rw [InFlight, InFlight, runs]
      | run request generation runs excluded reuse => exact h.issue generation runs
    | part g hpart =>
      cases hpart with
      | idle => exact h
      | part d e r r' before request attachments =>
        refine h.congr rfl fun g' => ?_
        refine inFlight_set.trans ⟨?_, .inr⟩
        rintro (rfl | hflight)
        · exact ⟨r, before⟩
        · exact hflight
    | finish g r output before done => exact (not_finish_of_ending? hending rfl before done).elim
    | lift clock due later pending =>
      have hidles := s.idles_lift clock due later
      exact h.congr hidles.generation fun g => by rw [InFlight, InFlight, hidles.runs]
    | around disk evictions failing => exact h.congr rfl fun g => Iff.rfl

/-- After any events, every run that was issued is in flight or has ended once. -/
theorem tally_after {around : Surroundings} (h : Fresh around s) (events : List Event) :
    (s.after events).Tally (s.ended events) := by
  induction events using List.reverseRecOn with
  | nil => exact tally_of_fresh h
  | append_singleton events event ih =>
    rw [ended_concat, after_append]
    exact ih.step event

end Service

end ContentBlocking
