import ContentBlocking.Proofs.Service.LateCompile
import Mathlib.Data.List.Induction
import Mathlib.Data.List.Nodup

/-!
# Artifacts that are overwritten

A run that ends after a later one was put in force changes nothing in the store.
But by then it has compiled, under the same identifiers, and the surfaces run
whatever the engine holds. So the artifacts in force are what the engine holds
exactly if no earlier run has overwritten one of them with another.

* `Service.commits`: what the runs have got from the engine, in order;
* `Service.History`: how the state of the service follows from its commits;
* `lookup_current_iff`: when the engine holds the artifacts in force.
-/

namespace ContentBlocking

/-- The latest artifact under an identifier, with the generation of its run. -/
def lastUnder (identifier : String) (commits : List Commit) : Option (Nat × Artifact) :=
  commits.foldl (fun last c =>
    ((c.artifacts.find? (·.identifier == identifier)).map (c.generation, ·)).or last) none

theorem lastUnder_append (identifier : String) (commits : List Commit) (c : Commit) :
    lastUnder identifier (commits ++ [c]) =
      ((c.artifacts.find? (·.identifier == identifier)).map (c.generation, ·)).or
        (lastUnder identifier commits) := by
  rw [lastUnder, List.foldl_append]
  rfl

theorem lastUnder_append_of? (identifier : String) (commits : List Commit) (g : Nat)
    (artifacts : List Artifact) :
    lastUnder identifier (commits ++ (Commit.of? g artifacts).toList) =
      ((artifacts.find? (·.identifier == identifier)).map (g, ·)).or
        (lastUnder identifier commits) := by
  cases artifacts with
  | nil =>
    rw [show (Commit.of? g []).toList = [] from rfl, List.append_nil]
    rfl
  | cons a artifacts => exact lastUnder_append identifier commits ⟨g, a :: artifacts⟩

/-- The run with the number `g` has got the artifact in one of the commits. -/
def Gets (commits : List Commit) (g : Nat) (a : Artifact) : Prop :=
  ∃ artifacts, ⟨g, artifacts⟩ ∈ commits ∧ a ∈ artifacts

theorem gets_append_iff {commits commits' : List Commit} {g : Nat} {a : Artifact} :
    Gets (commits ++ commits') g a ↔ Gets commits g a ∨ Gets commits' g a := by
  simp only [Gets, List.mem_append, or_and_right, exists_or]

theorem gets_append_of?_iff {commits : List Commit} {g g' : Nat} {artifacts : List Artifact}
    {a : Artifact} : Gets (commits ++ (Commit.of? g' artifacts).toList) g a ↔
      Gets commits g a ∨ g = g' ∧ a ∈ artifacts := by
  rw [gets_append_iff]
  refine or_congr_right ⟨?_, ?_⟩
  · rintro ⟨artifacts', hc, ha⟩
    obtain ⟨rfl, rfl⟩ := Commit.mk.inj (Commit.eq_of_mem_of? hc)
    exact ⟨rfl, ha⟩
  · rintro ⟨rfl, ha⟩
    refine ⟨artifacts, ?_, ha⟩
    rw [Commit.of?, if_neg (mt List.isEmpty_iff.1 (List.ne_nil_of_mem ha))]
    exact List.mem_singleton_self _

theorem gets_of_lastUnder {identifier : String} {commits : List Commit} {g : Nat} {a : Artifact}
    (h : lastUnder identifier commits = some (g, a)) :
    Gets commits g a ∧ a.identifier = identifier := by
  -- The latest commit is looked at first, so the induction takes commits from the end.
  induction commits using List.reverseRecOn with
  | nil => cases h
  | append_singleton commits c ih =>
    rw [lastUnder_append] at h
    cases hfind : c.artifacts.find? (·.identifier == identifier) with
    | none =>
      rw [hfind] at h
      exact (ih h).imp_left fun hgets => gets_append_iff.2 (.inl hgets)
    | some b =>
      rw [hfind] at h
      obtain ⟨rfl, rfl⟩ := Prod.mk.inj (Option.some.inj h)
      exact ⟨⟨c.artifacts, List.mem_concat_self, List.mem_of_find?_eq_some hfind⟩,
        by simpa using List.find?_some hfind⟩

theorem Gets.exists_lastUnder {commits : List Commit} {g : Nat} {a : Artifact}
    (h : Gets commits g a) : ∃ g' b, lastUnder a.identifier commits = some (g', b) := by
  induction commits using List.reverseRecOn with
  | nil =>
    obtain ⟨artifacts, hc, -⟩ := h
    cases hc
  | append_singleton commits c ih =>
    rw [lastUnder_append]
    cases hfind : c.artifacts.find? (·.identifier == a.identifier) with
    | some b => exact ⟨c.generation, b, rfl⟩
    -- The commit itself would have been found.
    | none =>
      rcases gets_append_iff.1 h with h | ⟨artifacts, hc, ha⟩
      · exact ih h
      · obtain rfl := List.mem_singleton.1 hc
        have := List.find?_eq_none.1 hfind a ha
        simp at this

namespace Service

/-- The commits of some events, in their order. -/
def commits (s : Service) : List Event → List Commit
  | [] => []
  | event :: events => (s.commitOf event).toList ++ (s.step event).1.commits events

/-- The state follows from the commits so far: the engine holds the latest artifact under
    each identifier, and the artifacts in force are those of commits. A commit is by a run
    that is in flight or by one that is over, which then is no later than the one whose
    artifacts are in force. -/
structure History (h : List Commit) (s : Service) : Prop where
  keyed : s.store.engine.IsKeyed
  held : ∀ identifier g a, lastUnder identifier h = some (g, a) →
    s.store.engine.lookup identifier = some a
  inForce : ∀ a ∈ s.store.current, Gets h s.store.installedGeneration a
  got : ∀ g, ∀ a ∈ s.got g, Gets h g a
  origin : ∀ g a, Gets h g a →
    a ∈ s.got g ∨ (s.runs.get? g = none ∧ g ≤ s.store.installedGeneration)
  issued : ∀ g r, s.runs.get? g = some r → g ≤ s.generation
  known : ∀ g a, Gets h g a → g ≤ s.generation
  distinct : ∀ g a b, Gets h g a → Gets h g b → a.identifier = b.identifier → a = b

variable {s s' : Service} {h : List Commit}

theorem got_congr {g : Nat} (hruns : s'.runs.get? g = s.runs.get? g) : s'.got g = s.got g := by
  rw [got, got, hruns]

theorem History.idles (hs : s.History h) (hi : Idles s s') : s'.History h where
  keyed identifier a ha := hs.keyed identifier a (by rw [← hi.rules.lookup, ha])
  held identifier g a ha := by rw [hi.rules.lookup, hs.held identifier g a ha]
  inForce := by
    rw [hi.rules.current, hi.rules.installedGeneration]
    exact hs.inForce
  got g := by
    rw [got_congr (hi.runs g)]
    exact hs.got g
  origin g a ha := by
    rw [got_congr (hi.runs g), hi.runs, hi.rules.installedGeneration]
    exact hs.origin g a ha
  issued g r hr := by
    rw [hi.runs] at hr
    rw [hi.generation]
    exact hs.issued g r hr
  known g a ha := by
    rw [hi.generation]
    exact hs.known g a ha
  distinct := hs.distinct

/-- What a run in flight has got in its commits it still has. -/
theorem History.mem_got (hs : s.History h) {g : Nat} {r : CompileRun}
    (hr : s.runs.get? g = some r) {a : Artifact} (ha : Gets h g a) : a ∈ r.got := by
  rcases hs.origin g a ha with hgot | ⟨hnone, -⟩
  · exact got_of_get? hr ▸ hgot
  · cases hr.symm.trans hnone

theorem History.startRun (hs : s.History h) (reuse : Option (List String)) (refresh : Bool)
    (waiter : Option Waiter) : (s.startRun reuse refresh waiter).History h := by
  have hruns (g : Nat) : ∃ r, r.got = [] ∧ (s.startRun reuse refresh waiter).runs.get? g =
      if g = s.generation + 1 then some r else s.runs.get? g :=
    ⟨_, rfl, Table.get?_set _ _ _ _⟩
  -- The new run has a number of its own.
  have hother {g : Nat} (hg : g ≤ s.generation) :
      (s.startRun reuse refresh waiter).runs.get? g = s.runs.get? g := by
    obtain ⟨r, -, hget⟩ := hruns g
    rw [hget, if_neg (by omega)]
  refine ⟨hs.keyed, hs.held, hs.inForce, fun g a ha => ?_, fun g a ha => ?_, fun g r hr => ?_,
    fun g a ha => Nat.le_succ_of_le (hs.known g a ha), hs.distinct⟩
  · obtain ⟨r, hnothing, hget⟩ := hruns g
    by_cases hg : g = s.generation + 1
    · rw [if_pos hg] at hget
      rw [got_of_get? hget, hnothing] at ha
      cases ha
    · rw [if_neg hg] at hget
      exact hs.got g a (got_congr hget ▸ ha)
  · have hsame := hother (hs.known g a ha)
    rw [got_congr hsame, hsame]
    exact hs.origin g a ha
  · obtain ⟨r', -, hget⟩ := hruns g
    rw [hget] at hr
    split at hr
    · next hg => exact Nat.le_of_eq hg
    · exact Nat.le_succ_of_le (hs.issued g r hr)

theorem got_of_changesRun {g : Nat} {r : Option CompileRun} (after : ChangesRun s s' g r)
    (g' : Nat) : s'.got g' = if g' = g then (r.map CompileRun.got).getD [] else s.got g' := by
  rw [got, after g']
  split <;> rfl

theorem got_of_work {g : Nat} {r r' : CompileRun} {new : List Artifact}
    (got : r'.got = r.got ++ new) (after : ChangesRun s s' g (some r')) (g' : Nat) :
    s'.got g' = if g' = g then r.got ++ new else s.got g' :=
  (got_of_changesRun after g').trans (by rw [Option.map_some, Option.getD_some, got])

/-- What an engine holds that has held the latest of all commits, after one more. -/
theorem lookup_of_commit {e e' : Engine}
    (held : ∀ identifier g a, lastUnder identifier h = some (g, a) → e.lookup identifier = some a)
    {g : Nat} {new : List Artifact} (commits : e.Commits new e') {identifier : String} {g' : Nat}
    {a : Artifact} (ha : lastUnder identifier (h ++ (Commit.of? g new).toList) = some (g', a)) :
    e'.lookup identifier = some a := by
  rw [lastUnder_append_of?] at ha
  cases hfind : new.find? (·.identifier == identifier) with
  | some b =>
    rw [hfind] at ha
    obtain ⟨-, rfl⟩ := Prod.mk.inj (Option.some.inj ha)
    have hid : b.identifier = identifier := by simpa using List.find?_some hfind
    rw [← hid]
    exact commits.held b (List.mem_of_find?_eq_some hfind)
  | none =>
    -- The engine holds under the identifier what it held before.
    rw [hfind] at ha
    rw [commits.lookup_others fun b hb => by simpa using List.find?_eq_none.1 hfind b hb]
    exact held identifier g' a ha

theorem History.work (hs : s.History h) {g : Nat} {r r' : CompileRun} {new : List Artifact}
    (generation : s'.generation = s.generation) (current : s'.store.current = s.store.current)
    (installedGeneration : s'.store.installedGeneration = s.store.installedGeneration)
    (before : s.runs.get? g = some r) (got : r'.got = r.got ++ new)
    (after : ChangesRun s s' g (some r')) (commits : s.store.engine.Commits new s'.store.engine)
    (apart : ∀ a ∈ r.got, ∀ b ∈ new, b.identifier ≠ a.identifier) :
    s'.History (h ++ (Commit.of? g new).toList) where
  keyed := commits.isKeyed hs.keyed
  held _ _ _ ha := lookup_of_commit hs.held commits ha
  inForce := by
    rw [current, installedGeneration]
    exact fun a ha => gets_append_iff.2 (.inl (hs.inForce a ha))
  got g' a ha := by
    rw [got_of_work got after] at ha
    refine gets_append_of?_iff.2 ?_
    split at ha
    · next hg =>
      subst hg
      exact (List.mem_append.1 ha).imp (fun ha => hs.got g' a (got_of_get? before ▸ ha))
        fun ha => ⟨rfl, ha⟩
    · exact .inl (hs.got g' a ha)
  origin g' a ha := by
    rw [got_of_work got after, after, installedGeneration]
    have ha := gets_append_of?_iff.1 ha
    split
    · next hg =>
      subst hg
      exact .inl (List.mem_append.2 (ha.imp (hs.mem_got before) And.right))
    · next hg => exact hs.origin g' a (ha.resolve_right fun hnew => hg hnew.1)
  issued g' r'' hr := by
    rw [after] at hr
    rw [generation]
    split at hr
    · next hg => exact hg ▸ hs.issued g r before
    · exact hs.issued g' r'' hr
  known g' a ha := by
    rw [generation]
    rcases gets_append_of?_iff.1 ha with ha | ⟨rfl, -⟩
    · exact hs.known g' a ha
    · exact hs.issued g' r before
  distinct g' a b ha hb hid := by
    rcases gets_append_of?_iff.1 ha with hold | ⟨rfl, hnew⟩ <;>
      rcases gets_append_of?_iff.1 hb with hold' | ⟨hg, hnew'⟩
    · exact hs.distinct g' a b hold hold' hid
    · -- What a run gets has other identifiers than what it has.
      subst hg
      exact absurd hid.symm (apart a (hs.mem_got before hold) b hnew')
    · exact absurd hid (apart b (hs.mem_got before hold') a hnew)
    · exact commits.eq_of_identifier_eq hnew hnew' hid

/-- A run ends, and what is in force is the same or what the run has got. -/
theorem History.finish (hs : s.History h) {g : Nat} (generation : s'.generation = s.generation)
    (lookup : ∀ identifier, s'.store.engine.lookup identifier = s.store.engine.lookup identifier)
    (inForce : ∀ a ∈ s'.store.current, Gets h s'.store.installedGeneration a)
    (latest : s.store.installedGeneration ≤ s'.store.installedGeneration)
    (ended : s.got g ≠ [] → g ≤ s'.store.installedGeneration)
    (after : ChangesRun s s' g none) : s'.History h where
  keyed identifier a ha := hs.keyed identifier a (by rw [← lookup, ha])
  held identifier g a ha := by rw [lookup, hs.held identifier g a ha]
  inForce := inForce
  got g' a ha := by
    rw [got_of_changesRun after] at ha
    split at ha
    · cases ha
    · exact hs.got g' a ha
  origin g' a ha := by
    rw [got_of_changesRun after, after]
    split
    · -- What the run has got is no later than what is in force now.
      next heq =>
      refine .inr ⟨rfl, ?_⟩
      rcases hs.origin g' a ha with hgot | ⟨-, hle⟩
      · subst heq
        exact ended (List.ne_nil_of_mem hgot)
      · exact Nat.le_trans hle latest
    · exact (hs.origin g' a ha).imp_right fun hover => ⟨hover.1, Nat.le_trans hover.2 latest⟩
  issued g' r hr := by
    rw [after] at hr
    rw [generation]
    split at hr
    · cases hr
    · exact hs.issued g' r hr
  known g' a ha := by
    rw [generation]
    exact hs.known g' a ha
  distinct := hs.distinct

theorem History.moves (hs : s.History h) (hn : EveryRun CompileRun.IsNumbered s)
    {c : Option Commit} (hm : Moves s s' c) : s'.History (h ++ c.toList) := by
  cases hm with
  | work generation g r r' new current installedGeneration before got after commits apart =>
    exact hs.work generation current installedGeneration before got after commits
      (apart (hn g r before))
  | idle hi =>
    rw [Option.toList_none, List.append_nil]
    exact hs.idles hi
  | install generation g lookup got latest installed after =>
    rw [Option.toList_none, List.append_nil]
    refine hs.finish generation lookup (fun a ha => ?_) (installed ▸ latest)
      (fun _ => installed ▸ Nat.le_refl g) after
    rw [installed]
    exact hs.got g a (got ▸ ha)
  | discard generation g rules stale after =>
    rw [Option.toList_none, List.append_nil]
    refine hs.finish generation rules.lookup ?_ (Nat.le_of_eq rules.installedGeneration.symm)
      (fun hgot => ?_) after
    · rw [rules.current, rules.installedGeneration]
      exact hs.inForce
    · rw [rules.installedGeneration]
      exact Nat.le_of_lt (stale hgot)

/-! ### Commands -/

theorem keptByParts_history (h : List Commit) : KeptByParts (·.History h) :=
  keptByParts_of_idles (fun _ _ hi hs => hs.idles hi)
    fun _ reuse refresh waiter hs => hs.startRun reuse refresh waiter

/-! ### All steps -/

theorem keptByRuns_isNumbered : KeptByRuns CompileRun.IsNumbered where
  waiting _ := trivial
  lookUp r e h := h.looksUp (r.looksUp e)
  beginList r source d now i h := h.loads (r.loads_beginList source d now i)
  finishList r source d now i reply h := h.loads (r.loads_finishList source d now i reply)
  compile r e h := h.compiles (r.compiles e)

theorem History.step (hs : s.History h) (hn : EveryRun CompileRun.IsNumbered s) (event : Event) :
    (s.step event).1.History (h ++ (s.commitOf event).toList) := by
  cases event with
  | command t c =>
    -- Commands start runs, but do no part of them.
    have hnone : s.commitOf (.command t c) = none := rfl
    rw [hnone, Option.toList_none, List.append_nil]
    exact (keptByParts_history h).handle hs t c
  | _ => exact hs.moves hn (moves_step hs.keyed nofun)

theorem History.after (hs : s.History h) (hn : EveryRun CompileRun.IsNumbered s)
    (events : List Event) : (s.after events).History (h ++ s.commits events) := by
  induction events generalizing s h with
  | nil =>
    rw [commits, List.append_nil]
    exact hs
  | cons event events ih =>
    rw [after_cons, commits, ← List.append_assoc]
    exact ih (hs.step hn event) (everyRun_step keptByRuns_isNumbered event hn)

theorem history_of_fresh {around : Surroundings} (hs : Fresh around s)
    (hk : around.engine.IsKeyed) : s.History [] where
  keyed := by
    rw [hs.store]
    exact hk
  held _ _ _ := nofun
  inForce a ha := by
    rw [hs.store] at ha
    cases ha
  got g a ha := by
    rw [got, hs.runs] at ha
    cases ha
  origin g a := fun ⟨_, hc, _⟩ => nomatch hc
  issued g r hr := by
    rw [hs.runs] at hr
    cases hr
  known g a := fun ⟨_, hc, _⟩ => nomatch hc
  distinct g a b := fun ⟨_, hc, _⟩ => nomatch hc

/-- After any events, the state follows from the commits. -/
theorem history_after {config : Config} {around : Surroundings} {first : SessionId}
    (hstart : start config around first = .ok s) (hk : around.engine.IsKeyed)
    (events : List Event) : (s.after events).History (s.commits events) := by
  have hfresh := fresh_of_start hstart
  exact (history_of_fresh hfresh hk).after
    (everyRun_after keptByRuns_isNumbered hfresh []) events

/-! ### The artifacts in force -/

/-- The latest artifact that the engine was given under the identifier of one
    that is in force is another, and the run that gave it is an earlier one. -/
def IsOverwritten (s : Service) (h : List Commit) : Prop :=
  ∃ a ∈ s.store.current, ∃ g b, lastUnder a.identifier h = some (g, b) ∧
    g < s.store.installedGeneration ∧ b ≠ a

/-- When no run is in flight, what was got last under an identifier is by a run
    that is no later than the one whose artifacts are in force. -/
theorem History.generation_le (hs : s.History h) (hruns : ∀ g, s.runs.get? g = none) {g : Nat}
    {a : Artifact} (ha : Gets h g a) : g ≤ s.store.installedGeneration := by
  rcases hs.origin g a ha with hgot | ⟨-, hle⟩
  · rw [Service.got, hruns] at hgot
    cases hgot
  · exact hle

theorem History.lookup_iff (hs : s.History h) (hruns : ∀ g, s.runs.get? g = none) :
    (∀ a ∈ s.store.current, s.store.engine.lookup a.identifier = some a) ↔ ¬s.IsOverwritten h := by
  constructor
  · rintro hlookup ⟨a, ha, g, b, hlast, -, hne⟩
    have hb := (hs.held _ g b hlast).symm.trans (hlookup a ha)
    exact hne (Option.some.inj hb)
  · intro hnot a ha
    have hgets := hs.inForce a ha
    obtain ⟨g, b, hlast⟩ := hgets.exists_lastUnder
    obtain ⟨hb, hid⟩ := gets_of_lastUnder hlast
    rw [hs.held _ _ b hlast]
    by_contra hne
    have hne : b ≠ a := fun heq => hne (by rw [heq])
    rcases Nat.lt_or_eq_of_le (hs.generation_le hruns hb) with hlt | heq
    · -- An earlier run has put its own artifact in the place of this one.
      exact hnot ⟨a, ha, g, b, hlast, hlt, hne⟩
    · -- Then it is from the very run whose artifacts are in force.
      exact hne (hs.distinct g b a hb (heq ▸ hgets) hid)

theorem le_of_lastUnder {commits : List Commit}
    (hp : commits.Pairwise fun c c' => c.generation ≤ c'.generation) {g g' : Nat} {a b : Artifact}
    (h : Gets commits g a) (hlast : lastUnder a.identifier commits = some (g', b)) : g ≤ g' := by
  induction commits using List.reverseRecOn with
  | nil => cases hlast
  | append_singleton commits c' ih =>
    -- The last commit is by the latest run, so what it holds under an identifier is not older.
    obtain ⟨hcommits, -, hle⟩ := List.pairwise_append.1 hp
    rw [lastUnder_append] at hlast
    cases hfind : c'.artifacts.find? (·.identifier == a.identifier) with
    | some b' =>
      rw [hfind] at hlast
      obtain ⟨rfl, -⟩ := Prod.mk.inj (Option.some.inj hlast)
      rcases gets_append_iff.1 h with ⟨artifacts, hc, -⟩ | ⟨artifacts, hc, -⟩
      · exact hle _ hc c' (List.mem_singleton_self c')
      · exact Nat.le_of_eq (congrArg Commit.generation (List.mem_singleton.1 hc))
    | none =>
      rw [hfind] at hlast
      rcases gets_append_iff.1 h with h | ⟨artifacts, hc, ha⟩
      · exact ih hcommits h hlast
      · obtain rfl := List.mem_singleton.1 hc
        have := List.find?_eq_none.1 hfind a ha
        simp at this

/-- Runs that come to the engine in their order overwrite nothing. -/
theorem History.not_isOverwritten (hs : s.History h)
    (hp : h.Pairwise fun c c' => c.generation ≤ c'.generation) : ¬s.IsOverwritten h := by
  rintro ⟨a, ha, g, b, hlast, hlt, -⟩
  exact absurd (le_of_lastUnder hp (hs.inForce a ha) hlast) (Nat.not_le.2 hlt)

/-- After any events, when no run is in flight, the engine holds the artifacts
    in force exactly if no earlier run has put another in the place of one of
    them. That is so if the runs have come to the engine in their order, but it
    does not matter in which order they ended. -/
theorem lookup_current_iff {config : Config} {around : Surroundings} {first : SessionId}
    {s₀ : Service} (hstart : start config around first = .ok s₀) (hk : around.engine.IsKeyed)
    (events : List Event) (hruns : ∀ g, (s₀.after events).runs.get? g = none) :
    let s := s₀.after events
    ((∀ a ∈ s.store.current, s.store.engine.lookup a.identifier = some a) ↔
        ¬s.IsOverwritten (s₀.commits events)) ∧
      ((s₀.commits events).Pairwise (fun c c' => c.generation ≤ c'.generation) →
        ∀ a ∈ s.store.current, s.store.engine.lookup a.identifier = some a) := by
  intro s
  have hs : s.History (s₀.commits events) := history_after hstart hk events
  exact ⟨hs.lookup_iff hruns, fun hp => (hs.lookup_iff hruns).2 (hs.not_isOverwritten hp)⟩

theorem isKeyed_empty : ({} : Engine).IsKeyed := fun _ _ h => nomatch h

/-- A domain comes on the whitelist while a run is under way, which then comes
    late to the engine. -/
theorem lookup_current_iff_late : ∃ s₀, start {} {} .nil = .ok s₀ ∧
    (∀ g, (s₀.after lateEvents).runs.get? g = none) ∧
    (s₀.after lateEvents).IsOverwritten (s₀.commits lateEvents) := by
  obtain ⟨s₀, hstart⟩ := exists_start (show Config.validate {} = .ok {} from rfl) {} .nil
  obtain ⟨hruns, a, ha, hne⟩ := lookup_after_lateEvents hstart
  have hiff := (lookup_current_iff hstart isKeyed_empty lateEvents hruns).1
  -- If nothing were overwritten then the engine would hold what is in force.
  refine ⟨s₀, hstart, hruns, ?_⟩
  by_contra hnot
  exact hne (hiff.2 hnot a ha)

/-- The engine need not hold the artifacts in force when no run is in flight. -/
theorem not_forall_lookup_current : ¬∀ (config : Config) (around : Surroundings)
    (first : SessionId) (s₀ : Service) (events : List Event),
    start config around first = .ok s₀ → around.engine.IsKeyed →
    (∀ g, (s₀.after events).runs.get? g = none) →
    ∀ a ∈ (s₀.after events).store.current,
      (s₀.after events).store.engine.lookup a.identifier = some a := by
  intro hall
  obtain ⟨s₀, hstart⟩ := exists_start (show Config.validate {} = .ok {} from rfl) {} .nil
  obtain ⟨hruns, a, ha, hne⟩ := lookup_after_lateEvents hstart
  exact hne (hall {} {} .nil s₀ lateEvents hstart isKeyed_empty hruns a ha)

end Service

end ContentBlocking
