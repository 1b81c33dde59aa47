import ContentBlocking.Proofs.Artifact.StoreSurfaces
import ContentBlocking.Proofs.CompileRun
import ContentBlocking.Proofs.Service.Steps

/-!
# Moves of the runs

A run waits, loads its lists, has the engine compile their shards one by one, and
ends. What the engine holds changes only when a run *commits*: it gets artifacts from
the engine, by compiling a shard or by finding those of an earlier run. Between two
commits of a run there may be some of others. What is in force changes only when a
run ends.

* `Service.Moves`: everything that a step other than a command can do to the runs
  and the artifacts;
* `Service.moves_step`: those steps do one of these things.
-/

namespace ContentBlocking

/-- A run has got artifacts from the engine. -/
structure Commit where
  generation : Nat
  artifacts : List Artifact

/-- The commit of the run with this number that gets some artifacts, if there are any. -/
def Commit.of? (generation : Nat) (artifacts : List Artifact) : Option Commit :=
  if artifacts.isEmpty then none else some ⟨generation, artifacts⟩

theorem Commit.eq_of_mem_of? {g : Nat} {artifacts : List Artifact} {c : Commit}
    (h : c ∈ (of? g artifacts).toList) : c = ⟨g, artifacts⟩ := by
  rw [Option.mem_toList, of?] at h
  split at h
  · cases h
  · exact (Option.some.inj h).symm

/-- The store after the end of a run with this output. -/
def ArtifactStore.ended (st : ArtifactStore) (enabled : Bool) (generation : Nat) :
    Except Failure RunOutput → ArtifactStore
  | .error _ => st
  | .ok output =>
    if generation < st.installedGeneration then st
    else
      let st := { st with installedGeneration := generation, current := output.artifacts }
      if enabled then st.applyAll.1 else st

namespace Service

/-- The artifacts that a run in flight has got so far. -/
def got (s : Service) (generation : Nat) : List Artifact :=
  ((s.runs.get? generation).map CompileRun.got).getD []

theorem got_of_get? {s : Service} {g : Nat} {r : CompileRun} (hr : s.runs.get? g = some r) :
    s.got g = r.got := by
  rw [got, hr]
  rfl

/-- The engine holds what it held, and what was in force is. -/
structure SameRules (s s' : Service) : Prop where
  lookup : ∀ identifier, s'.store.engine.lookup identifier = s.store.engine.lookup identifier
  current : s'.store.current = s.store.current
  installedGeneration : s'.store.installedGeneration = s.store.installedGeneration

theorem Quiet.sameRules {s s' : Service} (h : s.Quiet s') : SameRules s s' where
  lookup _ := by rw [h.store]
  current := by rw [h.store]
  installedGeneration := by rw [h.store]

/-- Nothing happens to the runs, to what the engine holds and to what is in
    force. -/
structure Idles (s s' : Service) : Prop where
  rules : SameRules s s'
  generation : s'.generation = s.generation
  runs : ∀ g, s'.runs.get? g = s.runs.get? g

theorem idles_refl (s : Service) : Idles s s := ⟨⟨fun _ => rfl, rfl, rfl⟩, rfl, fun _ => rfl⟩

theorem Idles.trans {s s' s'' : Service} (h : Idles s s') (h' : Idles s' s'') : Idles s s'' where
  rules := {
    lookup := fun i => (h'.rules.lookup i).trans (h.rules.lookup i)
    current := h'.rules.current.trans h.rules.current
    installedGeneration := h'.rules.installedGeneration.trans h.rules.installedGeneration }
  generation := h'.generation.trans h.generation
  runs g := (h'.runs g).trans (h.runs g)

theorem Quiet.idles {s s' : Service} (h : s.Quiet s') : Idles s s' :=
  ⟨h.sameRules, h.generation, fun _ => by rw [h.runs]⟩

/-- The run with this number is changed, and no other is. -/
def ChangesRun (s s' : Service) (generation : Nat) (r : Option CompileRun) : Prop :=
  ∀ g, s'.runs.get? g = if g = generation then r else s.runs.get? g

theorem changesRun_erase (s : Service) (generation : Nat) :
    ChangesRun s { s with runs := s.runs.erase generation } generation none :=
  fun _ => Table.get?_erase _ _ _

/-- What a step other than a command does to the runs and the artifacts, and the
    commit that it is. -/
inductive Moves (s s' : Service) : Option Commit → Prop
  | idle (h : Idles s s') : Moves s s' none
  /-- A run goes on, and the artifacts that it gets are stored. -/
  | work (generation : s'.generation = s.generation) (g : Nat) (r r' : CompileRun)
      (new : List Artifact) (current : s'.store.current = s.store.current)
      (installedGeneration : s'.store.installedGeneration = s.store.installedGeneration)
      (before : s.runs.get? g = some r) (got : r'.got = r.got ++ new)
      (after : ChangesRun s s' g (some r')) (commits : s.store.engine.Commits new s'.store.engine)
      (apart : r.IsNumbered → ∀ a ∈ r.got, ∀ b ∈ new, b.identifier ≠ a.identifier) :
      Moves s s' (Commit.of? g new)
  /-- A run ends, and its artifacts are put in force. -/
  | install (generation : s'.generation = s.generation) (g : Nat)
      (lookup : ∀ identifier, s'.store.engine.lookup identifier =
        s.store.engine.lookup identifier)
      (got : s.got g = s'.store.current)
      (latest : s.store.installedGeneration ≤ g)
      (installed : s'.store.installedGeneration = g)
      (after : ChangesRun s s' g none) : Moves s s' none
  /-- A run ends that failed, or after a later one was put in force. -/
  | discard (generation : s'.generation = s.generation) (g : Nat) (rules : SameRules s s')
      (stale : s.got g ≠ [] → g < s.store.installedGeneration)
      (after : ChangesRun s s' g none) : Moves s s' none

variable {s : Service}

theorem moves_refl (s : Service) : Moves s s none := .idle s.idles_refl

/-- The commit of run `g` between `s` and `s'`, if it has got artifacts. -/
def newCommit (s s' : Service) (g : Nat) : Option Commit :=
  Commit.of? g ((s'.got g).drop (s.got g).length)

/-! ### Steps of one run -/

theorem newCommit_of_same {s' : Service} {g : Nat} (h : s'.runs.get? g = s.runs.get? g) :
    newCommit s s' g = none := by
  rw [newCommit, got, got, h, List.drop_length]
  rfl

/-- A part of a run is done, with whatever it does to the files. -/
theorem moves_of_goes {g : Nat} {r r' : CompileRun} {e : Engine} (hr : s.runs.get? g = some r)
    (hgoes : CompileRun.Goes s.store.engine r e r') (d : Disk) :
    let s' : Service := { s with
      disk := d
      store := { s.store with engine := e }
      runs := s.runs.set g r' }
    Moves s s' (newCommit s s' g) := by
  intro s'
  have hafter : ChangesRun s s' g (some r') := fun _ => Table.get?_set _ _ _ _
  cases hgoes with
  | stays =>
    -- The run is put back as it was.
    have hruns (g' : Nat) : s'.runs.get? g' = s.runs.get? g' := by
      rw [hafter g']
      split
      · next h => rw [h, hr]
      · rfl
    rw [newCommit_of_same (hruns g)]
    exact .idle ⟨⟨fun _ => rfl, rfl, rfl⟩, rfl, hruns⟩
  | works new got commits apart =>
    have hgot : s'.got g = r.got ++ new := (got_of_get? ((hafter g).trans (if_pos rfl))).trans got
    rw [newCommit, got_of_get? hr, hgot, List.drop_left]
    refine .work ?_ g r r' new ?_ ?_ hr got hafter commits apart
    · rfl
    · rfl
    · rfl

/-- An event that works on a run does nothing if there is none, and is a part of
    it if there is. -/
theorem moves_of_cases {s' : Service} {g : Nat} (hnone : s.runs.get? g = none → s' = s)
    (hsome : ∀ r, s.runs.get? g = some r → ∃ d e r', CompileRun.Goes s.store.engine r e r' ∧
      s' = { s with disk := d, store := { s.store with engine := e }, runs := s.runs.set g r' }) :
    Moves s s' (newCommit s s' g) := by
  cases hr : s.runs.get? g with
  | none =>
    obtain rfl := hnone hr
    rw [newCommit_of_same rfl]
    exact moves_refl s'
  | some r =>
    obtain ⟨d, e, r', hgoes, rfl⟩ := hsome r hr
    exact moves_of_goes hr hgoes d

theorem moves_lookUp (hk : s.store.engine.IsKeyed) (g : Nat) :
    Moves s (s.lookUp g) (newCommit s (s.lookUp g) g) := by
  refine moves_of_cases (fun hr => ?_) fun r hr => ?_
  · rw [lookUp, changeRun, hr]
  · refine ⟨s.disk, s.store.engine, _, (r.looksUp _).goes hk, ?_⟩
    rw [lookUp, changeRun, hr]

theorem moves_beginList (s : Service) (g : Nat) (now : UInt64) (i : Nat) :
    Moves s (s.beginList g now i) (newCommit s (s.beginList g now i) g) := by
  refine moves_of_cases (fun hr => ?_) fun r hr => ?_
  · rw [beginList, changeRun, hr]
  · refine ⟨s.disk, s.store.engine, _, (r.loads_beginList s.source s.disk now i).goes _, ?_⟩
    rw [beginList, changeRun, hr]

theorem moves_finishList (s : Service) (g : Nat) (now : UInt64) (i : Nat) (reply : FetchReply) :
    Moves s (s.finishList g now i reply) (newCommit s (s.finishList g now i reply) g) := by
  refine moves_of_cases (fun hr => ?_) fun r hr => ?_
  · rw [finishList, hr]
  · refine ⟨(r.finishList s.source s.disk now i reply).1, s.store.engine, _,
      (r.loads_finishList s.source s.disk now i reply).goes _, ?_⟩
    rw [finishList, hr]

theorem moves_compileRun (s : Service) (g : Nat) :
    Moves s (s.compileRun g) (newCommit s (s.compileRun g) g) := by
  refine moves_of_cases (fun hr => ?_) fun r hr => ?_
  · rw [compileRun, hr]
  · refine ⟨s.disk, _, _, (r.compiles s.store.engine).goes, ?_⟩
    rw [compileRun, hr]

/-! ### The end of a run -/

theorem lookup_of_same {e e' : Engine} (h : e.SameButAttachments e') (identifier : String) :
    e'.lookup identifier = e.lookup identifier := by
  rw [Engine.lookup, Engine.lookup, h.stored]

/-- A run that has artifacts ends. They are put in force unless later ones are. -/
structure Ends (s : Service) (g : Nat) (artifacts : List Artifact) (s' : Service) : Prop where
  engine : s.store.engine.SameButAttachments s'.store.engine
  generation : s'.generation = s.generation
  after : ChangesRun s s' g none
  discarded : g < s.store.installedGeneration → s'.store.current = s.store.current ∧
    s'.store.installedGeneration = s.store.installedGeneration
  installed : s.store.installedGeneration ≤ g → s'.store.current = artifacts ∧
    s'.store.installedGeneration = g

theorem markUpdated_eq (s : Service) (refreshed : List (String × UInt64)) : ∃ registry disk,
    s.markUpdated refreshed = { s with registry := registry, disk := disk } := by
  rw [markUpdated]
  induction refreshed generalizing s with
  | nil => exact ⟨s.registry, s.disk, rfl⟩
  | cons x refreshed ih =>
    obtain ⟨registry, disk, heq⟩ := ih { s with
      registry := (s.registry.markUpdated s.disk x.1 x.2).1
      disk := (s.registry.markUpdated s.disk x.1 x.2).2 }
    exact ⟨registry, disk, heq⟩

theorem install_eq (s : Service) (g : Nat) (output : RunOutput) : ∃ disk,
    (s.install g output.artifacts).1 = { s with
      disk := disk
      store := s.store.ended s.isEnabled g (.ok output) } := by
  rw [install, ArtifactStore.install, ArtifactStore.ended]
  by_cases hg : g < s.store.installedGeneration
  · rw [if_pos hg, if_pos hg]
    exact ⟨s.disk, rfl⟩
  · rw [if_neg hg, if_neg hg]
    exact ⟨_, rfl⟩

theorem outcomeOf_eq (s : Service) (g : Nat) (output : Except Failure RunOutput) :
    ∃ registry disk, (s.outcomeOf g output).1 = { s with
      registry := registry
      disk := disk
      store := s.store.ended s.isEnabled g output } := by
  cases output with
  | error e => exact ⟨s.registry, s.disk, rfl⟩
  | ok output =>
    obtain ⟨registry, disk, hmarked⟩ := s.markUpdated_eq output.refreshed
    obtain ⟨disk', hinstall⟩ :=
      install_eq { s with registry := registry, disk := disk } g output
    refine ⟨registry, disk', ?_⟩
    rw [outcomeOf, hmarked]
    dsimp only
    rw [hinstall]
    rfl

/-- What the end of a run changes. -/
theorem finishWith_eq (s : Service) (g : Nat) (output : Except Failure RunOutput) :
    ∃ registry disk waiters, (s.finishWith g output).1 = { s with
      registry := registry
      disk := disk
      waiters := waiters
      runs := s.runs.erase g
      store := s.store.ended s.isEnabled g output } := by
  obtain ⟨registry, disk, houtcome⟩ :=
    outcomeOf_eq { s with runs := s.runs.erase g } g output
  rw [finishWith]
  dsimp only
  rw [houtcome]
  split
  · exact ⟨registry, disk, _, rfl⟩
  · exact ⟨registry, disk, s.waiters, rfl⟩

theorem ends_finishWith (s : Service) (g : Nat) (output : RunOutput) :
    s.Ends g output.artifacts (s.finishWith g (.ok output)).1 := by
  obtain ⟨registry, disk, waiters, heq⟩ := s.finishWith_eq g (.ok output)
  have hafter := changesRun_erase s g
  rw [heq]
  -- Artifacts of an earlier run than the one in force are discarded.
  by_cases hg : g < s.store.installedGeneration
  · have hended : s.store.ended s.isEnabled g (.ok output) = s.store := if_pos hg
    rw [hended]
    exact ⟨rfl, rfl, hafter, fun _ => ⟨rfl, rfl⟩, fun h => absurd hg (Nat.not_lt.2 h)⟩
  · rw [ArtifactStore.ended, if_neg hg]
    have hputs := ArtifactStore.puts_applyAll
      { s.store with installedGeneration := g, current := output.artifacts }
    dsimp only
    split
    · exact ⟨hputs.engine, rfl, hafter, fun h => absurd h hg,
        fun _ => ⟨hputs.current, hputs.installedGeneration⟩⟩
    · exact ⟨rfl, rfl, hafter, fun h => absurd h hg, fun _ => ⟨rfl, rfl⟩⟩

theorem moves_finishWith {g : Nat} {r : CompileRun} {output : Except Failure RunOutput}
    (hr : s.runs.get? g = some r) (hdone : r.stage = .done output) :
    Moves s (s.finishWith g output).1 none := by
  cases output with
  -- A run that failed has nothing to put in force.
  | error e =>
    have hgot : s.got g = [] := by
      rw [got_of_get? hr, CompileRun.got, CompileRun.output?, hdone]
      rfl
    obtain ⟨registry, disk, waiters, heq⟩ := s.finishWith_eq g (.error e)
    rw [heq]
    exact .discard rfl g ⟨fun _ => rfl, rfl, rfl⟩ (fun h => absurd hgot h) (changesRun_erase s g)
  | ok output =>
    have hgot : s.got g = output.artifacts := by
      rw [got_of_get? hr, CompileRun.got, CompileRun.output?_of_done hdone]
      rfl
    have hends := s.ends_finishWith g output
    by_cases hg : g < s.store.installedGeneration
    · obtain ⟨hcurrent, hinstalled⟩ := hends.discarded hg
      exact .discard hends.generation g ⟨lookup_of_same hends.engine, hcurrent, hinstalled⟩
        (fun _ => hg) hends.after
    · obtain ⟨hcurrent, hinstalled⟩ := hends.installed (Nat.le_of_not_lt hg)
      exact .install hends.generation g (lookup_of_same hends.engine) (hgot.trans hcurrent.symm)
        (Nat.le_of_not_lt hg) hinstalled hends.after

theorem moves_finishRun (s : Service) (g : Nat) : Moves s (s.finishRun g).1 none := by
  rw [finishRun]
  split
  · next request output hr => exact moves_finishWith hr rfl
  · exact moves_refl s

/-! ### Suspensions -/

theorem idles_reattach (s : Service) (surface : Surface) (number : Nat) :
    Idles s (s.reattach surface number) := by
  rw [reattach]
  split
  · next store heq =>
    rw [ArtifactStore.resume] at heq
    split at heq
    · obtain rfl := congrArg Prod.fst heq
      have hputs := ArtifactStore.puts_apply
        { s.store with suspended := s.store.suspended.erase surface } surface
      have hlookup := lookup_of_same hputs.engine
      refine ⟨?_, rfl, fun _ => rfl⟩
      show SameRules s { s with store := if s.isEnabled then _ else _ }
      split
      · exact ⟨hlookup, hputs.current, hputs.installedGeneration⟩
      · exact ⟨fun _ => rfl, rfl, rfl⟩
    · cases heq
  · exact s.idles_refl

theorem idles_lift (s : Service) (clock : Nat) (due later : List Reattachment) :
    Idles s (lift { s with clock := clock, reattachments := later } due) :=
  lift_induction (fun s' surface number h => h.trans (s'.idles_reattach surface number))
    ⟨⟨fun _ => rfl, rfl, rfl⟩, rfl, fun _ => rfl⟩ due

theorem idles_elapse (s : Service) (ms : Nat) : Idles s (s.elapse ms) := s.idles_lift _ _ _

/-! ### Commands -/

theorem suspend_fst_eq (st : ArtifactStore) (x : Surface) : ∃ suspensions suspended,
    (st.suspend x).1 =
      { (st.detach x).1 with suspensions := suspensions, suspended := suspended } := by
  rw [ArtifactStore.suspend]
  split
  · next heq =>
    rw [heq]
    exact ⟨_, _, rfl⟩
  · next heq =>
    rw [heq]
    exact ⟨_, _, rfl⟩

theorem idles_reload (s : Service) (surface : Surface) (url : String) :
    Idles s (s.reload surface url) := by
  have hputs := ArtifactStore.puts_detach s.store surface
  obtain ⟨suspensions, suspended, heq⟩ := suspend_fst_eq s.store surface
  have hstore : (s.reload surface url).store =
      (s.store.suspend surface).1.tell (.navigate surface url) := rfl
  rw [heq] at hstore
  refine ⟨⟨fun i => ?_, ?_, ?_⟩, rfl, fun _ => rfl⟩
  · rw [hstore]
    exact lookup_of_same hputs.engine i
  · rw [hstore]
    exact hputs.current
  · rw [hstore]
    exact hputs.installedGeneration

theorem idles_toggle (s : Service) : Idles s s.toggle := by
  have hputs := ArtifactStore.puts_detachAll s.store
  have hlookup := lookup_of_same hputs.engine
  rw [toggle]
  split
  · exact ⟨⟨fun _ => rfl, rfl, rfl⟩, rfl, fun _ => rfl⟩
  · exact ⟨⟨hlookup, hputs.current, hputs.installedGeneration⟩, rfl, fun _ => rfl⟩

theorem idles_register (s : Service) (surface : Surface) : Idles s (s.register surface) := by
  have hsame : ∀ isNew st, s.store.register surface = (st, isNew) → st.current = s.store.current ∧
      st.installedGeneration = s.store.installedGeneration ∧ st.engine = s.store.engine := by
    intro isNew st heq
    rw [ArtifactStore.register] at heq
    split at heq <;> (obtain rfl := congrArg Prod.fst heq; exact ⟨rfl, rfl, rfl⟩)
  rw [register]
  split
  · next st heq =>
    -- A new surface may have rules applied, which the runs do not see.
    obtain ⟨hcurrent, hinstalled, hengine⟩ := hsame _ _ heq
    have hputs := ArtifactStore.puts_apply st surface
    have hlookup := lookup_of_same hputs.engine
    split
    · exact ⟨⟨fun i => (hlookup i).trans (by rw [hengine]), hputs.current.trans hcurrent,
        hputs.installedGeneration.trans hinstalled⟩, rfl, fun _ => rfl⟩
    · exact ⟨⟨fun i => by rw [hengine], hcurrent, hinstalled⟩, rfl, fun _ => rfl⟩
  · next st heq =>
    obtain ⟨hcurrent, hinstalled, hengine⟩ := hsame _ _ heq
    exact ⟨⟨fun i => by rw [hengine], hcurrent, hinstalled⟩, rfl, fun _ => rfl⟩

theorem idles_unregister (s : Service) (surface : Surface) :
    Idles s { s with store := (s.store.unregister surface).1 } := by
  rw [ArtifactStore.unregister]
  split <;> exact ⟨⟨fun _ => rfl, rfl, rfl⟩, rfl, fun _ => rfl⟩

/-- What does not depend on more than the runs and the artifacts is kept up by the parts
    of commands if a new run keeps it up. -/
theorem keptByParts_of_idles {P : Service → Prop} (hidles : ∀ s s', Idles s s' → P s → P s')
    (hstart : ∀ (s : Service) reuse refresh waiter, P s → P (s.startRun reuse refresh waiter)) :
    KeptByParts P where
  quiet s s' hq := hidles s s' hq.idles
  startRun := hstart
  reload s surface url := hidles _ _ (s.idles_reload surface url)
  toggle s := hidles _ _ s.idles_toggle
  register s surface := hidles _ _ (s.idles_register surface)
  forget s surface := hidles _ _ (s.idles_unregister surface)

/-! ### All steps -/

/-- The run that an event works on. -/
def Event.run? : Event → Option Nat
  | .lookUp g | .beginList g _ _ | .finishList g _ _ _ | .compileRun g => some g
  | _ => none

/-- A part of a run changes the run, the engine apart from the surfaces, and the
    files. -/
inductive DoesPart (s : Service) (g : Nat) : Service → Prop
  | idle : DoesPart s g s
  | part (d : Disk) (e : Engine) (r r' : CompileRun) (before : s.runs.get? g = some r)
      (request : r'.request = r.request)
      (attachments : e.attachments = s.store.engine.attachments) :
      DoesPart s g { s with
        disk := d
        store := { s.store with engine := e }
        runs := s.runs.set g r' }

theorem doesPart_step (s : Service) {event : Event} {g : Nat} (h : event.run? = some g) :
    s.DoesPart g (s.step event).1 := by
  have hchange {change : CompileRun → CompileRun} (hc : ∀ r, (change r).request = r.request) :
      s.DoesPart g (s.changeRun g change) := by
    rw [changeRun]
    split
    · next r hr => exact .part s.disk s.store.engine r (change r) hr (hc r) rfl
    · exact .idle
  cases event with
  | lookUp g =>
    obtain rfl := Option.some.inj h
    exact hchange fun r => (r.looksUp _).request
  | beginList g now i =>
    obtain rfl := Option.some.inj h
    exact hchange fun r => (r.loads_beginList _ _ _ _).request
  | finishList g now i reply =>
    obtain rfl := Option.some.inj h
    rw [step, finishList]
    split
    · next r hr =>
      exact .part _ s.store.engine r _ hr (r.loads_finishList _ _ _ _ _).request rfl
    · exact .idle
  | compileRun g =>
    obtain rfl := Option.some.inj h
    rw [step, compileRun]
    split
    · next r hr =>
      have hcompiles := r.compiles s.store.engine
      exact .part s.disk _ r _ hr hcompiles.request hcompiles.goes.attachments
    · exact .idle
  | _ => exact nomatch h

/-- What a step does: it handles a command, does a part of a run, ends one, lifts
    suspensions, or is about what the service does not do itself. -/
inductive Stepped (s : Service) : Event → Service → Prop
  | command (t : Ticket) (c : Command) : Stepped s (.command t c) (s.handle t c).1
  | part {event : Event} {s' : Service} (g : Nat) (h : s.DoesPart g s') : Stepped s event s'
  | finish (g : Nat) (r : CompileRun) (output : Except Failure RunOutput)
      (before : s.runs.get? g = some r) (done : r.stage = .done output) :
      Stepped s (.finishRun g) (s.finishWith g output).1
  | lift {event : Event} (clock : Nat) (due later : List Reattachment)
      (pending : ∀ r ∈ s.reattachments, r ∈ due ∨ r ∈ later) :
      Stepped s event (lift { s with clock := clock, reattachments := later } due)
  | around {event : Event} (disk : Disk) (evictions failing : List String) :
    Stepped s event { s with
      disk := disk
      evictions := evictions
      store.engine.failing := failing }

theorem stepped (s : Service) (event : Event) : s.Stepped event (s.step event).1 := by
  have hidle {event : Event} : s.Stepped event s :=
    .around s.disk s.evictions s.store.engine.failing
  cases event with
  | command t c => exact .command t c
  | lookUp g => exact .part g (s.doesPart_step rfl)
  | beginList g now i => exact .part g (s.doesPart_step rfl)
  | finishList g now i reply => exact .part g (s.doesPart_step rfl)
  | compileRun g => exact .part g (s.doesPart_step rfl)
  | finishRun g =>
    rw [step, finishRun]
    split
    · next request output hr => exact .finish g _ output hr rfl
    · exact hidle
  | elapse ms =>
    let due := s.reattachments.partition fun r => r.due ≤ s.clock + ms
    refine .lift (s.clock + ms) due.1 due.2 fun r hr => ?_
    simp only [due, List.partition_eq_filter_filter, List.mem_filter, hr, true_and,
      Function.comp_apply, Bool.not_eq_true']
    exact Bool.eq_false_or_eq_true _
  | reattach r =>
    rw [step]
    split
    · refine .lift s.clock [r] (s.reattachments.erase r) fun r' hr' => ?_
      by_cases hne : r' = r
      · exact .inl (List.mem_singleton.2 hne)
      · exact .inr ((List.mem_erase_of_ne hne).2 hr')
    · exact hidle
  | evict =>
    rw [step, evict]
    split
    · exact hidle
    · exact .around _ _ s.store.engine.failing
  | fail identifiers => exact .around s.disk s.evictions identifiers
  | files disk => exact .around disk s.evictions s.store.engine.failing

/-- The commit that an event is, if it is one. -/
def commitOf (s : Service) (event : Event) : Option Commit :=
  event.run?.bind (newCommit s (s.step event).1)

/-- Apart from commands, events do nothing to the runs and the artifacts but
    moves. -/
theorem moves_step (hk : s.store.engine.IsKeyed) {event : Event}
    (h : ∀ t c, event ≠ .command t c) : Moves s (s.step event).1 (s.commitOf event) := by
  cases event with
  | command t c => exact absurd rfl (h t c)
  | lookUp g => exact moves_lookUp hk g
  | beginList g now i => exact moves_beginList s g now i
  | finishList g now i reply => exact moves_finishList s g now i reply
  | compileRun g => exact moves_compileRun s g
  | finishRun g => exact moves_finishRun s g
  | elapse ms => exact .idle (s.idles_elapse ms)
  | reattach r =>
    refine .idle ?_
    rw [step]
    split
    · have hforgot : Idles s { s with reattachments := s.reattachments.erase r } :=
        ⟨⟨fun _ => rfl, rfl, rfl⟩, rfl, fun _ => rfl⟩
      exact hforgot.trans (idles_reattach _ r.surface r.number)
    · exact s.idles_refl
  | evict =>
    refine .idle ?_
    rw [step, evict]
    split
    · exact s.idles_refl
    · exact ⟨⟨fun _ => rfl, rfl, rfl⟩, rfl, fun _ => rfl⟩
  | fail identifiers => exact .idle ⟨⟨fun _ => rfl, rfl, rfl⟩, rfl, fun _ => rfl⟩
  | files disk => exact .idle ⟨⟨fun _ => rfl, rfl, rfl⟩, rfl, fun _ => rfl⟩

end Service

end ContentBlocking
