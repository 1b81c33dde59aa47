import ContentBlocking.Proofs.Artifact.CompleteRuns
import ContentBlocking.Proofs.Service.RunProgress

/-!
# A run that compiles late

Of two runs in flight the later one compiles and ends, and only then does the
earlier one come to the engine. Nothing holds it back there: its artifacts take
the place of those in force, although they are not put in force themselves.

* `after_compileShards`: a run that has all lists has the engine compile its shards;
* `after_late_compile`: what two runs leave when the earlier one is late.
-/

namespace ContentBlocking

/-- The engine compiles all that is good. -/
structure Engine.IsReady (e : Engine) : Prop where
  failing : e.failing = []
  ruleLimit : e.ruleLimit = none

/-- The shards that a run is about to have compiled. -/
def CompileRun.shards? (r : CompileRun) : Option (List (List Rule)) :=
  r.loaded?.map fun results => (r.request.plan results).shards

/-- The lists that a run has downloaded. -/
def CompileRun.refreshed (r : CompileRun) : List (String × UInt64) :=
  (r.loaded?.map r.request.refreshed).getD []

namespace Engine

theorem isReady_compile {e : Engine} (h : e.IsReady) (identifier payload : String) :
    (e.compile identifier payload).1.IsReady := by
  rw [compile]
  split
  · exact ⟨h.failing, h.ruleLimit⟩
  · split <;> exact ⟨h.failing, h.ruleLimit⟩

theorem isReady_compileShardsFrom {e : Engine} (h : e.IsReady) (nameSpace : String) (index : Nat)
    (shards : List (List Rule)) : (e.compileShardsFrom nameSpace index shards).1.IsReady := by
  induction shards generalizing e index with
  | nil => exact h
  | cons shard shards ih => exact ih (isReady_compile h _ _) _

end Engine

namespace RunRequest

/-- A run gets an artifact for every shard from an engine that is ready. -/
theorem compile_of_isReady (q : RunRequest) {e : Engine} (he : e.IsReady)
    (results : List ListResult) (hne : (q.plan results).shards ≠ []) : ∃ e' output,
      q.compile e results = (e', .ok output) ∧
      output.artifacts = shardArtifacts q.nameSpace (q.plan results).shards ∧
      output.refreshed = q.refreshed results ∧ e.Commits output.artifacts e' ∧ e'.IsReady := by
  have hcompile := q.compile_eq he.failing results (by simp [he.ruleLimit]) hne
  refine ⟨_, _, hcompile, rfl, rfl, ?_, Engine.isReady_compileShardsFrom he _ _ _⟩
  have hcommits := q.commits_compile e results
  rw [hcompile] at hcommits
  exact hcommits

end RunRequest

namespace Service

variable {s : Service}

/-- A run that has all lists gets an artifact for every shard, and is about to end. -/
theorem after_compileShards {g : Nat} {r : CompileRun} {shards : List (List Rule)}
    (he : s.store.engine.IsReady) (hr : s.runs.get? g = some r) (hn : r.shards? = some shards)
    (hne : shards ≠ []) : ∃ e output runs,
      s.after (compileParts g (shards.length + 2)) =
        { s with store := { s.store with engine := e }, runs := runs } ∧
      (∀ g', runs.get? g' =
        if g' = g then some ⟨r.request, .done (.ok output)⟩ else s.runs.get? g') ∧
      (s.after (compileParts g (shards.length + 2))).ending? (.finishRun g) =
        some ⟨g, .ok output⟩ ∧
      output.artifacts = shardArtifacts r.request.nameSpace shards ∧
      output.refreshed = r.refreshed ∧ s.store.engine.Commits output.artifacts e ∧
      e.IsReady := by
  obtain ⟨results, hloaded, rfl⟩ := Option.map_eq_some_iff.1 hn
  obtain ⟨e, output, hcompile, hartifacts, hrefreshed, hcommits, hready⟩ :=
    r.request.compile_of_isReady he results hne
  obtain ⟨runs, hafter, hruns⟩ :=
    after_compileParts hr ((r.request.plan results).shards.length + 2)
  rw [CompileRun.iterate_compile hloaded, hcompile] at hafter hruns
  refine ⟨e, output, runs, hafter, hruns, ?_, hartifacts, ?_, hcommits, hready⟩
  · rw [hafter]
    exact ending?_eq_some.2 ⟨rfl, _, (hruns g).trans (if_pos rfl), rfl⟩
  · rw [CompileRun.refreshed, hloaded, hrefreshed]
    rfl

/-- A run that has all lists has something to compile, as a collection is never empty. -/
theorem shards_ne_nil_of_shards? {r : CompileRun} {shards : List (List Rule)}
    (h : r.shards? = some shards) (hmax : r.request.maxShards ≠ 0) : shards ≠ [] := by
  obtain ⟨results, -, rfl⟩ := Option.map_eq_some_iff.1 h
  exact ShardPlan.shards_ne_nil (RuleCollection.rules_compile_ne_nil _ _ _) hmax _

/-- A run that has all lists ends well once the engine has compiled its shards. -/
theorem ending?_compileParts {g n : Nat} {r : CompileRun} (he : s.store.engine.IsReady)
    (hr : s.runs.get? g = some r) (hn : r.shards?.map List.length = some n)
    (hmax : r.request.maxShards ≠ 0) : ∃ output,
      (s.after (compileParts g (n + 2))).ending? (.finishRun g) = some ⟨g, .ok output⟩ ∧
      output.refreshed = r.refreshed := by
  obtain ⟨shards, hshards, rfl⟩ := Option.map_eq_some_iff.1 hn
  obtain ⟨e, output, runs, -, -, hending, -, hrefreshed, -, -⟩ :=
    after_compileShards he hr hshards (shards_ne_nil_of_shards? hshards hmax)
  exact ⟨output, hending, hrefreshed⟩

/-- The end of a run whose shards were compiled, when nothing comes between that. -/
theorem after_toFinish {g n : Nat} {x : Ending} (h : (s.after (compileParts g (n + 2))).ending?
    (.finishRun g) = some x) : s.after (toFinish g n) =
      ((s.after (compileParts g (n + 2))).finishWith x.generation x.output).1 := by
  rw [toFinish, after_append, after_cons, step_of_ending? h]
  rfl

/-- A run that has all lists comes to the engine, and then ends. -/
theorem after_compile_finish {g : Nat} {r : CompileRun} {shards : List (List Rule)}
    (he : s.store.engine.IsReady) (hr : s.runs.get? g = some r) (hn : r.shards? = some shards)
    (hne : shards ≠ []) :
    let s' := s.after (toFinish g shards.length)
    s'.store.engine.IsReady ∧ ChangesRun s s' g none ∧
      (∀ a ∈ shardArtifacts r.request.nameSpace shards,
        s'.store.engine.lookup a.identifier = some a) ∧
      (g < s.store.installedGeneration → s'.store.current = s.store.current ∧
        s'.store.installedGeneration = s.store.installedGeneration) ∧
      (s.store.installedGeneration ≤ g →
        s'.store.current = shardArtifacts r.request.nameSpace shards ∧
        s'.store.installedGeneration = g) := by
  obtain ⟨e, output, runs, hcompile, hruns, hending, hartifacts, -, hcommits, hready⟩ :=
    after_compileShards he hr hn hne
  intro s'
  have hafter : s' = (finishWith { s with
      store := { s.store with engine := e }
      runs := runs } g (.ok output)).1 := by
    rw [← hcompile]
    exact after_toFinish hending
  have hends := ends_finishWith { s with
    store := { s.store with engine := e }
    runs := runs } g output
  rw [hafter]
  refine ⟨⟨?_, ?_⟩, fun g' => ?_, fun a ha => ?_, hends.discarded, ?_⟩
  · rw [hends.engine]
    exact hready.failing
  · rw [hends.engine]
    exact hready.ruleLimit
  · rw [hends.after]
    dsimp only
    rw [hruns]
    split <;> rfl
  · rw [lookup_of_same hends.engine]
    exact hcommits.held a (hartifacts ▸ ha)
  · rw [← hartifacts]
    exact hends.installed

/-- The later of two runs comes to the engine and ends, and so does then the
    earlier one. What is in force is of the later run, and what the engine holds
    of the earlier one. -/
theorem after_late_compile {g g' : Nat} {r r' : CompileRun} {shards shards' : List (List Rule)}
    (he : s.store.engine.IsReady) (hg : g < g') (hlatest : s.store.installedGeneration ≤ g')
    (hr : s.runs.get? g = some r) (hn : r.shards? = some shards) (hne : shards ≠ [])
    (hr' : s.runs.get? g' = some r') (hn' : r'.shards? = some shards') (hne' : shards' ≠ []) :
    let s' := s.after (toFinish g' shards'.length ++ toFinish g shards.length)
    s'.store.current = shardArtifacts r'.request.nameSpace shards' ∧
      (∀ a ∈ shardArtifacts r.request.nameSpace shards,
        s'.store.engine.lookup a.identifier = some a) ∧
      ∀ x, s'.runs.get? x = if x = g ∨ x = g' then none else s.runs.get? x := by
  obtain ⟨he₁, hruns₁, -, -, hinstalled⟩ := after_compile_finish he hr' hn' hne'
  obtain ⟨hcurrent, hgeneration⟩ := hinstalled hlatest
  intro s'
  rw [show s' = (s.after (toFinish g' shards'.length)).after (toFinish g shards.length)
    from s.after_append _ _]
  generalize s.after (toFinish g' shards'.length) = s₁ at he₁ hruns₁ hcurrent hgeneration
  -- The run that is late finds what the other one has left.
  have hr₁ : s₁.runs.get? g = some r := by rw [hruns₁, if_neg (by omega), hr]
  obtain ⟨-, hruns₂, hlookup, hdiscarded, -⟩ := after_compile_finish he₁ hr₁ hn hne
  refine ⟨?_, hlookup, fun x => ?_⟩
  · rw [(hdiscarded (hgeneration ▸ hg)).1, hcurrent]
  · rw [hruns₂, hruns₁]
    grind

/-- A run is under way when a domain comes on the whitelist. -/
def whitelistDuringRun : List Event :=
  [.command 1 .updateLists, .command 2 (.addToWhitelist "example.com")] ++ findNoList 1 ++
    findNoList 2

/-- The earlier run comes to the engine when the later one is over. -/
def lateEvents : List Event :=
  whitelistDuringRun ++ (toFinish 2 1 ++ toFinish 1 1)

/-- The first part of the identifiers of a run's shards, and their lengths. -/
def shardLengths (r : CompileRun) : Option (String × List Nat) :=
  r.shards?.map fun shards => (r.request.nameSpace, shards.map List.length)

/-- The engine is ready, and two runs are about to have a shard compiled. -/
def BeforeLate (s : Service) : Prop :=
  s.store.engine.failing = [] ∧ s.store.engine.ruleLimit = none ∧
    s.store.installedGeneration = 0 ∧
    s.runs.map (fun run => (run.1, shardLengths run.2)) =
      [(1, some ("shard", [35])), (2, some ("shard", [36]))]

instance (s : Service) : Decidable s.BeforeLate := inferInstanceAs (Decidable (_ ∧ _))

theorem beforeLate :
    ∀ s ∈ (start {} {} .nil).toOption, (s.after whitelistDuringRun).BeforeLate := by
  decide +kernel

theorem exists_shard {r : CompileRun} {nameSpace : String} {n : Nat}
    (h : shardLengths r = some (nameSpace, [n])) :
    r.request.nameSpace = nameSpace ∧ ∃ shard, r.shards? = some [shard] ∧ shard.length = n := by
  obtain ⟨shards, hshards, heq⟩ := Option.map_eq_some_iff.1 h
  obtain ⟨rfl, hlengths⟩ := Prod.mk.inj heq
  obtain ⟨shard, rfl, hlength⟩ := List.map_eq_singleton_iff.1 hlengths
  exact ⟨rfl, shard, hshards, hlength⟩

/-- In the end the artifact in force has the rule for the new domain, but the one
    that the engine holds does not. -/
theorem lookup_after_lateEvents {s₀ : Service} (hstart : start {} {} .nil = .ok s₀) :
    (∀ g, (s₀.after lateEvents).runs.get? g = none) ∧
      ∃ a ∈ (s₀.after lateEvents).store.current,
        (s₀.after lateEvents).store.engine.lookup a.identifier ≠ some a := by
  obtain ⟨hfailing, hlimit, hinstalled, hruns⟩ := beforeLate s₀ (by rw [hstart]; rfl)
  have hlate : s₀.after lateEvents =
      (s₀.after whitelistDuringRun).after (toFinish 2 1 ++ toFinish 1 1) := s₀.after_append _ _
  rw [hlate]
  -- What the lists are does not matter from here on.
  generalize s₀.after whitelistDuringRun = s at hfailing hlimit hinstalled hruns
  obtain ⟨run₁, rest, hrun, hrun₁, hrest⟩ := List.map_eq_cons_iff.1 hruns
  obtain ⟨run₂, rfl, hrun₂⟩ := List.map_eq_singleton_iff.1 hrest
  obtain ⟨g₁, r₁⟩ := run₁
  obtain ⟨g₂, r₂⟩ := run₂
  obtain ⟨rfl, hr₁⟩ := Prod.mk.inj hrun₁
  obtain ⟨rfl, hr₂⟩ := Prod.mk.inj hrun₂
  obtain ⟨hname₁, shard₁, hshard₁, hlength₁⟩ := exists_shard hr₁
  obtain ⟨hname₂, shard₂, hshard₂, hlength₂⟩ := exists_shard hr₂
  obtain ⟨hcurrent, hlookup, hover⟩ := after_late_compile ⟨hfailing, hlimit⟩
    (by decide : 1 < 2) (by omega) (by rw [hrun]; rfl) hshard₁ (List.cons_ne_nil _ _)
    (by rw [hrun]; rfl) hshard₂ (List.cons_ne_nil _ _)
  rw [List.length_singleton, List.length_singleton] at hcurrent
  simp only [List.length_singleton] at hlookup hover
  refine ⟨fun g => ?_, ?_⟩
  · rw [hover, hrun, Table.get?, Table.get?, Table.get?]
    grind
  · rw [hcurrent]
    refine ⟨(Compiled.ofRules (shardIdentifier r₂.request.nameSpace 0) shard₂).artifact,
      List.mem_singleton_self _, fun h => ?_⟩
    have h₁ := hlookup (Compiled.ofRules (shardIdentifier r₁.request.nameSpace 0) shard₁).artifact
      (List.mem_singleton_self _)
    rw [hname₁] at h₁
    rw [hname₂] at h
    -- Both are under one identifier, but the new domain has a rule in one of them only.
    have hcount := congrArg Artifact.ruleCount (Option.some.inj (h₁.symm.trans h))
    have hcount : shard₁.length = shard₂.length := hcount
    omega

end Service

end ContentBlocking
