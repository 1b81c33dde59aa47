import ContentBlocking.CompileRun
import ContentBlocking.Proofs.Artifact.CompiledShards
import ContentBlocking.Proofs.Compile.Collection
import ContentBlocking.Proofs.Compile.ShardRuns
import ContentBlocking.Whitelist

/-!
# Runs that compile every shard

Whatever the texts of the lists are, the shards of a run are such that the engine
takes them: their rules are good, and they are not longer than the plan allows. An
engine that takes so many rules, and fails on no identifier, gives an artifact for
every shard, and the collection that stands in is not compiled.

* `compileShards_eq`: the artifacts of shards when no compile fails;
* `RunRequest.compile_eq`: the output of a run whose lists were loaded;
* `run_compiles_every_shard`: no texts make a run lose a shard.
-/

namespace ContentBlocking

/-- The artifacts of shards when no compile fails. -/
def shardArtifacts (nameSpace : String) (shards : List (List Rule)) : List Artifact :=
  shards.zipIdx.map fun shard => (Engine.shardCompiled nameSpace shard).artifact

theorem identifiers_shardArtifacts (nameSpace : String) (shards : List (List Rule)) :
    (shardArtifacts nameSpace shards).map (·.identifier) =
      (List.range shards.length).map (shardIdentifier nameSpace) := by
  have hplaces := List.zipIdx_map_snd 0 shards
  rw [shardArtifacts, List.map_map, List.range_eq_range', ← hplaces, List.map_map]
  rfl

theorem ruleCounts_shardArtifacts (nameSpace : String) (shards : List (List Rule)) :
    (shardArtifacts nameSpace shards).map (·.ruleCount) = shards.map List.length := by
  have hshards := List.zipIdx_map_fst 0 shards
  rw [shardArtifacts, List.map_map]
  conv_rhs => rw [← hshards, List.map_map]
  rfl

theorem Engine.compileShards_eq {e : Engine} (nameSpace : String) (hf : e.failing = [])
    {shards : List (List Rule)} (hl : ∀ limit ∈ e.ruleLimit, ∀ shard ∈ shards, shard.length ≤ limit)
    (hr : ∀ shard ∈ shards, ∀ r ∈ shard, r.IsGood) :
    (e.compileShards nameSpace shards).2 = shardArtifacts nameSpace shards := by
  have hspec := compileShardsFrom_spec (e := e) nameSpace 0 hl hr
  rw [compileShards, hspec.artifacts, shardArtifacts, compilableFrom, hf]
  exact congrArg _ (List.filter_eq_self.2 fun _ _ => rfl)

/-- A collection is never empty. -/
theorem RuleCollection.rules_compile_ne_nil (options : CompileOptions) (lists : List ListText)
    (excluded : List String) : (compile options lists excluded).rules ≠ [] :=
  List.append_ne_nil_of_right_ne_nil _ (by decide)

namespace RunRequest

theorem isGood_of_mem_plan (q : RunRequest) (results : List ListResult) {shard : List Rule}
    (hs : shard ∈ (q.plan results).shards) {r : Rule} (hr : r ∈ shard) : r.IsGood := by
  obtain ⟨runs, h⟩ := ShardPlan.exists_madeOf (q.collection results).rules q.maxRulesPerShard
    q.maxShards
  exact RuleCollection.isGood_of_mem_compile (h.forall_mem hs hr)

/-- While the exceptions leave room for another rule, the limit holds for every
    shard. -/
theorem length_le_of_mem_plan (q : RunRequest) (results : List ListResult)
    (hx : (q.collection results).exceptionCount < q.maxRulesPerShard) {shard : List Rule}
    (hs : shard ∈ (q.plan results).shards) : shard.length ≤ q.maxRulesPerShard := by
  have hlength := ShardPlan.length_le_of_mem_shards hs
  rw [RuleCollection.exceptionCount, List.countP_eq_length_filter] at hx
  exact Nat.le_trans hlength (Nat.max_le.2 ⟨Nat.le_refl _, hx⟩)

/-- A run gets an artifact for every shard, if there is one, from an engine that
    fails on none of them. -/
theorem compile_eq (q : RunRequest) {e : Engine} (hf : e.failing = []) (results : List ListResult)
    (hl : ∀ limit ∈ e.ruleLimit, ∀ shard ∈ (q.plan results).shards, shard.length ≤ limit)
    (hne : (q.plan results).shards ≠ []) :
    q.compile e results =
      ((e.compileShards q.nameSpace (q.plan results).shards).1, .ok {
        artifacts := shardArtifacts q.nameSpace (q.plan results).shards
        dropped := (q.plan results).dropped
        report := some (q.collection results).report
        refreshed := q.refreshed results }) := by
  have hmade := Engine.compileShards_eq q.nameSpace hf hl fun _ hs _ hr =>
    q.isGood_of_mem_plan results hs hr
  -- There is an artifact, so the collection that stands in is not compiled.
  have hsome : (shardArtifacts q.nameSpace (q.plan results).shards).isEmpty = false := by
    cases hp : (q.plan results).shards with
    | nil => exact absurd hp hne
    | cons shard shards => rfl
  rw [compile]
  generalize e.compileShards q.nameSpace (q.plan results).shards = made at hmade ⊢
  obtain ⟨e', artifacts⟩ := made
  obtain rfl : artifacts = _ := hmade
  simp only [complete, hsome, Bool.false_eq_true, if_false]
  rfl

/-- A run that may not use artifacts of an earlier one loads its lists and has them
    compiled. -/
theorem output_run (q : RunRequest) (hq : q.reuse = none) (source : ListSource) (now : UInt64)
    (fetch : String → FetchReply) (d : Disk) (e : Engine) :
    (q.run source now fetch d e).2.2 =
      (q.compile e
        (finishLists source now fetch d (q.lists.zip (q.beginLists source d now))).2).2 := by
  have hnone : q.reused? e = none := by
    rw [reused?, hq]
    rfl
  rw [run, hnone]

end RunRequest

/-- However the texts of the lists are had and whatever they are, a run that uses no
    artifacts of an earlier one gets an artifact for every shard. This takes an
    engine that fails on nothing and has room for a shard, and a shard that has room
    for all exceptions and another rule. -/
theorem run_compiles_every_shard (config : Config) (hc : config.validate = .ok config)
    (w : Whitelist) (generation : Nat) (lists : List FilterList) (refresh : Bool)
    (source : ListSource) (now : UInt64) (fetch : String → FetchReply) (d : Disk) (e : Engine)
    (hf : e.failing = []) (hl : ∀ limit ∈ e.ruleLimit, config.maxRulesPerShard ≤ limit) :
    let q : RunRequest := {
      generation := generation
      lists := lists
      excluded := w.domains
      refresh := refresh
      options := config.compileOptions
      nameSpace := config.artifactNamespace
      maxRulesPerShard := config.maxRulesPerShard
      maxShards := config.maxShards }
    let results := (RunRequest.finishLists source now fetch d
      (lists.zip (q.beginLists source d now))).2
    let shards := (q.plan results).shards
    (q.collection results).exceptionCount < config.maxRulesPerShard →
    ∃ output, (q.run source now fetch d e).2.2 = .ok output ∧
      output.fallback = false ∧ output.reused = false ∧ shards ≠ [] ∧
      output.artifacts.map (·.identifier) =
        (List.range shards.length).map (shardIdentifier config.artifactNamespace) ∧
      output.artifacts.map (·.ruleCount) = shards.map List.length ∧
      ∀ shard ∈ shards, shard.length ≤ config.maxRulesPerShard ∧
        Payload.decode (Payload.encode shard) = .ok shard ∧
        ∃ m, Matcher.ofRules shard = .ok m := by
  intro q results shards hx
  have hlength := fun shard (hs : shard ∈ shards) => q.length_le_of_mem_plan results hx hs
  have hgood := fun shard (hs : shard ∈ shards) r (hr : r ∈ shard) =>
    q.isGood_of_mem_plan results hs hr
  have hshards : config.maxShards ≠ 0 := by
    intro hnone
    rw [Config.validate] at hc
    split at hc <;> simp_all
  have hne : shards ≠ [] :=
    ShardPlan.shards_ne_nil (RuleCollection.rules_compile_ne_nil _ _ _) hshards _
  have hcompile := q.compile_eq hf results
    (fun limit hlimit shard hs => Nat.le_trans (hlength shard hs) (hl limit hlimit)) hne
  have hrun : (q.run source now fetch d e).2.2 = (q.compile e results).2 :=
    q.output_run rfl source now fetch d e
  rw [hcompile] at hrun
  refine ⟨_, hrun, rfl, rfl, hne, ?_, ?_, fun shard hs => ⟨hlength shard hs, ?_, ?_⟩⟩
  · exact identifiers_shardArtifacts config.artifactNamespace shards
  · exact ruleCounts_shardArtifacts config.artifactNamespace shards
  · exact Payload.decode_encode fun r hr => (hgood shard hs r hr).nonempty
  · exact ⟨_, Matcher.ofRules_eq_ok fun r hr => (hgood shard hs r hr).compiles⟩

/-- There is room for a single rule beside the exceptions, and in the engine for no
    more than a shard. One list is not to be had, and the other is rubbish. -/
theorem run_compiles_every_shard_tight :
    let config : Config := { maxRulesPerShard := 12, maxShards := 2 }
    let w : Whitelist := ⟨["example.com"]⟩
    let lists : List FilterList := [⟨"a", "A", "a.txt", false, true, none⟩,
      ⟨"b", "B", "b.txt", false, true, none⟩]
    let fetch : String → FetchReply := fun url =>
      if url = "a.txt" then .ok "||a(b[c{1,0}*?\\x$script,é\n~é##\"\n|*\\Q||"
      else .error (.status 404)
    let q : RunRequest := {
      generation := 1
      lists := lists
      excluded := w.domains
      refresh := false
      options := config.compileOptions
      nameSpace := config.artifactNamespace
      maxRulesPerShard := config.maxRulesPerShard
      maxShards := config.maxShards }
    config.validate = .ok config ∧
      ∃ output, (q.run ⟨"cache", 60⟩ 5 fetch {} { ruleLimit := some 12 }).2.2 = .ok output ∧
        output.fallback = false ∧ output.artifacts.map (·.identifier) = ["shard_0", "shard_1"] ∧
        output.artifacts.map (·.ruleCount) = [12, 12] := by
  intro config w lists fetch q
  let results := (RunRequest.finishLists ⟨"cache", 60⟩ 5 fetch {}
    (lists.zip (q.beginLists ⟨"cache", 60⟩ {} 5))).2
  have hplan : ((q.collection results).exceptionCount, (q.plan results).shards.map List.length) =
      (11, [12, 12]) := by decide +kernel
  obtain ⟨hexceptions, hlengths⟩ := Prod.mk.inj hplan
  have hx : (q.collection results).exceptionCount < config.maxRulesPerShard := by
    rw [hexceptions]
    decide
  have hcount : (q.plan results).shards.length = 2 := by
    rw [← List.length_map List.length, hlengths]
    rfl
  have hroom : ∀ limit ∈ some 12, config.maxRulesPerShard ≤ limit := by
    rintro limit ⟨⟩
    exact Nat.le_refl 12
  obtain ⟨output, hrun, hfallback, -, -, hids, hcounts, -⟩ :=
    run_compiles_every_shard config rfl w 1 lists false ⟨"cache", 60⟩ 5 fetch {}
      { ruleLimit := some 12 } rfl hroom hx
  have htwo := hids.trans (congrArg _ (congrArg List.range hcount))
  have hfull := hcounts.trans hlengths
  -- The request is written out first: comparing it by its name unfolds the run.
  subst q
  exact ⟨rfl, output, hrun, hfallback, htwo, hfull⟩

end ContentBlocking
