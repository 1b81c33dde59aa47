import ContentBlocking.Proofs.Artifact.Attaching
import ContentBlocking.Proofs.Artifact.CompiledShards
import ContentBlocking.Proofs.Compile.ShardRuns
import Mathlib.Data.List.Flatten

/-!
# Sharded evaluation

A collection is cut into shards because the engine takes a limited number of
rules at once. What the shards decide together is what one matcher decides that
has the blocking rules of the shards that were compiled, and then all
exceptions. An exception cancels only what stands in its own shard; that is
enough, since every shard has all of them.

* `compilable`: the shards on which the engine does not fail;
* `evaluate_madeOf_agrees`: the shards of a plan decide as one matcher does;
* `evaluate_shards_agrees`: which matcher that is, for every collection.
-/

namespace ContentBlocking

namespace Engine

variable {P : Type}

/-- The shards that the engine can compile, in their order. -/
def compilable (e : Engine P) (nameSpace : String) (shards : List (List Rule)) :
    List (List Rule) :=
  (e.compilableFrom nameSpace 0 shards).map (·.1)

theorem compilable_sublist (e : Engine P) (nameSpace : String) (shards : List (List Rule)) :
    (e.compilable nameSpace shards).Sublist shards := by
  have h := (List.filter_sublist (l := shards.zipIdx)
    (p := fun p => !e.failing.contains (shardIdentifier nameSpace p.2))).map Prod.fst
  rwa [List.zipIdx_map_fst] at h

/-- The shards that can be compiled are made of some of the runs. -/
theorem exists_compilable_eq {plan : ShardPlan} {rules : List Rule} {runs : List (List Rule)}
    (h : plan.MadeOf rules runs) (e : Engine P) (nameSpace : String) :
    ∃ kept : List (List Rule), kept.Sublist runs ∧
      e.compilable nameSpace plan.shards = kept.map (· ++ ShardPlan.exceptions rules) := by
  -- A part of the shards is made of a part of the runs, as all have the same exceptions.
  have hsub := e.compilable_sublist nameSpace plan.shards
  rw [h.shards] at hsub
  obtain ⟨kept, hkept, hmap⟩ := List.sublist_map_iff.1 hsub
  exact ⟨kept, hkept, h.shards ▸ hmap⟩

variable [PatternLanguage P]

/-- The artifacts of the shards that can be compiled, and the verdict of a
    surface to which they are attached. -/
theorem evaluate_compileShards {e : Engine P} {s : Surface} (hs : e.attached s = [])
    (hl : e.ruleLimit = none) {shards : List (List Rule)}
    (hr : ∀ shard ∈ shards, ∀ r ∈ shard, r.IsGood P) (nameSpace : String) (q : Request) :
    ((e.compileShards nameSpace shards).1.attachAll s
        (e.compileShards nameSpace shards).2).evaluate s q =
      ((e.compilable nameSpace shards).map fun shard =>
        Matcher.verdictFrom (P := P) q 0 {} (shard.map .ofRule)).foldl combine {} := by
  have hspec := compileShardsFrom_spec (e := e) nameSpace 0 (by simp [hl]) hr
  -- To compile attaches nothing.
  have hempty : (e.compileShards nameSpace shards).1.attached s = [] := by
    rw [attached, compileShards, (commits_compileShardsFrom e nameSpace 0 shards).1.attachments]
    exact hs
  have hheld : ∀ c ∈ (e.compilableFrom nameSpace 0 shards).map (shardCompiled nameSpace),
      (e.compileShards nameSpace shards).1.stored.get? c.artifact.identifier = some c := by
    intro c hc
    obtain ⟨shard, hshard, rfl⟩ := List.mem_map.1 hc
    exact hspec.stored shard hshard
  have heval := evaluate_attachAll hempty hheld q
  rw [List.map_map] at heval
  rw [compileShards, hspec.artifacts]
  refine heval.trans ?_
  rw [compilable, List.map_map, List.map_map]
  rfl

/-- There are as many artifacts as shards that can be compiled. -/
theorem length_compileShards {e : Engine P} (hl : e.ruleLimit = none) {shards : List (List Rule)}
    (hr : ∀ shard ∈ shards, ∀ r ∈ shard, r.IsGood P) (nameSpace : String) :
    (e.compileShards nameSpace shards).2.length = (e.compilable nameSpace shards).length := by
  have hspec := compileShardsFrom_spec (e := e) nameSpace 0 (by simp [hl]) hr
  rw [compileShards, hspec.artifacts, compilable, List.length_map, List.length_map]

/-- What the shards of a plan decide together is what one matcher decides. -/
theorem evaluate_madeOf_agrees {e : Engine P} {s : Surface} (hs : e.attached s = [])
    (hl : e.ruleLimit = none) {rules : List Rule} (hr : ∀ r ∈ rules, r.IsGood P)
    {plan : ShardPlan} {runs kept : List (List Rule)} (h : plan.MadeOf rules runs)
    (hkept : kept.Sublist runs) {nameSpace : String}
    (heq : e.compilable nameSpace plan.shards = kept.map (· ++ ShardPlan.exceptions rules))
    (q : Request) :
    (((e.compileShards nameSpace plan.shards).1.attachAll s
        (e.compileShards nameSpace plan.shards).2).evaluate s q).Agrees
      (Matcher.verdictFrom (P := P) q 0 {}
        ((kept.flatten ++ ShardPlan.exceptions rules).map .ofRule)) := by
  have hb : ∀ run ∈ kept.map (List.map (CompiledRule.ofRule : Rule → CompiledRule P)),
      ∀ r ∈ run, r.rule.isException = false := by
    intro run hrun r hr'
    obtain ⟨run, hmem, rfl⟩ := List.mem_map.1 hrun
    obtain ⟨r, hmem', rfl⟩ := List.mem_map.1 hr'
    exact h.isException_eq_false (hkept.subset hmem) hmem'
  have hagrees := Matcher.foldl_combine_agrees (q := q) hb
    (CompiledRule.isException_of_mem_map rules)
  rw [evaluate_compileShards hs hl fun shard hshard r h' => hr r (h.forall_mem hshard h'), heq,
    List.map_append, List.map_flatten, List.map_map]
  rw [List.map_map] at hagrees
  simpa only [Function.comp_def, List.map_append] using hagrees

/-! ### Shards of a collection -/

/-- In any language of patterns, the collection is compiled in shards whose artifacts are
    attached in their order to a surface on which nothing runs. Whatever compiles fail, the
    surface decides like one matcher that has the blocking rules of the other
    shards, in the order of the collection, and then all exceptions. That is
    the collection itself if its exceptions stand last and no rule is lost. -/
theorem evaluate_shards_agrees {e : Engine P} {s : Surface} {rules : List Rule}
    (hl : e.ruleLimit = none) (hs : e.attached s = []) (hr : ∀ r ∈ rules, r.IsGood P)
    (nameSpace : String) (maxRules maxShards : Nat) (q : Request) :
    let plan := ShardPlan.ofRules rules maxRules maxShards
    let made := e.compileShards nameSpace plan.shards
    let verdict := (made.1.attachAll s made.2).evaluate s q
    let blocking := (e.compilable nameSpace plan.shards).flatMap ShardPlan.blocking
    blocking.Sublist (ShardPlan.blocking rules) ∧
      (∃ m : Matcher P, Matcher.ofRules (blocking ++ ShardPlan.exceptions rules) = .ok m ∧
        verdict.Agrees (m.verdict q)) ∧
      ((rules.Pairwise fun r r' => r.isException = true → r'.isException = true) →
        plan.dropped = 0 → made.2.length = plan.shards.length →
        ∃ m : Matcher P, Matcher.ofRules rules = .ok m ∧ verdict.Agrees (m.verdict q)) := by
  intro plan made verdict blocking
  obtain ⟨runs, h⟩ := ShardPlan.exists_madeOf rules maxRules maxShards
  obtain ⟨kept, hkept, heq⟩ := exists_compilable_eq h e nameSpace
  -- The blocking rules of the shards that are compiled are the runs of those.
  have hblocking : blocking = kept.flatten := by
    have hmap : kept.map (fun run => ShardPlan.blocking (run ++ ShardPlan.exceptions rules)) =
        kept.map id := List.map_congr_left fun run hrun => h.blocking_append (hkept.subset hrun)
    rw [show blocking = (kept.map (· ++ ShardPlan.exceptions rules)).flatMap ShardPlan.blocking from
      congrArg (List.flatMap ShardPlan.blocking) heq, List.flatMap_def, List.map_map]
    exact (congrArg List.flatten hmap).trans (by rw [List.map_id])
  have hgood : ∀ r ∈ kept.flatten ++ ShardPlan.exceptions rules, r ∈ rules := by
    intro r hr'
    rcases List.mem_append.1 hr' with hr' | hr'
    · exact List.mem_of_mem_filter (h.sublist_blocking.subset (hkept.flatten.subset hr'))
    · exact List.mem_of_mem_filter hr'
  have hverdict := evaluate_madeOf_agrees hs hl hr h hkept heq q
  have hok := Matcher.ofRules_eq_ok fun r h' => (hr r (hgood r h')).compiles
  rw [hblocking]
  refine ⟨(hkept.flatten).trans h.sublist_blocking, ⟨_, hok, hverdict⟩, fun hlast hd hlen => ?_⟩
  -- If all shards are compiled then no run is left out, so the runs are all that blocks.
  have hlength : kept.length = runs.length := by
    have h₁ := length_compileShards hl
      (fun shard hshard r h' => hr r (h.forall_mem hshard h')) nameSpace
    rw [heq, List.length_map] at h₁
    rw [← h₁, hlen, h.shards, List.length_map]
  rw [hkept.eq_of_length hlength, h.flatten_eq hd, ShardPlan.blocking_append_exceptions hlast]
    at hverdict hok
  exact ⟨_, hok, hverdict⟩

/-- Three rules with an exception from the first between them. -/
def mixedRules : List Rule :=
  [⟨{ urlPattern := "ads" }, .block⟩, .exceptionOn "news.org",
    ⟨{ urlPattern := "track" }, .hide ".banner"⟩, ⟨{ urlPattern := "^http:" }, .makeHttps⟩]

/-- The same rules, with the exception after them. -/
def closedRules : List Rule :=
  [⟨{ urlPattern := "ads" }, .block⟩, ⟨{ urlPattern := "track" }, .hide ".banner"⟩,
    ⟨{ urlPattern := "^http:" }, .makeHttps⟩, .exceptionOn "news.org"]

/-- The compile of the second of three shards fails: what it hides is not hidden, and the
    others decide. With nothing failing, a collection that ends with its exceptions decides. -/
theorem evaluate_shards_agrees_mixed :
    let q : Request := ⟨"http://ads.com/track", "shop.org", ∅⟩
    (let e : Engine := { failing := ["tg_1"] }
      let shards := (ShardPlan.ofRules mixedRules 2 3).shards
      let made := e.compileShards "tg" shards
      let verdict := (made.1.attachAll 7 made.2).evaluate 7 q
      verdict = ⟨.block, some 0, [], true⟩ ∧
      ∃ m : Matcher, Matcher.ofRules ((e.compilable "tg" shards).flatMap ShardPlan.blocking ++
          ShardPlan.exceptions mixedRules) = .ok m ∧ verdict.Agrees (m.verdict q)) ∧
    (let made := ({} : Engine).compileShards "tg" (ShardPlan.ofRules closedRules 2 3).shards
      let verdict := (made.1.attachAll 7 made.2).evaluate 7 q
      verdict = ⟨.block, some 0, [".banner"], true⟩ ∧
      ∃ m : Matcher, Matcher.ofRules closedRules = .ok m ∧ verdict.Agrees (m.verdict q)) := by
  have hclosed : ∀ r ∈ closedRules, r.IsGood := by decide +kernel
  obtain ⟨runs, h⟩ := ShardPlan.exists_madeOf closedRules 2 3
  have hlength := length_compileShards (e := ({} : Engine)) rfl
    (fun shard hs r hr => hclosed r (h.forall_mem hs hr)) "tg"
  exact ⟨⟨by decide +kernel,
      (evaluate_shards_agrees rfl rfl (by decide +kernel) "tg" 2 3 _).2.1⟩,
    by decide +kernel,
    (evaluate_shards_agrees rfl rfl hclosed "tg" 2 3 _).2.2 (by decide) (by decide +kernel)
      (hlength.trans (by decide +kernel))⟩

end Engine

end ContentBlocking
