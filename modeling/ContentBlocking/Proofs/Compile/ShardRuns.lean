import ContentBlocking.Compile.ShardPlan
import Mathlib.Data.List.Basic

/-!
# The runs in a shard plan

A plan is made of runs of blocking rules, each followed by all exceptions. The
runs cut what blocks from the front, so what is dropped is the end of it, and no
rule is in two runs.

* `exists_madeOf`: every plan is made of such runs;
* `MadeOf.forall_mem`: its shards hold rules of the collection only;
* `length_shards_le`: how many shards there are;
* `length_le_of_mem_shards`: how long they are.
-/

namespace ContentBlocking

theorem length_le_of_mem_runsOf {α : Type} {size : Nat} {l run : List α}
    (h : run ∈ runsOf size l) : run.length ≤ size + 1 := by
  induction l using runsOf.induct size with
  | case1 =>
    rw [runsOf] at h
    exact absurd h List.not_mem_nil
  | case2 x xs ih =>
    rw [runsOf] at h
    rcases List.mem_cons.1 h with rfl | h
    · exact List.length_take_le _ _
    · exact ih h

namespace ShardPlan

/-- The exceptions of a collection. -/
abbrev exceptions (rules : List Rule) : List Rule := rules.filter Rule.isException

/-- The rules of a collection that are no exceptions. -/
abbrev blocking (rules : List Rule) : List Rule := rules.filter fun r => !r.isException

/-- The plan is made of runs of the blocking rules of a collection. -/
structure MadeOf (plan : ShardPlan) (rules : List Rule) (runs : List (List Rule)) : Prop where
  shards : plan.shards = runs.map (· ++ exceptions rules)
  /-- The runs and what is dropped are the blocking rules. -/
  covers : ∃ rest, runs.flatten ++ rest = blocking rules ∧ plan.dropped = rest.length

theorem ofRules_of_blocking_eq_nil {rules : List Rule} (h : blocking rules = [])
    (maxRules maxShards : Nat) : ofRules rules maxRules maxShards =
      { shards := if (exceptions rules).isEmpty || maxShards == 0 then []
          else [exceptions rules] } := by
  rw [ofRules, if_pos (List.isEmpty_iff.2 h)]

theorem ofRules_of_blocking_ne_nil {rules : List Rule} (h : blocking rules ≠ [])
    (maxRules maxShards : Nat) :
    let runs := runsOf (runLength maxRules (exceptions rules).length - 1) (blocking rules)
    ofRules rules maxRules maxShards =
      { shards := (runs.take maxShards).map (· ++ exceptions rules)
        dropped := (runs.drop maxShards).flatten.length } := by
  rw [ofRules, if_neg (mt List.isEmpty_iff.1 h)]

/-- Every plan is made of runs. -/
theorem exists_madeOf (rules : List Rule) (maxRules maxShards : Nat) :
    ∃ runs, (ofRules rules maxRules maxShards).MadeOf rules runs := by
  by_cases hb : blocking rules = []
  · -- The exceptions alone make a shard with an empty run.
    rw [ofRules_of_blocking_eq_nil hb]
    refine ⟨if (exceptions rules).isEmpty || maxShards == 0 then [] else [[]], ?_, [], ?_, rfl⟩
    · split <;> rfl
    · rw [hb]
      split <;> rfl
  · -- The runs for which there is no shard left are dropped.
    rw [ofRules_of_blocking_ne_nil hb]
    refine ⟨_, rfl, _, ?_, rfl⟩
    rw [← List.flatten_append, List.take_append_drop]
    exact flatten_runsOf _ _

variable {plan : ShardPlan} {rules : List Rule} {runs : List (List Rule)}

/-- The runs hold blocking rules in the order of the collection. -/
theorem MadeOf.sublist_blocking (h : plan.MadeOf rules runs) :
    runs.flatten.Sublist (blocking rules) := by
  obtain ⟨rest, hrest, -⟩ := h.covers
  exact hrest ▸ List.sublist_append_left _ _

theorem MadeOf.flatten_eq (h : plan.MadeOf rules runs) (hd : plan.dropped = 0) :
    runs.flatten = blocking rules := by
  obtain ⟨rest, hrest, hlength⟩ := h.covers
  rw [← hrest, List.eq_nil_of_length_eq_zero (hlength.symm.trans hd), List.append_nil]

theorem MadeOf.isException_eq_false (h : plan.MadeOf rules runs) {run : List Rule}
    (hrun : run ∈ runs) {r : Rule} (hr : r ∈ run) : r.isException = false := by
  have hmem := h.sublist_blocking.subset (List.mem_flatten_of_mem hrun hr)
  simpa using List.of_mem_filter hmem

/-- The shards hold rules of the collection only. -/
theorem MadeOf.forall_mem (h : plan.MadeOf rules runs) {shard : List Rule}
    (hs : shard ∈ plan.shards) {r : Rule} (hr : r ∈ shard) : r ∈ rules := by
  rw [h.shards] at hs
  obtain ⟨run, hrun, rfl⟩ := List.mem_map.1 hs
  rcases List.mem_append.1 hr with hr | hr
  · exact List.mem_of_mem_filter (h.sublist_blocking.subset (List.mem_flatten_of_mem hrun hr))
  · exact List.mem_of_mem_filter hr

/-- The rules of a run are the blocking rules of its shard. -/
theorem MadeOf.blocking_append (h : plan.MadeOf rules runs) {run : List Rule}
    (hrun : run ∈ runs) : blocking (run ++ exceptions rules) = run := by
  have hx : blocking (exceptions rules) = [] := by
    rw [blocking, List.filter_filter]
    exact List.filter_eq_nil_iff.2 fun r _ => by simp
  rw [blocking, List.filter_append, ← blocking, ← blocking, hx, List.append_nil]
  exact List.filter_eq_self.2 fun r hr => by rw [h.isException_eq_false hrun hr]; rfl

/-- A collection whose exceptions stand last is what blocks and then the
    exceptions. -/
theorem blocking_append_exceptions
    (h : rules.Pairwise fun r r' => r.isException = true → r'.isException = true) :
    blocking rules ++ exceptions rules = rules := by
  induction rules with
  | nil => rfl
  | cons r rules ih =>
    obtain ⟨hr, hrules⟩ := List.pairwise_cons.1 h
    -- From the first exception on there are only exceptions.
    by_cases hx : r.isException = true
    · have hall : ∀ r' ∈ r :: rules, r'.isException = true :=
        List.forall_mem_cons.2 ⟨hx, fun r' h' => hr r' h' hx⟩
      have hb : blocking (r :: rules) = [] :=
        List.filter_eq_nil_iff.2 fun r' h' => by simp [hall r' h']
      have he : exceptions (r :: rules) = r :: rules := List.filter_eq_self.2 hall
      rw [hb, he, List.nil_append]
    · rw [blocking, exceptions, List.filter_cons_of_pos (by simpa using hx),
        List.filter_cons_of_neg hx, List.cons_append]
      exact congrArg _ (ih hrules)

/-! ### The sizes of shards -/

/-- A collection gives at least one shard, if any is allowed. -/
theorem shards_ne_nil {maxShards : Nat} (hr : rules ≠ []) (hs : maxShards ≠ 0) (maxRules : Nat) :
    (ofRules rules maxRules maxShards).shards ≠ [] := by
  by_cases hb : blocking rules = []
  · -- Nothing blocks, so there is an exception.
    have hx : (exceptions rules).isEmpty = false := by
      obtain ⟨r, hr⟩ := List.exists_mem_of_ne_nil rules hr
      have hnot := List.filter_eq_nil_iff.1 hb r hr
      have hmem : r ∈ exceptions rules := List.mem_filter.2 ⟨hr, by simpa using hnot⟩
      exact List.isEmpty_eq_false_iff.2 (List.ne_nil_of_mem hmem)
    have hmax : (maxShards == 0) = false := beq_eq_false_iff_ne.2 hs
    rw [ofRules_of_blocking_eq_nil hb, hx, hmax]
    exact List.cons_ne_nil _ _
  · have hruns :
        runsOf (runLength maxRules (exceptions rules).length - 1) (blocking rules) ≠ [] := by
      intro h
      have hflatten := flatten_runsOf (runLength maxRules (exceptions rules).length - 1)
        (blocking rules)
      rw [h] at hflatten
      exact hb hflatten.symm
    rw [ofRules_of_blocking_ne_nil hb, Ne, List.map_eq_nil_iff, List.take_eq_nil_iff, not_or]
    exact ⟨hs, hruns⟩

/-- There are no more shards than there may be. -/
theorem length_shards_le (rules : List Rule) (maxRules maxShards : Nat) :
    (ofRules rules maxRules maxShards).shards.length ≤ maxShards := by
  by_cases hnil : blocking rules = []
  · rw [ofRules_of_blocking_eq_nil hnil]
    dsimp only
    split
    · exact Nat.zero_le _
    · next hsome =>
      simp only [Bool.or_eq_true, beq_iff_eq, not_or] at hsome
      exact Nat.one_le_iff_ne_zero.2 hsome.2
  · rw [ofRules_of_blocking_ne_nil hnil]
    dsimp only
    rw [List.length_map, List.length_take]
    exact Nat.min_le_left _ _

/-- No shard is longer than the limit, unless the exceptions alone reach it. -/
theorem length_le_of_mem_shards {maxRules maxShards : Nat} {shard : List Rule}
    (h : shard ∈ (ofRules rules maxRules maxShards).shards) :
    shard.length ≤ max maxRules ((exceptions rules).length + 1) := by
  by_cases hb : blocking rules = []
  · rw [ofRules_of_blocking_eq_nil hb] at h
    split at h
    · exact absurd h List.not_mem_nil
    · obtain rfl := List.mem_singleton.1 h
      exact Nat.le_trans (Nat.le_succ _) (Nat.le_max_right _ _)
  · rw [ofRules_of_blocking_ne_nil hb] at h
    obtain ⟨run, hrun, rfl⟩ := List.mem_map.1 h
    have hlength : run.length ≤ max 1 (maxRules - (exceptions rules).length) - 1 + 1 :=
      length_le_of_mem_runsOf (List.mem_of_mem_take hrun)
    show (run ++ exceptions rules).length ≤ _
    rw [List.length_append]
    omega

end ShardPlan

end ContentBlocking
