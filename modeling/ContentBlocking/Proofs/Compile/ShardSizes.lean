import ContentBlocking.Proofs.Compile.ShardRuns
import Mathlib.Algebra.Order.Floor.Div

/-!
# The sizes of shards

All runs of a collection but the last have the same length, and none is empty.
So the numbers of rules alone decide how many shards a plan has and how many
rules it drops: with runs of length `c`, the first `n` shards hold the first
`n * c` rules that block.

* `CutsInto`: runs that cut a list into pieces of one length;
* `CutsInto.flatten_take`, `CutsInto.length_eq_ceilDiv`: what the first of them
  hold, and how many there are;
* `ShardPlan.exists_cutsInto`: what a plan holds and what it drops.
-/

namespace ContentBlocking

/-- The runs cut the items into pieces of this length, the last of which may be
    shorter. -/
structure CutsInto {α : Type} (length : Nat) (items : List α) (runs : List (List α)) : Prop where
  flatten_eq : runs.flatten = items
  ne_nil : ∀ run ∈ runs, run ≠ []
  length_le : ∀ run ∈ runs, run.length ≤ length
  /-- Only the last run may be shorter. -/
  length_eq : ∀ run ∈ runs.dropLast, run.length = length

theorem cutsInto_runsOf {α : Type} (size : Nat) (items : List α) :
    CutsInto (size + 1) items (runsOf size items) where
  flatten_eq := flatten_runsOf size items
  ne_nil := by
    fun_induction runsOf size items with
    | case1 => exact List.forall_mem_nil _
    | case2 x xs ih => exact List.forall_mem_cons.2 ⟨List.cons_ne_nil _ _, ih⟩
  length_le _ := length_le_of_mem_runsOf
  length_eq := by
    fun_induction runsOf size items with
    | case1 => exact List.forall_mem_nil _
    | case2 x xs ih =>
      by_cases hrest : runsOf size (xs.drop size) = []
      · rw [hrest]
        exact List.forall_mem_nil _
      · -- Another run follows, so there are items left for it.
        have hlt : size < xs.length := by
          by_contra hge
          rw [List.drop_eq_nil_of_le (Nat.le_of_not_lt hge), runsOf] at hrest
          exact hrest rfl
        rw [List.dropLast_cons_of_ne_nil hrest]
        refine List.forall_mem_cons.2 ⟨?_, ih⟩
        rw [List.length_take, List.length_cons]
        omega

namespace CutsInto

variable {α : Type} {length : Nat} {items : List α} {runs : List (List α)}

theorem tail {run : List α} (h : CutsInto length items (run :: runs)) :
    CutsInto length runs.flatten runs where
  flatten_eq := rfl
  ne_nil r hr := h.ne_nil r (List.mem_cons_of_mem _ hr)
  length_le r hr := h.length_le r (List.mem_cons_of_mem _ hr)
  length_eq r hr := by
    have hne : runs ≠ [] := List.ne_nil_of_mem (List.mem_of_mem_dropLast hr)
    refine h.length_eq r ?_
    rw [List.dropLast_cons_of_ne_nil hne]
    exact List.mem_cons_of_mem _ hr

/-- The first `n` runs hold as many items as if all of them were full. -/
theorem flatten_take (h : CutsInto length items runs) (n : Nat) :
    (runs.take n).flatten = items.take (n * length) := by
  induction runs generalizing items n with
  | nil =>
    rw [← h.flatten_eq, List.take_nil, List.flatten_nil, List.take_nil]
  | cons run runs ih =>
    cases n with
    | zero => rw [List.take_zero, List.flatten_nil, Nat.zero_mul, List.take_zero]
    | succ n =>
      have hle : run.length ≤ length := h.length_le run List.mem_cons_self
      rw [List.take_succ_cons, List.flatten_cons, ih h.tail, ← h.flatten_eq, List.flatten_cons,
        Nat.succ_mul, List.take_append, List.take_of_length_le (Nat.le_add_left_of_le hle)]
      by_cases hruns : runs = []
      · rw [hruns, List.flatten_nil, List.take_nil, List.take_nil]
      · have hfull : run.length = length := by
          refine h.length_eq run ?_
          rw [List.dropLast_cons_of_ne_nil hruns]
          exact List.mem_cons_self
        rw [hfull, Nat.add_sub_cancel]

theorem flatten_drop (h : CutsInto length items runs) (n : Nat) :
    (runs.drop n).flatten = items.drop (n * length) := by
  have hsame : (runs.take n).flatten ++ (runs.drop n).flatten =
      (runs.take n).flatten ++ items.drop (n * length) := by
    rw [← List.flatten_append, List.take_append_drop, h.flatten_eq, h.flatten_take,
      List.take_append_drop]
  exact List.append_cancel_left hsame

/-- There are no more than `n` runs if and only if so many could hold all items. -/
theorem length_le_iff (h : CutsInto length items runs) (n : Nat) :
    runs.length ≤ n ↔ items.length ≤ length * n := by
  rw [← List.drop_eq_nil_iff, Nat.mul_comm, ← List.drop_eq_nil_iff, ← h.flatten_drop]
  refine ⟨fun hnil => by rw [hnil, List.flatten_nil], fun hnil => ?_⟩
  refine List.eq_nil_iff_forall_not_mem.2 fun run hrun => ?_
  exact h.ne_nil run (List.mem_of_mem_drop hrun) (List.flatten_eq_nil_iff.1 hnil run hrun)

theorem length_eq_ceilDiv (h : CutsInto length items runs) (hlength : 0 < length) :
    runs.length = items.length ⌈/⌉ length :=
  eq_of_forall_ge_iff fun n => (h.length_le_iff n).trans (ceilDiv_le_iff_le_mul hlength).symm

end CutsInto

namespace ShardPlan

theorem cutsInto_runs (rules : List Rule) (maxRules : Nat) :
    CutsInto (runLength maxRules (exceptions rules).length) (blocking rules)
      (runsOf (runLength maxRules (exceptions rules).length - 1) (blocking rules)) := by
  have hpos : 1 ≤ runLength maxRules (exceptions rules).length := Nat.le_max_left _ _
  have hcuts := cutsInto_runsOf (runLength maxRules (exceptions rules).length - 1) (blocking rules)
  rwa [Nat.sub_add_cancel hpos] at hcuts

/-- Let runs cut the `b` blocking rules of a collection into pieces of length `c`: of as many
    rules as the exceptions leave room for, but at least one. A plan takes up the first of these
    runs, which are the first `b - dropped` of the blocking rules, and follows each by all
    exceptions. If there is no blocking rule, the exceptions alone are a shard. -/
theorem exists_cutsInto (rules : List Rule) (maxRules : Nat) :
    let b := (blocking rules).length
    let c := max 1 (maxRules - (exceptions rules).length)
    (0 < b → ∃ runs, CutsInto c (blocking rules) runs ∧ ∀ maxShards,
      let plan := ofRules rules maxRules maxShards
      plan.shards = (runs.take maxShards).map (· ++ exceptions rules) ∧
      plan.shards.length = min maxShards (b ⌈/⌉ c) ∧
      (runs.take maxShards).flatten = (blocking rules).take (b - plan.dropped) ∧
      plan.dropped = b - maxShards * c ∧
      ∀ shard ∈ plan.shards, shard.length ≤ max maxRules ((exceptions rules).length + 1)) ∧
    (b = 0 → ∀ maxShards, ofRules rules maxRules maxShards =
      { shards := if exceptions rules = [] ∨ maxShards = 0 then [] else [exceptions rules]
        dropped := 0 }) := by
  intro b c
  refine ⟨fun hb => ?_, fun hb maxShards => ?_⟩
  · have hcuts := cutsInto_runs rules maxRules
    refine ⟨_, hcuts, fun maxShards => ?_⟩
    intro plan
    have hplan : plan = _ := ofRules_of_blocking_ne_nil (List.length_pos_iff.1 hb) _ _
    have hdropped : plan.dropped = b - maxShards * c := by
      rw [hplan, hcuts.flatten_drop, List.length_drop]
      rfl
    refine ⟨by rw [hplan], ?_, ?_, hdropped, fun shard => length_le_of_mem_shards⟩
    · rw [hplan, List.length_map, List.length_take, hcuts.length_eq_ceilDiv (Nat.le_max_left _ _)]
      rfl
    · rw [hcuts.flatten_take, hdropped, List.take_eq_take_iff]
      show min (maxShards * c) b = min (b - (b - maxShards * c)) b
      omega
  · rw [ofRules_of_blocking_eq_nil (List.length_eq_zero_iff.1 hb)]
    simp

/-- Of five rules that block two fit beside the exceptions, and two shards have no place for the
    last. The exceptions alone exceed the limit. -/
theorem exists_cutsInto_dropped :
    let block (pattern : String) : Rule := ⟨{ urlPattern := pattern }, .block⟩
    let pixel : Rule := .exceptionFor "pixel"
    let news : Rule := .exceptionOn "news.org"
    let x := [pixel, news]
    let rules := [block "a", pixel, block "b", block "c", news, block "d", block "e"]
    (0 < (blocking rules).length ∧
      ofRules rules 4 2 = ⟨[[block "a", block "b"] ++ x, [block "c", block "d"] ++ x], 1⟩ ∧
      ∃ runs, CutsInto 2 (blocking rules) runs ∧
        (ofRules rules 4 2).shards = (runs.take 2).map (· ++ exceptions rules) ∧
        (ofRules rules 4 2).shards.length = min 2 (5 ⌈/⌉ (2 : Nat)) ∧
        (runs.take 2).flatten = (blocking rules).take (5 - (ofRules rules 4 2).dropped) ∧
        (ofRules rules 4 2).dropped = 5 - 2 * 2 ∧
        ∀ shard ∈ (ofRules rules 4 2).shards, shard.length ≤ max 4 (2 + 1)) ∧
    (blocking x).length = 0 ∧ ofRules x 1 3 = ⟨[x], 0⟩ := by
  intro block pixel news x rules
  have hblocking : 0 < (blocking rules).length := by decide
  have hnone : (blocking x).length = 0 := by decide
  obtain ⟨runs, hcuts, hplans⟩ := (exists_cutsInto rules 4).1 hblocking
  exact ⟨⟨hblocking, by decide +kernel, runs, hcuts, hplans 2⟩, hnone,
    (exists_cutsInto x 1).2 hnone 3⟩

end ShardPlan

end ContentBlocking
