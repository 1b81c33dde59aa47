import ContentBlocking.Rule

/-!
# Shards

The engine takes a limited number of rules at once. A larger collection is cut
into shards: runs of blocking rules, each followed by all exceptions, so that
no shard can block what an exception exempts. When the exceptions alone reach
the limit, a run still has one rule.

* `ShardPlan.ofRules` — the shards of a collection.
-/

namespace ContentBlocking

/-- The shards of a collection. -/
structure ShardPlan where
  shards : List (List Rule) := []
  /-- The blocking rules for which there was no shard left. -/
  dropped : Nat := 0
  deriving Repr, DecidableEq

/-- The list cut into runs of `size + 1` items, the last of which may be
    shorter. -/
def runsOf {α : Type} (size : Nat) : List α → List (List α)
  | [] => []
  | x :: xs => (x :: xs).take (size + 1) :: runsOf size (xs.drop size)
termination_by l => l.length
decreasing_by
  simp only [List.length_cons, List.length_drop]
  omega

namespace ShardPlan

/-- The number of blocking rules in a shard with so many exceptions. -/
def runLength (maxRules exceptions : Nat) : Nat := max 1 (maxRules - exceptions)

/-- The shards of a collection: at most `maxShards`, of at most `maxRules`
    rules each as far as the exceptions leave room. -/
def ofRules (rules : List Rule) (maxRules maxShards : Nat) : ShardPlan :=
  let exceptions := rules.filter Rule.isException
  let blocking := rules.filter fun r => !r.isException
  if blocking.isEmpty then
    -- Exceptions alone are one shard, even if they exceed the limit.
    { shards := if exceptions.isEmpty || maxShards == 0 then [] else [exceptions] }
  else
    let runs := runsOf (runLength maxRules exceptions.length - 1) blocking
    { shards := (runs.take maxShards).map (· ++ exceptions)
      dropped := (runs.drop maxShards).flatten.length }

/-- The number of rules in all shards. -/
def ruleCount (plan : ShardPlan) : Nat := plan.shards.flatten.length

end ShardPlan

theorem flatten_runsOf {α : Type} (size : Nat) (l : List α) : (runsOf size l).flatten = l := by
  fun_induction runsOf size l with
  | case1 => rfl
  | case2 x xs ih => simp [ih]

end ContentBlocking
