import ContentBlocking.Proofs.Artifact.Commits
import ContentBlocking.Proofs.Artifact.PayloadRoundTrip
import ContentBlocking.Proofs.Verdict

/-!
# Compiled shards

The engine compiles every collection whose patterns are good, unless it has to
fail on the identifier. What it holds of a shard afterwards are the very rules
of it.

* `compile_eq_ok`, `compile_eq_error`: what a compile does to a good collection;
* `compileShardsFrom_spec`: what the compiles of good shards give.
-/

namespace ContentBlocking

variable {P : Type}

namespace Engine

/-! ### Shards that can be compiled -/

/-- The shards that stand at `index` and after on whose identifiers the engine
    does not fail, each with its place. -/
def compilableFrom (e : Engine P) (nameSpace : String) (index : Nat) (shards : List (List Rule)) :
    List (List Rule × Nat) :=
  (shards.zipIdx index).filter fun p => !e.failing.contains (shardIdentifier nameSpace p.2)

theorem compilableFrom_cons_of_failing {e : Engine P} {nameSpace : String} {index : Nat}
    (shard : List Rule) (shards : List (List Rule))
    (hf : e.failing.contains (shardIdentifier nameSpace index) = true) :
    e.compilableFrom nameSpace index (shard :: shards) =
      e.compilableFrom nameSpace (index + 1) shards := by
  simp only [compilableFrom, List.zipIdx_cons, List.filter_cons, hf]
  rfl

theorem compilableFrom_cons_of_not_failing {e : Engine P} {nameSpace : String} {index : Nat}
    (shard : List Rule) (shards : List (List Rule))
    (hf : e.failing.contains (shardIdentifier nameSpace index) = false) :
    e.compilableFrom nameSpace index (shard :: shards) =
      (shard, index) :: e.compilableFrom nameSpace (index + 1) shards := by
  simp only [compilableFrom, List.zipIdx_cons, List.filter_cons, hf]
  rfl

end Engine

variable [PatternLanguage P]

/-- What the engine holds of a collection of good rules. -/
def Compiled.ofRules (identifier : String) (rules : List Rule) : Compiled P :=
  ⟨⟨identifier, rules.length, Fingerprint.hex (Payload.encode rules)⟩, ⟨rules.map .ofRule⟩⟩

namespace Engine

/-! ### One compile -/

theorem check_encode {ruleLimit : Option Nat} {rules : List Rule} (identifier : String)
    (hl : ∀ limit ∈ ruleLimit, rules.length ≤ limit) (hr : ∀ r ∈ rules, r.IsGood P) :
    check ruleLimit identifier (Payload.encode rules) =
      .ok (.ofRules identifier rules : Compiled P) := by
  have hlimit : ruleLimit.filter (· < rules.length) = none := by
    rw [Option.filter_eq_none_iff]
    intro limit hlimit
    simpa using hl limit hlimit
  rw [check, Payload.decode_encode fun r h => (hr r h).nonempty]
  simp only [hlimit, Matcher.ofRules_eq_ok fun r h => (hr r h).compiles]
  rfl

/-- A compile of good rules replaces what the engine held under the
    identifier. -/
theorem compile_eq_ok {e : Engine P} {identifier : String} {rules : List Rule}
    (hf : e.failing.contains identifier = false)
    (hl : ∀ limit ∈ e.ruleLimit, rules.length ≤ limit) (hr : ∀ r ∈ rules, r.IsGood P) :
    e.compile identifier (Payload.encode rules) =
      ({ e with
          calls := e.calls + 1
          stored := e.stored.set identifier (.ofRules identifier rules) },
        .ok (Compiled.ofRules identifier rules : Compiled P).artifact) := by
  simp only [compile, hf, check_encode identifier hl hr, Bool.false_eq_true, if_false]

/-- A compile under an identifier on which the engine fails does nothing. -/
theorem compile_eq_error {e : Engine P} {identifier : String} (payload : String)
    (hf : e.failing.contains identifier = true) :
    e.compile identifier payload =
      ({ e with calls := e.calls + 1 }, .error (.unavailable identifier)) := by
  simp only [compile, hf, if_true]

/-! ### The compiles of shards -/

/-- What the engine makes of the shard at a place. -/
def shardCompiled (nameSpace : String) : List Rule × Nat → Compiled P
  | (shard, i) => .ofRules (shardIdentifier nameSpace i) shard

/-- What the compiles of good shards lead to: the engine `e'`, and the
    artifacts. -/
structure CompilesShards (e : Engine P) (nameSpace : String) (index : Nat)
    (shards : List (List Rule)) (e' : Engine P) (artifacts : List Artifact) : Prop where
  artifacts : artifacts = (e.compilableFrom nameSpace index shards).map fun shard =>
    (shardCompiled nameSpace shard : Compiled P).artifact
  stored : ∀ shard ∈ e.compilableFrom nameSpace index shards,
    e'.stored.get? (shardIdentifier nameSpace shard.2) = some (shardCompiled nameSpace shard)

theorem compileShardsFrom_spec {e : Engine P} (nameSpace : String) (index : Nat)
    {shards : List (List Rule)} (hl : ∀ limit ∈ e.ruleLimit, ∀ shard ∈ shards, shard.length ≤ limit)
    (hr : ∀ shard ∈ shards, ∀ r ∈ shard, r.IsGood P) :
    e.CompilesShards nameSpace index shards (e.compileShardsFrom nameSpace index shards).1
      (e.compileShardsFrom nameSpace index shards).2 := by
  induction shards generalizing e index with
  | nil => exact ⟨rfl, fun _ h => absurd h List.not_mem_nil⟩
  | cons shard shards ih =>
    have hrest := fun s hs => hr s (List.mem_cons_of_mem shard hs)
    cases hf : e.failing.contains (shardIdentifier nameSpace index) with
    | true =>
      -- The first shard leaves nothing, and the others find the engine as it was.
      have hcompile := compile_eq_error (Payload.encode shard) hf
      have hrec := ih (e := { e with calls := e.calls + 1 }) (index + 1)
        (fun limit h s hs => hl limit h s (List.mem_cons_of_mem _ hs)) hrest
      have hkept := compilableFrom_cons_of_failing shard shards hf
      rw [compileShardsFrom, hcompile]
      refine ⟨?_, ?_⟩
      · rw [hkept]
        exact hrec.artifacts
      · rw [hkept]
        exact hrec.stored
    | false =>
      have hcompile := compile_eq_ok hf (fun limit h => hl limit h shard List.mem_cons_self)
        (hr shard List.mem_cons_self)
      let first : Engine P := { e with
        calls := e.calls + 1
        stored := e.stored.set (shardIdentifier nameSpace index)
          (.ofRules (shardIdentifier nameSpace index) shard) }
      have hrec := ih (e := first) (index + 1)
        (fun limit h s hs => hl limit h s (List.mem_cons_of_mem _ hs)) hrest
      have hkept := compilableFrom_cons_of_not_failing shard shards hf
      rw [compileShardsFrom, hcompile]
      refine ⟨?_, fun s hs => ?_⟩
      · rw [hkept, List.map_cons]
        exact congrArg _ hrec.artifacts
      · rw [hkept] at hs
        rcases List.mem_cons.1 hs with rfl | hs
        · -- The later shards have other identifiers, so this one stays.
          obtain ⟨hcommits, hids⟩ := first.commits_compileShardsFrom nameSpace (index + 1) shards
          refine (hcommits.others _ fun a ha heq => ?_).trans ?_
          · obtain ⟨i, hi, hid⟩ := hids a ha
            have := shardIdentifier_injective (hid.symm.trans heq)
            omega
          · rw [Table.get?_set, if_pos rfl]
            rfl
        · exact hrec.stored s hs

end Engine

end ContentBlocking
