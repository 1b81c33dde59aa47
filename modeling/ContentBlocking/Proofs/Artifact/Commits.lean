import ContentBlocking.Artifact.Compile
import Std.Data.String.ToNat

/-!
# What compiles leave in the engine

A compile that gives an artifact replaces what the engine holds under the
identifier of it, and one that fails leaves everything as it is. Shards have
identifiers of their own, so the artifacts of a collection are all still there
when the last shard is compiled.

* `Engine.Commits`: from one engine to another, some artifacts are stored;
* `Engine.commits_compileShardsFrom`: the compiles of shards store the artifacts
  that they give.
-/

namespace ContentBlocking

theorem shardIdentifier_injective {nameSpace : String} {i j : Nat}
    (h : shardIdentifier nameSpace i = shardIdentifier nameSpace j) : i = j := by
  have := congrArg String.toList h
  simp only [shardIdentifier, String.toList_append, List.append_cancel_left_eq] at this
  exact Nat.repr_injective (String.toList_injective this)

namespace Engine

variable {P : Type}

/-- Between `e` and `e'` the artifacts are stored, and nothing else is. -/
structure Commits (e : Engine P) (artifacts : List Artifact) (e' : Engine P) : Prop where
  attachments : e'.attachments = e.attachments
  held : ∀ a ∈ artifacts, e'.lookup a.identifier = some a
  others : ∀ identifier, (∀ a ∈ artifacts, a.identifier ≠ identifier) →
    e'.stored.get? identifier = e.stored.get? identifier

variable {e e' e'' : Engine P} {artifacts artifacts' : List Artifact}

theorem Commits.lookup_others (h : e.Commits artifacts e') {identifier : String}
    (hi : ∀ a ∈ artifacts, a.identifier ≠ identifier) :
    e'.lookup identifier = e.lookup identifier := by
  rw [lookup, lookup, h.others identifier hi]

/-- When two artifacts of one identifier are stored, they are the same. -/
theorem Commits.eq_of_identifier_eq (h : e.Commits artifacts e') {a b : Artifact}
    (ha : a ∈ artifacts) (hb : b ∈ artifacts) (hid : a.identifier = b.identifier) : a = b := by
  have hlookup := h.held a ha
  rw [hid, h.held b hb] at hlookup
  exact (Option.some.inj hlookup).symm

theorem Commits.trans (h : e.Commits artifacts e') (h' : e'.Commits artifacts' e'')
    (hne : ∀ a ∈ artifacts, ∀ a' ∈ artifacts', a'.identifier ≠ a.identifier) :
    e.Commits (artifacts ++ artifacts') e'' where
  attachments := h'.attachments.trans h.attachments
  held a ha := by
    rcases List.mem_append.1 ha with ha | ha
    · -- What the first ones are held under is left alone by the others.
      exact (h'.lookup_others (hne a ha)).trans (h.held a ha)
    · exact h'.held a ha
  others identifier hi := by
    have hi' := fun a ha => hi a (List.mem_append_right _ ha)
    exact (h'.others identifier hi').trans
      (h.others identifier fun a ha => hi a (List.mem_append_left _ ha))

variable [PatternLanguage P]

theorem check_identifier {ruleLimit : Option Nat} {identifier payload : String}
    {compiled : Compiled P} (h : check ruleLimit identifier payload = .ok compiled) :
    compiled.artifact.identifier = identifier := by
  rw [check] at h
  split at h
  · cases h
  · split at h
    · cases h
    · split at h
      · cases h
      · obtain rfl := Except.ok.inj h
        rfl

theorem commits_compile (e : Engine P) (identifier payload : String) :
    e.Commits (e.compile identifier payload).2.toOption.toList (e.compile identifier payload).1 ∧
      ∀ a ∈ (e.compile identifier payload).2.toOption, a.identifier = identifier := by
  have hnone : e.Commits [] { e with calls := e.calls + 1 } :=
    ⟨rfl, nofun, fun _ _ => rfl⟩
  rw [compile]
  split
  · exact ⟨hnone, nofun⟩
  · split
    · exact ⟨hnone, nofun⟩
    · next compiled hcheck =>
      have hid := check_identifier hcheck
      have hget (i : String) : (e.stored.set identifier compiled).get? i =
          if i = identifier then some compiled else e.stored.get? i := Table.get?_set _ _ _ _
      refine ⟨⟨rfl, ?_, ?_⟩, ?_⟩
      · intro a ha
        obtain rfl := List.mem_singleton.1 ha
        rw [lookup, hget, if_pos hid]
        rfl
      · intro i hi
        have hne : i ≠ identifier := fun h => hi _ (List.mem_singleton_self _) (hid.trans h.symm)
        exact (hget i).trans (if_neg hne)
      · intro a ha
        obtain rfl := Option.some.inj ha
        exact hid

/-- A compile attaches nothing to a surface, and detaches nothing. -/
theorem attached_compile (e : Engine P) (identifier payload : String) (s : Surface) :
    (e.compile identifier payload).1.attached s = e.attached s := by
  rw [attached, attached, (e.commits_compile identifier payload).1.attachments]

theorem commits_compileShardsFrom (e : Engine P) (nameSpace : String) (index : Nat)
    (shards : List (List Rule)) :
    e.Commits (e.compileShardsFrom nameSpace index shards).2
        (e.compileShardsFrom nameSpace index shards).1 ∧
      ∀ a ∈ (e.compileShardsFrom nameSpace index shards).2,
        ∃ i, index ≤ i ∧ a.identifier = shardIdentifier nameSpace i := by
  induction shards generalizing e index with
  | nil => exact ⟨⟨rfl, nofun, fun _ _ => rfl⟩, nofun⟩
  | cons shard shards ih =>
    obtain ⟨hfirst, hid⟩ :=
      e.commits_compile (shardIdentifier nameSpace index) (Payload.encode shard)
    obtain ⟨hrest, hids⟩ := ih
      (e.compile (shardIdentifier nameSpace index) (Payload.encode shard)).1 (index + 1)
    refine ⟨hfirst.trans hrest fun a ha a' ha' heq => ?_, fun a ha => ?_⟩
    · -- The shards after the first have greater numbers.
      obtain ⟨i, hi, ha'⟩ := hids a' ha'
      rw [hid a (Option.mem_toList.1 ha), ha'] at heq
      have := shardIdentifier_injective heq
      omega
    · rcases List.mem_append.1 ha with ha | ha
      · exact ⟨index, Nat.le_refl _, hid a (Option.mem_toList.1 ha)⟩
      · obtain ⟨i, hi, ha⟩ := hids a ha
        exact ⟨i, by omega, ha⟩

end Engine

end ContentBlocking
