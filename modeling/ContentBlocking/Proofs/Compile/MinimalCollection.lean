import ContentBlocking.Proofs.Compile.Collection
import ContentBlocking.Whitelist

/-!
# The collection that stands in

The collection that stands in when no other can be compiled blocks a few trackers
and has the exceptions of every collection. The whitelist takes a filter line out
if the line names a domain of it, and that is all it does: there are no exceptions
for the pages on whitelisted domains, as there are in a regular collection.

* `agrees_verdict_minimal`: what the collection says of a request;
* `minimal_allows_iff`: when it allows a request.
-/

namespace ContentBlocking

/-! ### Excluded domains take rules away and change none -/

namespace FilterText

variable {excluded excluded' : List String} {line : List Char} {r : Rule}

theorem namesExcluded_of_subset (hsub : excluded ⊆ excluded') {literal : List Char}
    (h : namesExcluded excluded literal = true) : namesExcluded excluded' literal = true := by
  obtain ⟨domain, hmem, hoccurs⟩ := List.any_eq_true.1 h
  exact List.any_eq_true.2 ⟨domain, hsub hmem, hoccurs⟩

theorem networkRule?_of_subset (hsub : excluded ⊆ excluded')
    (h : networkRule? excluded' line = some r) : networkRule? excluded line = some r := by
  simp only [networkRule?] at h ⊢
  split at h
  · cases h
  · rename_i hkept
    obtain ⟨hnarrow, hfree⟩ := Bool.or_eq_false_iff.1 (Bool.eq_false_iff.2 hkept)
    have hfree :=
      Bool.eq_false_iff.2 (mt (namesExcluded_of_subset hsub) (Bool.eq_false_iff.1 hfree))
    rw [hnarrow, hfree]
    exact h

theorem ruleOfTrimmed?_of_subset (hsub : excluded ⊆ excluded')
    (h : ruleOfTrimmed? excluded' line = some r) : ruleOfTrimmed? excluded line = some r := by
  rw [ruleOfTrimmed?] at h ⊢
  split at h
  · cases h
  · rename_i hplain
    rw [if_neg hplain]
    split at h
    · exact h
    · split at h
      · cases h
      · rename_i hblocks
        rw [if_neg hblocks]
        exact networkRule?_of_subset hsub h

/-- A line that has a rule has the same one if fewer domains are excluded. -/
theorem ruleOfLine?_of_subset (hsub : excluded ⊆ excluded')
    (h : ruleOfLine? excluded' line = some r) : ruleOfLine? excluded line = some r := by
  rw [ruleOfLine?] at h ⊢
  split at h
  · cases h
  · rename_i hloud
    rw [if_neg hloud]
    exact ruleOfTrimmed?_of_subset hsub h

end FilterText

namespace Builtin

theorem mem_rulesOf_of_subset {filters excluded excluded' : List String}
    (hsub : excluded ⊆ excluded') {r : Rule} (h : r ∈ rulesOf filters excluded') :
    r ∈ rulesOf filters excluded := by
  obtain ⟨line, hline, hr⟩ := List.mem_filterMap.1 h
  exact List.mem_filterMap.2 ⟨line, hline, FilterText.ruleOfLine?_of_subset hsub hr⟩

/-- All rules that are left of the lines block. -/
theorem action_of_mem_minimalRules {excluded : List String} {r : Rule}
    (h : r ∈ minimalRules excluded) : r.action = .block := by
  have : ∀ r ∈ rulesOf minimalFilters [], r.action = .block := by decide +kernel
  exact this r (mem_rulesOf_of_subset (List.nil_subset _) h)

end Builtin

/-! ### Verdicts of the collection -/

namespace RuleCollection

theorem compiles_of_mem_minimal {excluded : List String} {r : Rule} (h : r ∈ minimal excluded) :
    r.Compiles := by
  rcases List.mem_append.1 h with h | h
  · obtain ⟨line, -, hr⟩ := List.mem_filterMap.1 h
    exact (FilterText.isGood_of_ruleOfLine? hr).compiles
  · exact (Builtin.isGood_of_mem_exceptions h).compiles

end RuleCollection

/-- One of the rules applies to the request. -/
def AnyApplies (rules : List Rule) (q : Request) : Prop :=
  ∃ r ∈ rules, (CompiledRule.ofRule r).applies q = true

instance (rules : List Rule) (q : Request) : Decidable (AnyApplies rules q) :=
  inferInstanceAs (Decidable (∃ r ∈ rules, _))

theorem any_applies_map (rules : List Rule) (q : Request) :
    (rules.map CompiledRule.ofRule).any (·.applies q) = decide (AnyApplies rules q) := by
  rw [Bool.eq_iff_iff, decide_eq_true_iff, List.any_map, List.any_eq_true]
  rfl

/-- What the collection that stands in says of a request: it blocks if a rule that
    is left applies and no exception does, and does nothing else. -/
theorem agrees_verdict_minimal (excluded : List String) (q : Request) :
    (Matcher.verdict ⟨(RuleCollection.minimal excluded).map .ofRule⟩ q).Agrees
      { decision :=
          if AnyApplies (Builtin.minimalRules excluded) q ∧ ¬ AnyApplies Builtin.exceptions q
          then .block else .allow } := by
  have hexceptions : ∀ r ∈ Builtin.exceptions.map CompiledRule.ofRule,
      r.rule.isException = true := by
    intro r hr
    obtain ⟨r, hmem, rfl⟩ := List.mem_map.1 hr
    exact Builtin.isException_of_mem_exceptions hmem
  have hblocks : ∀ r ∈ (Builtin.minimalRules excluded).map CompiledRule.ofRule,
      r.rule.action = .block := by
    intro r hr
    obtain ⟨r, hmem, rfl⟩ := List.mem_map.1 hr
    exact Builtin.action_of_mem_minimalRules hmem
  rw [Matcher.verdict, RuleCollection.minimal, List.map_append, Matcher.verdictFrom_append]
  by_cases h : AnyApplies Builtin.exceptions q
  · rw [if_neg fun hblocked => hblocked.2 h]
    obtain ⟨r, hr, happlies⟩ := h
    exact Matcher.agrees_empty_of_exists _ hexceptions ⟨_, List.mem_map_of_mem hr, happlies⟩
  · -- No exception does anything, so only the blocking rules count.
    have hnone : ∀ r ∈ Builtin.exceptions.map CompiledRule.ofRule, r.applies q = false := by
      intro r hr
      obtain ⟨r, hmem, rfl⟩ := List.mem_map.1 hr
      exact Bool.eq_false_iff.2 fun happlies => h ⟨r, hmem, happlies⟩
    rw [Matcher.verdictFrom_of_forall_not _ hnone]
    have hagrees := Matcher.agrees_of_forall_block (q := q) (v := {}) 0 hblocks
    simpa only [any_applies_map, decide_eq_true_iff, h, not_false_eq_true, and_true] using hagrees

/-- Whatever page it is from, the collection that stands in allows a request unless
    one of the lines that name no whitelisted domain blocks it and none of the
    exceptions that every collection has lets it pass. That the page is on a
    whitelisted domain does not count. -/
theorem minimal_allows_iff (w : Whitelist) (q : Request) :
    ∃ m, Matcher.ofRules (RuleCollection.minimal w.domains) = .ok m ∧
      ((m.verdict q).decision = .allow ↔
        AnyApplies (Builtin.minimalRules w.domains) q → AnyApplies Builtin.exceptions q) ∧
      (m.verdict q).hidden = [] ∧ (m.verdict q).https = false := by
  have hagrees := agrees_verdict_minimal w.domains q
  refine ⟨_, Matcher.ofRules_eq_ok fun r hr => RuleCollection.compiles_of_mem_minimal hr, ?_,
    hagrees.hidden, hagrees.https⟩
  rw [hagrees.decision, ← not_iff_not]
  simp

/-- A page on a whitelisted domain is not exempt: its requests to a tracker are
    blocked. -/
theorem not_forall_minimal_allows :
    ¬ ∀ (w : Whitelist) (q : Request), w.coversHost q.pageHost = true →
      ∃ m, Matcher.ofRules (RuleCollection.minimal w.domains) = .ok m ∧
        (m.verdict q).decision = .allow := by
  intro h
  let w : Whitelist := ⟨["example.com"]⟩
  let q : Request := ⟨"https://ad.doubleclick.net/pixel.gif", "www.example.com", ∅⟩
  have happlies : AnyApplies (Builtin.minimalRules w.domains) q ∧
      ¬ AnyApplies Builtin.exceptions q := by decide +kernel
  obtain ⟨m, hm, hallowed⟩ := h w q (by decide +kernel)
  rw [Matcher.ofRules_eq_ok fun r hr => RuleCollection.compiles_of_mem_minimal hr] at hm
  obtain rfl := Except.ok.inj hm
  rw [(agrees_verdict_minimal w.domains q).decision, if_pos happlies] at hallowed
  cases hallowed

end ContentBlocking
