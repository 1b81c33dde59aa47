import ContentBlocking.Proofs.Compile.Collection
import ContentBlocking.Proofs.Compile.ShardRuns
import ContentBlocking.Proofs.Subdomains
import ContentBlocking.Whitelist

/-!
# Whitelisted pages

The exception for a whitelisted domain applies to every request of the pages on
it. It is in every shard, after all blocking rules, so no shard does anything to
such a request, however the collection is cut.

* `applies_exceptionOn`: the exception for a domain applies to its pages;
* `whitelisted_page_untouched`: no shard touches a whitelisted page.
-/

namespace ContentBlocking

/-- A pattern that describes the empty piece at the beginning is in the text. -/
theorem Regex.search_of_nullable {r : Regex} {text : List Char}
    (h : r.nullable none text.head? = true) : r.search text = true := by
  cases text with
  | nil => simpa [search, searchFrom] using h
  | cons c text =>
    have h : r.nullable none (some c) = true := h
    simp [search, searchFrom, h]

/-- The exception for a domain applies to every request of a page on it. -/
theorem applies_exceptionOn {domain : String} {q : Request}
    (h : Host.isWithin q.pageHost domain = true) :
    (CompiledRule.ofRule (.exceptionOn domain)).applies q = true := by
  have hadmits : (Rule.exceptionOn domain).trigger.admits q = true := by
    simp only [Rule.exceptionOn, Trigger.admits, Option.all_some, Option.all_none, List.any_cons,
      List.any_nil, Host.fits_star, h]
    rfl
  have hfinds : finds Regex.anything q.url = true := Regex.search_of_nullable rfl
  rw [CompiledRule.applies_ofRule compile?_anything, hadmits, hfinds]
  rfl

/-- Whatever lists a collection is made of and however it is cut, no shard does
    anything to a request of a page on a whitelisted domain. -/
theorem whitelisted_page_untouched {options : CompileOptions} (lists : List ListText)
    (w : Whitelist) (maxRules maxShards : Nat) {shard : List Rule} {q : Request}
    (ho : options.whitelistExceptions = true)
    (hs : shard ∈ (ShardPlan.ofRules (RuleCollection.compile options lists w.domains).rules
      maxRules maxShards).shards)
    (hq : w.coversHost q.pageHost = true) :
    ∃ m, Matcher.ofRules shard = .ok m ∧ (m.verdict q).decision = .allow ∧
      (m.verdict q).hidden = [] ∧ (m.verdict q).https = false := by
  obtain ⟨runs, h⟩ := ShardPlan.exists_madeOf
    (RuleCollection.compile options lists w.domains).rules maxRules maxShards
  have hgood : ∀ r ∈ shard, r.Compiles := fun r hr =>
    (RuleCollection.isGood_of_mem_compile (h.forall_mem hs hr)).compiles
  obtain ⟨domain, hdomain, hwithin⟩ := List.any_eq_true.1 hq
  have hmem : Rule.exceptionOn domain ∈
      ShardPlan.exceptions (RuleCollection.compile options lists w.domains).rules := by
    -- Exceptions for the whitelist come after the rules of the lists.
    refine List.mem_filter.2 ⟨?_, rfl⟩
    refine List.mem_append_left _ (List.mem_append_right _ ?_)
    rw [RuleCollection.whitelistRules, if_pos ho]
    exact List.mem_map_of_mem hdomain
  rw [h.shards] at hs
  obtain ⟨run, -, rfl⟩ := List.mem_map.1 hs
  have hagrees : (Matcher.verdict ⟨(run ++ ShardPlan.exceptions
      (RuleCollection.compile options lists w.domains).rules).map .ofRule⟩ q).Agrees {} := by
    rw [Matcher.verdict, List.map_append, Matcher.verdictFrom_append]
    -- The exceptions come last in the shard, so it does not matter what the run is.
    exact Matcher.agrees_empty_of_exists _ (CompiledRule.isException_of_mem_map _)
      ⟨_, List.mem_map_of_mem hmem, applies_exceptionOn hwithin⟩
  exact ⟨_, Matcher.ofRules_eq_ok hgood, hagrees.decision, hagrees.hidden, hagrees.https⟩

/-- The exceptions alone exceed the limit, and most rules are dropped. -/
theorem whitelisted_page_untouched_clamped :
    let w := Whitelist.ofEntries ["https://www.Example.com/home", "shop.org"]
    let q : Request := ⟨"https://ads.net/pixel.gif", "news.example.com.", ∅⟩
    let plan := ShardPlan.ofRules
      (RuleCollection.compile {} [⟨"list", some "||ads.net/\nads.net##.banner"⟩]
        w.domains).rules 1 2
    plan.dropped = 25 ∧ ∃ shard ∈ plan.shards, ∃ m, Matcher.ofRules shard = .ok m ∧
      (m.verdict q).decision = .allow ∧ (m.verdict q).hidden = [] ∧
        (m.verdict q).https = false := by
  intro w q plan
  have hplan : (plan.dropped, plan.shards.length) = (25, 2) := by decide +kernel
  obtain ⟨hdropped, hlength⟩ := Prod.mk.inj hplan
  have hsecond : 1 < plan.shards.length := by omega
  have hmem := List.getElem_mem hsecond
  exact ⟨hdropped, _, hmem, whitelisted_page_untouched _ w 1 2 rfl hmem (by decide +kernel)⟩

end ContentBlocking
