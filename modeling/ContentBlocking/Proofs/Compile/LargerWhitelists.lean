import ContentBlocking.Proofs.Compile.Assembly
import ContentBlocking.Proofs.Effects

/-!
# Larger whitelists

With more domains excluded a collection has fewer rules that do something and more
exceptions, so it does less to every request. The order of the rules does not matter for
that, nor which of several duplicates is left, since the exceptions stand last. That the
smaller whitelist truncates no list is needed: a line that it takes out leaves room for
a rule behind the ceiling.

* `Matcher.does_verdict_iff`: what rules do that are followed by exceptions;
* `FilterText.mem_parseLines_of_line`: a list that is not truncated has the rules of all
  its lines;
* `RuleCollection.larger_whitelist_does_less`: a larger whitelist never blocks or hides
  more.
-/

namespace ContentBlocking

/-! ### What rules do that are followed by exceptions -/

theorem AnyApplies.of_subset {rules rules' : List Rule} {q : Request} (hsub : rules ⊆ rules')
    (h : AnyApplies rules q) : AnyApplies rules' q := by
  obtain ⟨r, hr, happlies⟩ := h
  exact ⟨r, hsub hr, happlies⟩

namespace Matcher

variable {rules exceptions : List Rule} {q : Request} {a : Action}

/-- Rules that are followed by exceptions do what one of them does that applies, if no
    exception applies. -/
theorem does_verdict_iff (h : ∀ r ∈ rules, r.isException = false)
    (hx : ∀ r ∈ exceptions, r.isException = true) :
    (verdict ⟨(rules ++ exceptions).map .ofRule⟩ q).Does a ↔
      AnyDoes rules q a ∧ ¬ AnyApplies exceptions q := by
  rw [verdict, List.map_append, verdictFrom_append]
  by_cases happlies : AnyApplies exceptions q
  · obtain ⟨r, hr, hr'⟩ := happlies
    have hagrees := agrees_empty_of_exists (q := q) (v := verdictFrom q 0 {} (rules.map .ofRule))
      (0 + (rules.map CompiledRule.ofRule).length) (List.forall_mem_map.2 hx)
      ⟨_, List.mem_map_of_mem hr, hr'⟩
    rw [hagrees.does_iff]
    exact iff_of_false (Verdict.not_does_empty a) fun hdoes => hdoes.2 ⟨r, hr, hr'⟩
  · have hnone : ∀ r ∈ exceptions.map CompiledRule.ofRule, r.applies q = false :=
      List.forall_mem_map.2 fun r hr => Bool.eq_false_iff.2 fun hr' => happlies ⟨r, hr, hr'⟩
    have hcancels : ∀ r ∈ rules, r.cancels q = false := fun r hr =>
      Rule.cancels_of_not_isException (h r hr) q
    rw [verdictFrom_of_forall_not _ hnone, does_verdictFrom_iff hcancels, and_iff_left happlies,
      or_iff_right (Verdict.not_does_empty a)]

/-- Fewer rules with more exceptions do less. -/
theorem does_of_subset {rules' exceptions' : List Rule} (h : ∀ r ∈ rules, r.isException = false)
    (hx' : ∀ r ∈ exceptions', r.isException = true) (hrules : rules' ⊆ rules)
    (hexceptions : exceptions ⊆ exceptions')
    (hdoes : (verdict ⟨(rules' ++ exceptions').map .ofRule⟩ q).Does a) :
    (verdict ⟨(rules ++ exceptions).map .ofRule⟩ q).Does a := by
  rw [does_verdict_iff (fun r hr => h r (hrules hr)) hx'] at hdoes
  rw [does_verdict_iff h fun r hr => hx' r (hexceptions hr)]
  obtain ⟨hdoes, hfree⟩ := hdoes
  exact ⟨hdoes.of_subset hrules, mt (AnyApplies.of_subset hexceptions) hfree⟩

end Matcher

/-! ### Lists that are not truncated -/

namespace FilterText

/-- If a list is not truncated, all its lines are looked at. -/
theorem mem_parseLines_of_line {excluded : List String} {room : Nat} {lines : List (List Char)}
    (hall : (parseLines excluded room lines).truncated = false) {line : List Char} {r : Rule}
    (hline : line ∈ lines) (hr : ruleOfLine? excluded line = some r) :
    r ∈ (parseLines excluded room lines).rules := by
  induction room, lines using parseLines.induct excluded with
  | case1 => exact absurd hline List.not_mem_nil
  | case2 => cases hall
  | case3 room line' rest hs ih =>
    rw [parseLines, if_pos hs] at hall ⊢
    rcases List.mem_cons.1 hline with rfl | hline
    · rw [ruleOfLine?, if_pos hs] at hr
      cases hr
    · exact ih hall hline
  | case4 room line' rest hs rule hr' ih =>
    rw [parseLines, if_neg hs, hr'] at hall ⊢
    rcases List.mem_cons.1 hline with rfl | hline
    · obtain rfl := Option.some.inj (hr'.symm.trans hr)
      exact List.mem_cons_self
    · exact List.mem_cons_of_mem _ (ih hall hline)
  | case5 room line' rest hs hr' ih =>
    rw [parseLines, if_neg hs, hr'] at hall ⊢
    rcases List.mem_cons.1 hline with rfl | hline
    · exact absurd (hr'.symm.trans hr) (by simp)
    · exact ih hall hline

/-- What is found when more domains are excluded is also found when fewer are, unless
    the ceiling is reached then. -/
theorem parse_rules_subset {excluded excluded' : List String} (hsub : excluded ⊆ excluded')
    {max : Nat} {text : String} (hall : (parse excluded max text).truncated = false) :
    (parse excluded' max text).rules ⊆ (parse excluded max text).rules := by
  intro r hr
  obtain ⟨line, hline, hr⟩ := exists_line_of_mem_parseLines hr
  exact mem_parseLines_of_line hall hline (ruleOfLine?_of_subset hsub hr)

end FilterText

/-! ### Collections -/

theorem mem_append_newRules {known rules : List Rule} {r : Rule} :
    r ∈ known ++ newRules known rules ↔ r ∈ known ∨ r ∈ rules := by
  rw [List.mem_append, newRules, List.mem_eraseDups, List.mem_filter, decide_eq_true_iff]
  by_cases h : r ∈ known <;> simp [h]

namespace RuleCollection

variable {options : CompileOptions} {lists : List ListText} {excluded excluded' : List String}

theorem truncated_of_text (hall : ∀ report ∈ (compile options lists excluded).report.lists,
      report.truncated = false) {list : ListText} (hlist : list ∈ lists) {text : String}
    (ht : list.text = some text) :
    (FilterText.parse excluded options.maxRulesPerList text).truncated = false := by
  have hreport := hall _ (List.mem_map_of_mem hlist)
  rwa [parseList, ht] at hreport

/-- The part of a collection that does something. -/
def doingRules (options : CompileOptions) (excluded : List String) (lists : List ListText) :
    List Rule :=
  Builtin.rules excluded ++
    newRules (Builtin.rules excluded) (availableRules options excluded lists)

theorem isException_of_mem_doingRules {r : Rule} (h : r ∈ doingRules options excluded lists) :
    r.isException = false := by
  rw [doingRules, ← distinctRules_blocking] at h
  exact isException_of_mem_blocking ((distinctFrom_sublist _ _).subset h)

theorem doingRules_subset (hsub : excluded ⊆ excluded')
    (hall : ∀ report ∈ (compile options lists excluded).report.lists, report.truncated = false) :
    doingRules options excluded' lists ⊆ doingRules options excluded lists := by
  intro r hr
  rw [doingRules, mem_append_newRules] at hr ⊢
  rcases hr with hr | hr
  · exact .inl (Builtin.mem_rulesOf_of_subset hsub hr)
  · right
    obtain ⟨text, htext, hr⟩ := List.mem_flatMap.1 hr
    obtain ⟨list, hlist, ht⟩ := List.mem_filterMap.1 htext
    have hr := FilterText.parse_rules_subset hsub (truncated_of_text hall hlist ht) hr
    exact List.mem_flatMap.2 ⟨text, htext, hr⟩

theorem whitelistRules_subset (hsub : excluded ⊆ excluded') :
    whitelistRules options excluded ⊆ whitelistRules options excluded' := by
  rw [whitelistRules, whitelistRules]
  split
  · exact List.map_subset _ hsub
  · exact List.Subset.refl _

theorem isException_of_mem_exceptions {r : Rule}
    (h : r ∈ whitelistRules options excluded ++ Builtin.exceptions) : r.isException = true := by
  rcases List.mem_append.1 h with h | h
  · exact isException_of_mem_whitelistRules h
  · exact Builtin.isException_of_mem_exceptions h

theorem ofRules_compile (options : CompileOptions) (lists : List ListText)
    (excluded : List String) : Matcher.ofRules (compile options lists excluded).rules =
      .ok ⟨(doingRules options excluded lists ++
        (whitelistRules options excluded ++ Builtin.exceptions)).map .ofRule⟩ := by
  have hrules : (compile options lists excluded).rules = doingRules options excluded lists ++
      (whitelistRules options excluded ++ Builtin.exceptions) := by
    rw [rules_compile, List.append_assoc]
    rfl
  rw [← hrules]
  exact Matcher.ofRules_eq_ok fun r hr => (isGood_of_mem_compile hr).compiles

/-- Whatever lists there are and however they are compiled, if the collection for a
    whitelist truncates no list, then the collection for a larger one blocks a request
    only if the first does, and hides nothing that the first leaves visible. -/
theorem larger_whitelist_does_less (options : CompileOptions) (lists : List ListText)
    {excluded excluded' : Finset String} (hsub : excluded ⊆ excluded')
    (hall : ∀ report ∈ (compile options lists (excluded.sort (· ≤ ·))).report.lists,
      report.truncated = false) :
    ∃ m m', Matcher.ofRules (compile options lists (excluded.sort (· ≤ ·))).rules = .ok m ∧
      Matcher.ofRules (compile options lists (excluded'.sort (· ≤ ·))).rules = .ok m' ∧
      ∀ q, ((m'.verdict q).decision = .block → (m.verdict q).decision = .block) ∧
        ∀ selector ∈ (m'.verdict q).hidden, selector ∈ (m.verdict q).hidden := by
  have hsub : excluded.sort (· ≤ ·) ⊆ excluded'.sort (· ≤ ·) := by
    intro domain hdomain
    exact (Finset.mem_sort _).2 (hsub ((Finset.mem_sort _).1 hdomain))
  have hexceptions : whitelistRules options (excluded.sort (· ≤ ·)) ++ Builtin.exceptions ⊆
      whitelistRules options (excluded'.sort (· ≤ ·)) ++ Builtin.exceptions :=
    List.append_subset.2 ⟨List.subset_append_of_subset_left _ (whitelistRules_subset hsub),
      List.subset_append_right _ _⟩
  refine ⟨_, _, ofRules_compile _ _ _, ofRules_compile _ _ _, fun q => ?_⟩
  have hdoes : ∀ a, Verdict.Does _ a → Verdict.Does _ a := fun a =>
    Matcher.does_of_subset (q := q) (fun _ => isException_of_mem_doingRules)
      (fun _ => isException_of_mem_exceptions) (doingRules_subset hsub hall) hexceptions
  exact ⟨hdoes .block, fun selector => hdoes (.hide selector)⟩

/-- One more domain takes out a line of the list and lets the pages on it pass; what is
    blocked elsewhere was blocked without it. -/
theorem larger_whitelist_does_less_example :
    let lists : List ListText := [⟨"list", some "||ads.net/\n||example.com/ads\n##.banner"⟩]
    let shop : Request := ⟨"https://ads.net/pixel.gif", "shop.org", ∅⟩
    let own : Request := ⟨"https://ads.net/pixel.gif", "www.example.com", ∅⟩
    ∃ m m', Matcher.ofRules (compile {} lists []).rules = .ok m ∧
      Matcher.ofRules (compile {} lists ["example.com"]).rules = .ok m' ∧
      (m'.verdict shop).decision = .block ∧ (m'.verdict own).decision = .allow ∧
      (m.verdict shop).decision = .block ∧ ".banner" ∈ (m.verdict shop).hidden := by
  intro lists shop own
  have hsub : (∅ : Finset String) ⊆ {"example.com"} := Finset.empty_subset _
  have hempty : (∅ : Finset String).sort (· ≤ ·) = [] := Finset.sort_empty _
  have hsingle : ({"example.com"} : Finset String).sort (· ≤ ·) = ["example.com"] :=
    Finset.sort_singleton _ _
  obtain ⟨m, m', hm, hm', hless⟩ := larger_whitelist_does_less {} lists hsub
    (by rw [hempty]; decide +kernel)
  rw [hempty] at hm
  rw [hsingle] at hm'
  have hverdicts : (Matcher.ofRules (compile {} lists ["example.com"]).rules).toOption.map
      (fun m' => ((m'.verdict shop).decision, decide (".banner" ∈ (m'.verdict shop).hidden),
        (m'.verdict own).decision)) = some (.block, true, .allow) := by
    decide +kernel
  rw [hm'] at hverdicts
  obtain ⟨hblock, hverdicts⟩ := Prod.mk.inj (Option.some.inj hverdicts)
  obtain ⟨hhidden, hallow⟩ := Prod.mk.inj hverdicts
  exact ⟨m, m', hm, hm', hblock, hallow, (hless shop).1 hblock,
    (hless shop).2 _ (decide_eq_true_iff.1 hhidden)⟩

end RuleCollection

end ContentBlocking
