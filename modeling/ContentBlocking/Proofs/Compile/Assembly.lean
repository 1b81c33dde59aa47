import ContentBlocking.Proofs.Compile.MinimalCollection
import Mathlib.Algebra.GroupWithZero.Nat
import Mathlib.Data.Finset.Sort
import Mathlib.Data.List.Nodup
import Mathlib.Data.String.Basic

/-!
# What a collection is made of

The built-in rules are all different and no line gives an exception, so the rules that
are dropped as duplicates are rules of lists, and the report adds up: the counts in it
are those of the parts of the collection.

* `distinctRules_eq`: what is left of rules that are no exceptions;
* `Builtin.nodup_rules`: the built-in rules, whatever domains are excluded;
* `RuleCollection.compile_assembles`: the parts of a collection, and its report.
-/

namespace ContentBlocking

/-! ### Duplicates -/

/-- The rules that are not known, the first of every kind. -/
def newRules (known rules : List Rule) : List Rule :=
  (rules.filter fun r => r ∉ known).eraseDups

theorem distinctFrom_eq {rules : List Rule} (h : ∀ r ∈ rules, r.isException = false)
    (seen : List Rule) : distinctFrom seen rules = newRules seen rules := by
  induction rules generalizing seen with
  | nil => rfl
  | cons r rest ih =>
    obtain ⟨hr, hrest⟩ := List.forall_mem_cons.1 h
    rw [distinctFrom, if_neg (Bool.eq_false_iff.1 hr), newRules]
    by_cases hseen : r ∈ seen
    · rw [if_pos hseen, ih hrest, List.filter_cons_of_neg (by simpa using hseen), newRules]
    · -- From here on the rule is known, so the next one like it is a duplicate.
      rw [if_neg hseen, ih hrest, List.filter_cons_of_pos (by simpa using hseen),
        List.eraseDups_cons, List.filter_filter, newRules]
      congr 2
      refine List.filter_congr fun r' _ => ?_
      rw [Bool.eq_iff_iff]
      simp

/-- Of rules that are no exceptions the first of every kind is left. -/
theorem distinctRules_eq {rules : List Rule} (h : ∀ r ∈ rules, r.isException = false) :
    distinctRules rules = rules.eraseDups := by
  have hall : rules.filter (fun r => r ∉ ([] : List Rule)) = rules :=
    List.filter_eq_self.2 fun _ _ => rfl
  rw [distinctRules, distinctFrom_eq h, newRules, hall]

theorem eraseDups_eq_self {α : Type} [DecidableEq α] {l : List α} (h : l.Nodup) :
    l.eraseDups = l := by
  induction l with
  | nil => rfl
  | cons a l ih =>
    obtain ⟨ha, hl⟩ := List.nodup_cons.1 h
    have hkept : l.filter (fun b => !b == a) = l := by
      rw [List.filter_eq_self]
      intro b hb
      have hne : b ≠ a := fun heq => ha (heq ▸ hb)
      simpa using hne
    rw [List.eraseDups_cons, hkept, ih hl]

/-! ### Lines give no exceptions -/

namespace FilterText

theorem isException_of_cosmeticRule? {domains selector : List Char} {r : Rule}
    (h : cosmeticRule? domains selector = some r) : r.isException = false := by
  rw [cosmeticRule?] at h
  split at h
  · cases h
  · obtain rfl := Option.some.inj h
    rfl

theorem isException_of_networkRule? {excluded : List String} {line : List Char} {r : Rule}
    (h : networkRule? excluded line = some r) : r.isException = false := by
  simp only [networkRule?] at h
  split at h
  · cases h
  · obtain rfl := Option.some.inj h
    rfl

/-- The rule of a line is no exception. -/
theorem isException_of_ruleOfLine? {excluded : List String} {line : List Char} {r : Rule}
    (h : ruleOfLine? excluded line = some r) : r.isException = false := by
  rcases cosmetic_or_network h with ⟨domains, selector, h⟩ | ⟨line, h⟩
  · exact isException_of_cosmeticRule? h
  · exact isException_of_networkRule? h

end FilterText

namespace Builtin

theorem isException_of_mem_rules {excluded : List String} {r : Rule} (h : r ∈ rules excluded) :
    r.isException = false := by
  obtain ⟨line, -, hline⟩ := List.mem_filterMap.1 h
  exact FilterText.isException_of_ruleOfLine? hline

theorem rulesOf_sublist (filters excluded : List String) :
    (rulesOf filters excluded).Sublist (rulesOf filters []) := by
  induction filters with
  | nil => exact .slnil
  | cons line filters ih =>
    rw [rulesOf, rulesOf, List.filterMap_cons, List.filterMap_cons]
    cases hline : FilterText.ruleOfLine? excluded line.toList with
    | none =>
      dsimp only
      split
      · exact ih
      · exact ih.cons _
    | some r =>
      rw [FilterText.ruleOfLine?_of_subset (List.nil_subset _) hline]
      exact ih.cons_cons r

/-- The built-in rules are all different. -/
theorem nodup_rules (excluded : List String) : (rules excluded).Nodup := by
  have hall : (rulesOf filters []).Nodup := by decide +kernel
  exact hall.sublist (rulesOf_sublist filters excluded)

end Builtin

namespace RuleCollection

/-- The rules in the texts that could be had, in the order of the lists. -/
def availableRules (options : CompileOptions) (excluded : List String) (lists : List ListText) :
    List Rule :=
  (lists.filterMap (·.text)).flatMap fun text =>
    (FilterText.parse excluded options.maxRulesPerList text).rules

variable {options : CompileOptions} {excluded : List String} {lists : List ListText}

theorem listRules_eq (options : CompileOptions) (excluded : List String) (lists : List ListText) :
    listRules options excluded lists = availableRules options excluded lists := by
  induction lists with
  | nil => rfl
  | cons list lists ih =>
    rw [listRules, List.flatMap_cons, ← listRules, ih, availableRules, availableRules]
    cases ht : list.text with
    | none =>
      rw [List.filterMap_cons_none ht, parseList, ht]
      rfl
    | some text =>
      rw [List.filterMap_cons_some ht, parseList, ht]
      rfl

theorem isException_of_mem_blocking {r : Rule}
    (h : r ∈ Builtin.rules excluded ++ listRules options excluded lists) :
    r.isException = false := by
  rcases List.mem_append.1 h with h | h
  · exact Builtin.isException_of_mem_rules h
  · obtain ⟨line, hline⟩ := exists_line_of_mem_listRules h
    exact FilterText.isException_of_ruleOfLine? hline

/-- No built-in rule is dropped as a duplicate. -/
theorem distinctRules_blocking (options : CompileOptions) (excluded : List String)
    (lists : List ListText) :
    distinctRules (Builtin.rules excluded ++ listRules options excluded lists) =
      Builtin.rules excluded ++
        newRules (Builtin.rules excluded) (availableRules options excluded lists) := by
  rw [distinctRules_eq fun _ => isException_of_mem_blocking, List.eraseDups_append,
    eraseDups_eq_self (Builtin.nodup_rules _), newRules, List.removeAll, listRules_eq]
  simp only [List.elem_eq_mem, decide_not]

theorem rules_compile (options : CompileOptions) (lists : List ListText)
    (excluded : List String) :
    (compile options lists excluded).rules = Builtin.rules excluded ++
      newRules (Builtin.rules excluded) (availableRules options excluded lists) ++
      whitelistRules options excluded ++ Builtin.exceptions :=
  congrArg (· ++ whitelistRules options excluded ++ Builtin.exceptions)
    (distinctRules_blocking options excluded lists)

theorem filter_isException_blocking (options : CompileOptions) (excluded : List String)
    (lists : List ListText) :
    (Builtin.rules excluded ++ newRules (Builtin.rules excluded)
      (availableRules options excluded lists)).filter Rule.isException = [] := by
  rw [← distinctRules_blocking, List.filter_eq_nil_iff]
  intro r hr
  have hmem := (distinctFrom_sublist _ _).subset hr
  exact Bool.eq_false_iff.1 (isException_of_mem_blocking hmem)

theorem isException_of_mem_whitelistRules {r : Rule} (h : r ∈ whitelistRules options excluded) :
    r.isException = true := by
  rw [whitelistRules] at h
  split at h
  · obtain ⟨domain, -, rfl⟩ := List.mem_map.1 h
    rfl
  · exact absurd h List.not_mem_nil

/-- The exceptions of a collection are its last two parts. -/
theorem exceptionCount_compile (options : CompileOptions) (lists : List ListText)
    (excluded : List String) : (compile options lists excluded).exceptionCount =
      (whitelistRules options excluded).length + Builtin.exceptions.length := by
  have hplain := congrArg List.length (filter_isException_blocking options excluded lists)
  rw [← List.countP_eq_length_filter] at hplain
  have hwhitelisted := List.countP_eq_length.2 fun r (hr : r ∈ whitelistRules options excluded) =>
    isException_of_mem_whitelistRules hr
  have hsite := List.countP_eq_length.2 fun r (hr : r ∈ Builtin.exceptions) =>
    Builtin.isException_of_mem_exceptions hr
  rw [exceptionCount, rules_compile, List.countP_append, List.countP_append, hplain, hwhitelisted,
    hsite, List.length_nil, Nat.zero_add]

/-- The rules of the lists are new or counted as duplicates. -/
theorem deduped_compile (options : CompileOptions) (lists : List ListText)
    (excluded : List String) : (compile options lists excluded).report.deduped +
      (newRules (Builtin.rules excluded) (availableRules options excluded lists)).length =
      (availableRules options excluded lists).length := by
  have hcount : (compile options lists excluded).report.deduped +
      (distinctRules (Builtin.rules excluded ++ listRules options excluded lists)).length =
        (Builtin.rules excluded ++ listRules options excluded lists).length :=
    duplicatesFrom_add_length [] _
  rw [distinctRules_blocking, List.length_append, List.length_append, listRules_eq] at hcount
  omega

theorem sum_ruleCounts (options : CompileOptions) (lists : List ListText)
    (excluded : List String) :
    ((compile options lists excluded).report.lists.map (·.rules)).sum =
      (availableRules options excluded lists).length := by
  have hreports : (compile options lists excluded).report.lists =
      lists.map fun list => reportOf list (parseList options excluded list) := rfl
  rw [hreports, ← listRules_eq, listRules, List.length_flatMap, List.map_map]
  congr 1
  refine List.map_congr_left fun list _ => ?_
  rw [Function.comp_apply]
  cases parseList options excluded list <;> rfl

theorem availableRules_filter (options : CompileOptions) (excluded : List String)
    (lists : List ListText) :
    availableRules options excluded (lists.filter (·.text.isSome)) =
      availableRules options excluded lists := by
  rw [availableRules, availableRules, List.filterMap_filter]
  congr 2
  funext list
  cases list.text <;> rfl

/-- Whatever lists there are and whatever domains are excluded, a collection has the
    built-in rules first, then the rules of the lists that are new, then the exceptions
    for the excluded domains in ascending order and the exceptions of every collection.
    The last two parts hold all exceptions, and the report counts the parts. -/
theorem compile_assembles (options : CompileOptions) (lists : List ListText)
    (excluded : Finset String) :
    let domains := excluded.sort (· ≤ ·)
    let c := compile options lists domains
    let builtin := Builtin.rules domains
    let found := availableRules options domains lists
    let fromLists := newRules builtin found
    let whitelisted := if options.whitelistExceptions then domains.map Rule.exceptionOn else []
    c.rules = builtin ++ fromLists ++ whitelisted ++ Builtin.exceptions ∧
      (builtin ++ fromLists).filter Rule.isException = [] ∧
      c.rules = (compile options (lists.filter (·.text.isSome)) domains).rules ∧
      c.report.builtin = builtin.length ∧
      (c.report.lists.map (·.rules)).sum = found.length ∧
      c.report.deduped + fromLists.length = found.length ∧
      c.report.whitelistExceptions = whitelisted.length ∧
      c.report.siteExceptions = Builtin.exceptions.length ∧
      c.rules.length = c.report.builtin + (c.report.lists.map (·.rules)).sum - c.report.deduped +
        c.report.whitelistExceptions + c.report.siteExceptions ∧
      c.exceptionCount = c.report.whitelistExceptions + c.report.siteExceptions := by
  intro domains c builtin found fromLists whitelisted
  have hrules : c.rules = builtin ++ fromLists ++ whitelisted ++ Builtin.exceptions :=
    rules_compile options lists domains
  have hsum : (c.report.lists.map (·.rules)).sum = found.length :=
    sum_ruleCounts options lists domains
  have hdeduped : c.report.deduped + fromLists.length = found.length :=
    deduped_compile options lists domains
  have hlength : c.rules.length = builtin.length + found.length - c.report.deduped +
      whitelisted.length + Builtin.exceptions.length := by
    rw [hrules, List.length_append, List.length_append, List.length_append]
    omega
  refine ⟨hrules, filter_isException_blocking options domains lists, ?_, rfl, hsum, hdeduped, rfl,
    rfl, ?_, exceptionCount_compile options lists domains⟩
  · -- A list without a text has no rules that could be new.
    have hothers := rules_compile options (lists.filter (·.text.isSome)) domains
    rw [availableRules_filter] at hothers
    exact hrules.trans hothers.symm
  · rw [hsum]
    exact hlength

end RuleCollection

end ContentBlocking
