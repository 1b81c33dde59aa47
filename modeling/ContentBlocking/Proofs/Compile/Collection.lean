import ContentBlocking.Compile.Collection
import ContentBlocking.Proofs.FilterText.UrlPattern
import ContentBlocking.Proofs.Verdict

/-!
# The rules of a collection

Whatever the texts of the lists are, every rule that is made of them is one that
the engine takes, and so are the rules that every collection has.

* `FilterText.isGood_of_ruleOfLine?`: the rule of a line;
* `FilterText.exists_line_of_mem_parseLines`: rules of lists are rules of lines;
* `RuleCollection.isGood_of_mem_compile`: the rules of a collection.
-/

namespace ContentBlocking

theorem compile?_anything : compile? ".*" = some Regex.anything := by decide +kernel

/-- A rule for all URLs is good. -/
theorem Rule.isGood_of_urlPattern_eq {r : Rule} (h : r.trigger.urlPattern = ".*") : r.IsGood where
  nonempty := by
    rw [h]
    decide
  compiles := by
    rw [Rule.Compiles, h, compile?_anything]
    rfl

namespace FilterText

theorem isGood_of_cosmeticRule? {domains selector : List Char} {r : Rule}
    (h : cosmeticRule? domains selector = some r) : r.IsGood := by
  rw [cosmeticRule?] at h
  split at h
  · exact nomatch h
  · obtain rfl := Option.some.inj h
    exact Rule.isGood_of_urlPattern_eq rfl

theorem isGood_of_networkRule? {excluded : List String} {line : List Char} {r : Rule}
    (h : networkRule? excluded line = some r) : r.IsGood := by
  simp only [networkRule?] at h
  split at h
  · exact nomatch h
  · obtain rfl := Option.some.inj h
    exact ⟨urlPattern_ne_empty _ _ _, Option.isSome_of_eq_some (parse?_urlPattern _ _ _)⟩

/-- A line that gives a rule is a cosmetic or a network line. -/
theorem cosmetic_or_network {excluded : List String} {line : List Char} {r : Rule}
    (h : ruleOfLine? excluded line = some r) :
    (∃ domains selector, cosmeticRule? domains selector = some r) ∨
      ∃ line, networkRule? excluded line = some r := by
  rw [ruleOfLine?] at h
  split at h
  · exact nomatch h
  · rw [ruleOfTrimmed?] at h
    split at h
    · exact nomatch h
    · split at h
      · exact .inl ⟨_, _, h⟩
      · split at h
        · exact nomatch h
        · exact .inr ⟨_, h⟩

/-- The rule of a line is one that the engine takes. -/
theorem isGood_of_ruleOfLine? {excluded : List String} {line : List Char} {r : Rule}
    (h : ruleOfLine? excluded line = some r) : r.IsGood := by
  rcases cosmetic_or_network h with ⟨domains, selector, h⟩ | ⟨line, h⟩
  · exact isGood_of_cosmeticRule? h
  · exact isGood_of_networkRule? h

/-- The rules of some lines are the rules of single lines. -/
theorem exists_line_of_mem_parseLines {excluded : List String} {room : Nat}
    {lines : List (List Char)} {r : Rule} (h : r ∈ (parseLines excluded room lines).rules) :
    ∃ line ∈ lines, ruleOfLine? excluded line = some r := by
  -- Lines that say nothing are passed over, and no more rules are read than there is room
  -- for; in either case the rules are those of the rest.
  induction room, lines using parseLines.induct excluded with
  | case1 => simp [parseLines] at h
  | case2 => simp [parseLines] at h
  | case3 room line rest hs ih =>
    rw [parseLines, if_pos hs] at h
    obtain ⟨line', hmem, hline'⟩ := ih h
    exact ⟨line', List.mem_cons_of_mem _ hmem, hline'⟩
  | case4 room line rest hs rule hr ih =>
    rw [parseLines, if_neg hs, hr] at h
    rcases List.mem_cons.1 h with rfl | h
    · exact ⟨line, List.mem_cons_self, hr⟩
    · obtain ⟨line', hmem, hline'⟩ := ih h
      exact ⟨line', List.mem_cons_of_mem _ hmem, hline'⟩
  | case5 room line rest hs hr ih =>
    rw [parseLines, if_neg hs, hr] at h
    obtain ⟨line', hmem, hline'⟩ := ih h
    exact ⟨line', List.mem_cons_of_mem _ hmem, hline'⟩

end FilterText

namespace Builtin

theorem isGood_of_mem_rules {excluded : List String} {r : Rule} (h : r ∈ rules excluded) :
    r.IsGood := by
  obtain ⟨line, -, hline⟩ := List.mem_filterMap.1 h
  exact FilterText.isGood_of_ruleOfLine? hline

theorem isGood_of_mem_exceptions {r : Rule} (h : r ∈ exceptions) : r.IsGood := by
  -- These are fixed, so their patterns can be looked at one by one.
  have : ∀ r ∈ exceptions, r.IsGood := by decide +kernel
  exact this r h

end Builtin

namespace RuleCollection

theorem exists_line_of_mem_listRules {options : CompileOptions} {excluded : List String}
    {lists : List ListText} {r : Rule} (h : r ∈ listRules options excluded lists) :
    ∃ line, FilterText.ruleOfLine? excluded line = some r := by
  obtain ⟨list, -, hr⟩ := List.mem_flatMap.1 h
  rw [parseList] at hr
  cases ht : list.text with
  | none => simp [ht] at hr
  | some text =>
    rw [ht] at hr
    obtain ⟨line, -, hline⟩ := FilterText.exists_line_of_mem_parseLines hr
    exact ⟨line, hline⟩

theorem isGood_of_mem_listRules {options : CompileOptions} {excluded : List String}
    {lists : List ListText} {r : Rule} (h : r ∈ listRules options excluded lists) : r.IsGood := by
  obtain ⟨line, hline⟩ := exists_line_of_mem_listRules h
  exact FilterText.isGood_of_ruleOfLine? hline

theorem isGood_of_mem_whitelistRules {options : CompileOptions} {excluded : List String} {r : Rule}
    (h : r ∈ whitelistRules options excluded) : r.IsGood := by
  rw [whitelistRules] at h
  split at h
  · obtain ⟨domain, -, rfl⟩ := List.mem_map.1 h
    exact Rule.isGood_of_urlPattern_eq rfl
  · exact absurd h List.not_mem_nil

/-- The engine takes every rule of a collection. -/
theorem isGood_of_mem_compile {options : CompileOptions} {lists : List ListText}
    {excluded : List String} {r : Rule} (h : r ∈ (compile options lists excluded).rules) :
    r.IsGood := by
  rcases List.mem_append.1 h with h | h
  · rcases List.mem_append.1 h with h | h
    · -- What is left after duplicates are dropped was there before.
      rcases List.mem_append.1 ((distinctFrom_sublist _ _).subset h) with h | h
      · exact Builtin.isGood_of_mem_rules h
      · exact isGood_of_mem_listRules h
    · exact isGood_of_mem_whitelistRules h
  · exact Builtin.isGood_of_mem_exceptions h

end RuleCollection

end ContentBlocking
