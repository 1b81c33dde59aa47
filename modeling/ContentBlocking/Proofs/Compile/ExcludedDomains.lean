import ContentBlocking.Proofs.Compile.LargerWhitelists
import ContentBlocking.Proofs.Whitelist

/-!
# Excluded domains in patterns

A line is left out if its text names an excluded domain. In the expression of a line the
text stands character by character: a wildcard becomes `.*`, a special character gets a
backslash, and the others stay. So a domain that is spelled in the expression begins at a
character of the text, since it begins with one that stays, and from there on both are
read in step: the expression spells a domain if and only if the text names it.

* `FilterText.expand`: what a character of the text becomes;
* `FilterText.namesExcluded_iff`: what the expression spells is what the text names;
* `FilterText.mem_parseLines_of_kept`: a rule that is not left out is not lost at the
  ceiling either;
* `RuleCollection.exclusion_drops_spelled`: what is left out of lines and collections.
-/

namespace ContentBlocking

open Text

/-- The domain as it stands in regular expressions: a backslash precedes every dot. -/
def spelled (domain : String) : List Char :=
  domain.toList.flatMap fun c => if c = '.' then ['\\', '.'] else [c]

/-- The domain is spelled in the pattern of the rule, in whatever case. -/
def Rule.Spells (r : Rule) (domain : String) : Prop :=
  spelled domain <:+: lowerAscii r.trigger.urlPattern.toList

instance (r : Rule) : DecidablePred r.Spells := fun _ => inferInstanceAs (Decidable (_ <:+: _))

namespace FilterText

/-! ### Expressions character by character -/

/-- What a character of the text of a line becomes in the expression. -/
def expand (c : Char) : List Char :=
  if c = '*' then anything else if isSpecial c then ['\\', c] else [c]

theorem joinWith_cons_append (sep front piece : List Char) (rest : List (List Char)) :
    joinWith sep ((front ++ piece) :: rest) = front ++ joinWith sep (piece :: rest) := by
  cases rest with
  | nil => rfl
  | cons next rest => simp only [joinWith, List.append_assoc]

theorem joinWith_escape (text : List Char) :
    joinWith anything ((splitOn '*' text).map escape) = text.flatMap expand := by
  induction text with
  | nil => rfl
  | cons c text ih =>
    rw [List.flatMap_cons, ← ih, splitOn, expand]
    cases hpieces : splitOn '*' text with
    | nil => exact absurd hpieces (splitOn_ne_nil '*' text)
    | cons piece rest =>
      by_cases hc : c = '*'
      · rw [if_pos hc, if_pos hc]
        rfl
      · have hescape : escape (c :: piece) =
            (if isSpecial c then ['\\', c] else [c]) ++ escape piece := rfl
        rw [if_neg hc, if_neg hc, List.map_cons, hescape, joinWith_cons_append, List.map_cons]

theorem expand_toLower (c : Char) : expand c.toLower = lowerAscii (expand c) := by
  by_cases h : Host.isDomainChar c = true
  · exact Host.forall_isDomainChar (P := fun c => expand c.toLower = lowerAscii (expand c))
      (by decide +kernel) h
  · -- Only letters have a small form of their own.
    have hsame : c.toLower = c := Host.toLower_of_not_isDomainChar h
    rw [hsame, expand]
    split
    · decide
    · split <;> simp [lowerAscii, hsame]

theorem lowerAscii_flatMap_expand (text : List Char) :
    lowerAscii (text.flatMap expand) = (lowerAscii text).flatMap expand := by
  rw [lowerAscii, lowerAscii, List.map_flatMap, List.flatMap_map]
  exact congrArg (text.flatMap ·) (funext fun c => (expand_toLower c).symm)

/-! ### Texts in expressions -/

/-- A place in an expression at which a character stands that means itself is a place in
    the text. -/
theorem exists_suffix_of_suffix {c : Char} (hc : isSpecial c = false) {text tail more : List Char}
    (htail : c ∉ tail) (h : c :: more <:+ text.flatMap expand ++ tail) :
    ∃ rest, rest <:+ text ∧ c :: more = rest.flatMap expand ++ tail := by
  induction text with
  | nil => exact absurd (h.mem List.mem_cons_self) htail
  | cons d text ih =>
    have hlater (h : c :: more <:+ text.flatMap expand ++ tail) :
        ∃ rest, rest <:+ d :: text ∧ c :: more = rest.flatMap expand ++ tail := by
      obtain ⟨rest, hrest, heq⟩ := ih h
      exact ⟨rest, hrest.trans (List.suffix_cons _ _), heq⟩
    have hne : ∀ e, isSpecial e = true → c ≠ e := fun e he heq => by simp [← heq, hc] at he
    rw [List.flatMap_cons, expand, List.append_assoc] at h
    split at h
    · rcases List.suffix_cons_iff.1 h with h | h
      · exact absurd (List.cons.inj h).1 (hne '.' rfl)
      · rcases List.suffix_cons_iff.1 h with h | h
        · exact absurd (List.cons.inj h).1 (hne '*' rfl)
        · exact hlater h
    · next hstar =>
      split at h
      · next hd =>
        rcases List.suffix_cons_iff.1 h with h | h
        · exact absurd (List.cons.inj h).1 (hne '\\' rfl)
        · rcases List.suffix_cons_iff.1 h with h | h
          · exact absurd (List.cons.inj h).1 (hne d hd)
          · exact hlater h
      · next hd =>
        rcases List.suffix_cons_iff.1 h with h | h
        · refine ⟨d :: text, List.suffix_refl _, ?_⟩
          rw [List.flatMap_cons, expand, if_neg hstar, if_neg hd, List.append_assoc]
          exact h
        · exact hlater h

/-- An expression that begins like the one of a text without wildcards is the expression of
    something that begins with that text. -/
theorem prefix_of_prefix_flatMap {sub text tail : List Char} (hsub : '*' ∉ sub)
    (htail : ∀ c ∈ tail, isSpecial c = true ∧ c ≠ '\\')
    (h : sub.flatMap expand <+: text.flatMap expand ++ tail) : sub <+: text := by
  induction sub generalizing text with
  | nil => exact List.nil_prefix
  | cons c sub ih =>
    rw [List.mem_cons, not_or] at hsub
    obtain ⟨hc, hsub⟩ := hsub
    -- The first character of the expression tells what the first one of the text is.
    rw [List.flatMap_cons, expand, if_neg (Ne.symm hc)] at h
    cases text with
    | nil =>
      exfalso
      split at h
      · exact (htail '\\' (h.subset (by simp))).2 rfl
      · next hplain => exact hplain (htail c (h.subset (by simp))).1
    | cons d text =>
      rw [List.flatMap_cons, expand, List.append_assoc] at h
      suffices c = d ∧ sub.flatMap expand <+: text.flatMap expand ++ tail from
        List.cons_prefix_cons.2 ⟨this.1, ih hsub this.2⟩
      by_cases hstar : d = '*'
      · rw [if_pos hstar] at h
        split at h
        · exact absurd (List.cons_prefix_cons.1 h).1 (by decide)
        · next hplain => exact absurd ((List.cons_prefix_cons.1 h).1 ▸ rfl) hplain
      · rw [if_neg hstar] at h
        split at h <;> split at h
        · exact List.cons_prefix_cons.1 (List.cons_prefix_cons.1 h).2
        · next hplain => exact absurd ((List.cons_prefix_cons.1 h).1 ▸ rfl) hplain
        · next hplain _ => exact absurd ((List.cons_prefix_cons.1 h).1 ▸ rfl) hplain
        · exact List.cons_prefix_cons.1 h

/-- A character that none of those in front is begins no earlier than behind them. -/
theorem suffix_of_suffix_append {c : Char} {front more rest : List Char} (hc : c ∉ front)
    (h : c :: more <:+ front ++ rest) : c :: more <:+ rest := by
  induction front with
  | nil => exact h
  | cons d front ih =>
    rw [List.mem_cons, not_or] at hc
    rcases List.suffix_cons_iff.1 h with h | h
    · exact absurd (List.cons.inj h).1 hc.1
    · exact ih hc.2 h

/-! ### Domains in expressions -/

theorem isSpecial_of_isDomainChar {c : Char} (h : Host.isDomainChar c = true) (hdot : c ≠ '.') :
    isSpecial c = false :=
  Host.forall_isDomainChar (P := fun c => c ≠ '.' → isSpecial c = false) (by decide +kernel) h hdot

theorem spelled_eq {domain : String} (h : Host.IsDomain domain.toList) :
    spelled domain = domain.toList.flatMap expand := by
  rw [spelled, List.flatMap_def, List.flatMap_def]
  refine congrArg List.flatten (List.map_congr_left fun c hc => ?_)
  exact Host.forall_isDomainChar
    (P := fun c => (if c = '.' then ['\\', '.'] else [c]) = expand c) (by decide +kernel)
    (h.chars c hc).1

variable {excluded : List String} {domain : String} {text front tail literal line : List Char}

/-- A domain is spelled in the expression of a text, whatever its ends are, if and only if
    it is in the text. -/
theorem spelled_infix_iff (h : Host.IsDomain domain.toList)
    (hfront : ∀ c ∈ front, isSpecial c = true ∧ c ≠ '\\')
    (htail : ∀ c ∈ tail, isSpecial c = true ∧ c ≠ '\\') :
    spelled domain <:+: front ++ text.flatMap expand ++ tail ↔ domain.toList <:+: text := by
  rw [spelled_eq h]
  constructor
  · intro hspelled
    obtain ⟨c, more, hdomain⟩ := List.exists_cons_of_ne_nil h.ne_nil
    have hdot : c ≠ '.' := by
      rintro rfl
      exact nomatch h.outer.head '.' (by rw [hdomain]; rfl)
    have hstar : '*' ∉ domain.toList := fun hmem => nomatch (h.chars '*' hmem).1
    have hplain : isSpecial c = false :=
      isSpecial_of_isDomainChar (h.chars c (hdomain ▸ List.mem_cons_self)).1 hdot
    have hnot {ends : List Char} (hends : ∀ e ∈ ends, isSpecial e = true ∧ e ≠ '\\') :
        c ∉ ends := fun hmem => by simp [(hends c hmem).1] at hplain
    -- What the domain begins with means itself, so this is a place in the text.
    obtain ⟨place, hprefix, hsuffix⟩ := List.infix_iff_prefix_suffix.1 hspelled
    have hfirst : domain.toList.flatMap expand = c :: more.flatMap expand := by
      have hexpand : expand c = [c] := by
        have hne : c ≠ '*' := fun heq => hstar (by simp [hdomain, heq])
        rw [expand, if_neg hne, hplain]
        rfl
      rw [hdomain, List.flatMap_cons, hexpand, List.singleton_append]
    obtain ⟨later, rfl⟩ : ∃ later, place = c :: later := by
      rw [hfirst] at hprefix
      obtain ⟨later, rfl⟩ := hprefix
      exact ⟨_, rfl⟩
    rw [List.append_assoc] at hsuffix
    obtain ⟨rest, hrest, hplace⟩ := exists_suffix_of_suffix hplain (hnot htail)
      (suffix_of_suffix_append (hnot hfront) hsuffix)
    rw [hplace] at hprefix
    exact (prefix_of_prefix_flatMap hstar htail hprefix).isInfix.trans hrest.isInfix
  · rintro ⟨before, after, rfl⟩
    exact ⟨front ++ before.flatMap expand, after.flatMap expand ++ tail, by simp⟩

/-- The ends of an expression have no letters, so they are the same in small letters. -/
theorem lowerAscii_urlPatternChars (literal : List Char) (anchoring : Anchoring) (right : Bool) :
    lowerAscii (urlPatternChars literal anchoring right) =
      (if anchoring = .left then ['^'] else anything) ++ (lowerAscii literal).flatMap expand ++
        (if right then ['$'] else anything) := by
  have hfront : lowerAscii (if anchoring = .left then ['^'] else anything) =
      if anchoring = .left then ['^'] else anything := by
    split <;> decide
  have htail : lowerAscii (if right then ['$'] else anything) =
      if right then ['$'] else anything := by
    split <;> decide
  rw [urlPatternChars, joinWith_escape, lowerAscii, List.map_append, List.map_append,
    ← lowerAscii, ← lowerAscii, ← lowerAscii, hfront, htail, lowerAscii_flatMap_expand]

/-- A text names an excluded domain if and only if its expression spells one. -/
theorem namesExcluded_iff (h : ∀ d ∈ excluded, Host.IsDomain d.toList) (anchoring : Anchoring)
    (right : Bool) : namesExcluded excluded literal = true ↔
      ∃ d ∈ excluded, spelled d <:+: lowerAscii (urlPattern literal anchoring right).toList := by
  rw [namesExcluded, List.any_eq_true, urlPattern, String.toList_ofList, lowerAscii_urlPatternChars]
  refine exists_congr fun d => and_congr_right fun hd => ?_
  rw [occursIn_iff, spelled_infix_iff (h d hd)]
  · split <;> simp [anything, isSpecial]
  · split <;> simp [anything, isSpecial]

/-! ### Lines -/

variable {r : Rule}

theorem networkRule?_iff (h : ∀ d ∈ excluded, Host.IsDomain d.toList) :
    networkRule? excluded line = some r ↔
      networkRule? [] line = some r ∧ ∀ d ∈ excluded, ¬ r.Spells d := by
  simp only [networkRule?]
  generalize Anchored.ofPattern (trim (splitModifiers line).1) = p
  have hnames : namesExcluded excluded p.literal = true ↔ _ :=
    namesExcluded_iff h p.anchoring p.right
  have hnone : namesExcluded [] p.literal = false := rfl
  rw [hnone, Bool.or_false]
  cases p.literal.all (· == '*') with
  | true => simp
  | false =>
    rw [Bool.false_or, if_neg Bool.false_ne_true]
    split
    · next hnamed =>
      -- The rule that it would have been spells a domain.
      obtain ⟨d, hd, hspelled⟩ := hnames.1 hnamed
      refine iff_of_false (by simp) ?_
      rintro ⟨hr, hfree⟩
      obtain rfl := Option.some.inj hr
      exact hfree d hd hspelled
    · next hnamed =>
      refine (and_iff_left_of_imp fun hr d hd hspelled => ?_).symm
      obtain rfl := Option.some.inj hr
      exact hnamed (hnames.2 ⟨d, hd, hspelled⟩)

/-- The rule hides elements, or its pattern spells none of the domains. -/
def Stays (excluded : List String) (r : Rule) : Prop :=
  (∃ selector, r.action = .hide selector) ∨ ∀ d ∈ excluded, ¬ r.Spells d

theorem action_of_cosmeticRule? {domains selector : List Char}
    (h : cosmeticRule? domains selector = some r) : ∃ selector, r.action = .hide selector := by
  rw [cosmeticRule?] at h
  split at h
  · cases h
  · obtain rfl := Option.some.inj h
    exact ⟨_, rfl⟩

theorem action_of_networkRule? (h : networkRule? excluded line = some r) : r.action = .block := by
  simp only [networkRule?] at h
  split at h
  · cases h
  · obtain rfl := Option.some.inj h
    rfl

/-- The rule of a line hides elements or blocks requests. -/
theorem action_of_ruleOfLine? (h : ruleOfLine? excluded line = some r) :
    (∃ selector, r.action = .hide selector) ∨ r.action = .block := by
  rcases cosmetic_or_network h with ⟨domains, selector, h⟩ | ⟨line, h⟩
  · exact .inl (action_of_cosmeticRule? h)
  · exact .inr (action_of_networkRule? h)

theorem stays_iff_of_block (h : r.action = .block) :
    Stays excluded r ↔ ∀ d ∈ excluded, ¬ r.Spells d := by
  simp [Stays, h]

theorem ruleOfTrimmed?_iff (h : ∀ d ∈ excluded, Host.IsDomain d.toList) :
    ruleOfTrimmed? excluded line = some r ↔
      ruleOfTrimmed? [] line = some r ∧ Stays excluded r := by
  rw [ruleOfTrimmed?, ruleOfTrimmed?]
  split
  · simp
  · split
    · exact (and_iff_left_of_imp fun hr => .inl (action_of_cosmeticRule? hr)).symm
    · split
      · simp
      · rw [networkRule?_iff h]
        exact and_congr_right fun hr => (stays_iff_of_block (action_of_networkRule? hr)).symm

/-- What a line gives when domains are excluded. -/
theorem ruleOfLine?_iff (h : ∀ d ∈ excluded, Host.IsDomain d.toList) :
    ruleOfLine? excluded line = some r ↔ ruleOfLine? [] line = some r ∧ Stays excluded r := by
  rw [ruleOfLine?, ruleOfLine?]
  split
  · simp
  · exact ruleOfTrimmed?_iff h

/-- A rule that no line loses is still found when other rules are left out, since these only
    leave more room for it. -/
theorem mem_parseLines_of_kept {excluded' : List String} (hsub : excluded ⊆ excluded')
    (hkept : ∀ line, ruleOfLine? excluded line = some r → ruleOfLine? excluded' line = some r)
    {room room' : Nat} (hle : room ≤ room') {lines : List (List Char)}
    (h : r ∈ (parseLines excluded room lines).rules) :
    r ∈ (parseLines excluded' room' lines).rules := by
  induction room, lines using parseLines.induct excluded generalizing room' with
  | case1 => simp [parseLines] at h
  | case2 => simp [parseLines] at h
  | case3 room line rest hs ih =>
    obtain ⟨room', rfl⟩ := Nat.exists_eq_add_one_of_ne_zero (Nat.ne_zero_of_lt hle)
    rw [parseLines, if_pos hs] at h ⊢
    exact ih hle h
  | case4 room line rest hs rule hr ih =>
    obtain ⟨room', rfl⟩ := Nat.exists_eq_add_one_of_ne_zero (Nat.ne_zero_of_lt hle)
    rw [parseLines, if_neg hs, hr] at h
    rw [parseLines, if_neg hs]
    rcases List.mem_cons.1 h with rfl | h
    · rw [hkept line hr]
      exact List.mem_cons_self
    · cases hr' : ruleOfLine? excluded' line with
      | none => exact ih (Nat.le_of_succ_le hle) h
      | some rule' => exact List.mem_cons_of_mem _ (ih (Nat.le_of_succ_le_succ hle) h)
  | case5 room line rest hs hr ih =>
    obtain ⟨room', rfl⟩ := Nat.exists_eq_add_one_of_ne_zero (Nat.ne_zero_of_lt hle)
    rw [parseLines, if_neg hs, hr] at h
    have hr' : ruleOfLine? excluded' line = none := by
      rw [Option.eq_none_iff_forall_not_mem]
      intro rule hrule
      cases hr.symm.trans (ruleOfLine?_of_subset hsub hrule)
    rw [parseLines, if_neg hs, hr']
    exact ih hle h

end FilterText

/-! ### Collections -/

namespace RuleCollection

open FilterText (Stays ruleOfLine? ruleOfLine?_iff)

variable {options : CompileOptions} {lists : List ListText} {excluded : List String} {r : Rule}

theorem mem_doingRules : r ∈ doingRules options excluded lists ↔
    r ∈ Builtin.rules excluded ∨ r ∈ availableRules options excluded lists :=
  mem_append_newRules

theorem exists_line_of_mem_doingRules (h : r ∈ doingRules options excluded lists) :
    ∃ line, ruleOfLine? excluded line = some r := by
  rcases mem_doingRules.1 h with h | h
  · obtain ⟨line, -, hline⟩ := List.mem_filterMap.1 h
    exact ⟨_, hline⟩
  · rw [← listRules_eq] at h
    exact exists_line_of_mem_listRules h

/-- A rule that no line loses is in the collection that is compiled with the excluded
    domains. -/
theorem mem_doingRules_of_kept
    (hkept : ∀ line, ruleOfLine? [] line = some r → ruleOfLine? excluded line = some r)
    (h : r ∈ doingRules options [] lists) : r ∈ doingRules options excluded lists := by
  refine mem_doingRules.2 ((mem_doingRules.1 h).imp (fun h => ?_) fun h => ?_)
  · obtain ⟨line, hline, hr⟩ := List.mem_filterMap.1 h
    exact List.mem_filterMap.2 ⟨line, hline, hkept _ hr⟩
  · obtain ⟨text, htext, hr⟩ := List.mem_flatMap.1 h
    exact List.mem_flatMap.2 ⟨text, htext,
      FilterText.mem_parseLines_of_kept (List.nil_subset _) hkept (Nat.le_refl _) hr⟩

theorem mem_compile : r ∈ (compile options lists excluded).rules ↔
    r ∈ doingRules options excluded lists ∨
      r ∈ whitelistRules options excluded ++ Builtin.exceptions := by
  rw [rules_compile, List.append_assoc, List.mem_append, doingRules]

/-- Whatever domains are excluded, a line has a rule if and only if it has that rule without
    them and the rule hides elements or its pattern spells none of them. So no rule of a
    collection blocks with a pattern that spells one of them, and whatever else is in the
    collection without them is still there. -/
theorem exclusion_drops_spelled {excluded : List String}
    (h : ∀ d ∈ excluded, ∃ entry, Whitelist.domainOf entry = .ok d) :
    (∀ line r, ruleOfLine? excluded line = some r ↔ ruleOfLine? [] line = some r ∧
      ((∃ selector, r.action = .hide selector) ∨ ∀ d ∈ excluded, ¬ r.Spells d)) ∧
    ∀ options lists,
      (∀ r ∈ (compile options lists excluded).rules, r.action = .block →
        ∀ d ∈ excluded, ¬ r.Spells d) ∧
      ∀ r ∈ (compile options lists []).rules, r ∉ (compile options lists excluded).rules →
        r.action = .block ∧ ∃ d ∈ excluded, r.Spells d := by
  have hdomain : ∀ d ∈ excluded, Host.IsDomain d.toList := fun d hd => by
    obtain ⟨entry, hentry⟩ := h d hd
    exact (Whitelist.isListed_of_domainOf hentry).isDomain
  have hline : ∀ line r, ruleOfLine? excluded line = some r ↔
      ruleOfLine? [] line = some r ∧ Stays excluded r := fun line r => ruleOfLine?_iff hdomain
  refine ⟨hline, fun options lists => ⟨fun r hr hblock => ?_, fun r hr hlost => ?_⟩⟩
  · rcases mem_compile.1 hr with hr | hr
    · obtain ⟨line, hr⟩ := exists_line_of_mem_doingRules hr
      exact (FilterText.stays_iff_of_block hblock).1 ((hline line r).1 hr).2
    · have hexception := isException_of_mem_exceptions hr
      simp [Rule.isException, hblock] at hexception
  · rcases mem_compile.1 hr with hdoing | hr
    · have hnot : ¬ Stays excluded r := fun hstays => hlost <| mem_compile.2 <| .inl <|
        mem_doingRules_of_kept (fun line hr => (hline line r).2 ⟨hr, hstays⟩) hdoing
      rw [Stays, not_or] at hnot
      obtain ⟨line, hr⟩ := exists_line_of_mem_doingRules hdoing
      refine ⟨(FilterText.action_of_ruleOfLine? hr).resolve_left hnot.1, ?_⟩
      simpa using hnot.2
    · -- The exceptions only become more.
      refine absurd (mem_compile.2 (.inr ?_)) hlost
      rw [List.mem_append] at hr ⊢
      exact hr.imp_left fun hr => whitelistRules_subset (List.nil_subset _) hr

/-- The list has a line that names the domain in capital letters, and one that only
    matches it. -/
theorem exclusion_drops_spelled_capitals :
    let lists : List ListText := [⟨"list", some "||ads.EXAMPLE.com^\n||example*com/ads"⟩]
    let naming : Rule := ⟨{ urlPattern := ".*ads\\.EXAMPLE\\.com\\^.*" }, .block⟩
    let matching : Rule := ⟨{ urlPattern := ".*example.*com/ads.*" }, .block⟩
    Whitelist.domainOf "https://www.example.com/" = .ok "example.com" ∧
      naming ∈ (compile {} lists []).rules ∧ naming ∉ (compile {} lists ["example.com"]).rules ∧
      matching ∈ (compile {} lists []).rules ∧
        matching ∈ (compile {} lists ["example.com"]).rules := by
  intro lists naming matching
  have hentry : Whitelist.domainOf "https://www.example.com/" = .ok "example.com" := by
    decide +kernel
  have hfound : ∀ r ∈ [naming, matching], r ∈ (compile {} lists []).rules := fun r hr =>
    mem_compile.2 (.inl (mem_doingRules.2 (.inr
      ((by decide +kernel : ∀ r ∈ [naming, matching], r ∈ availableRules {} [] lists) r hr))))
  have hspelled : naming.Spells "example.com" ∧ ¬ matching.Spells "example.com" := by decide +kernel
  have hexcluded : ∀ d ∈ ["example.com"], ∃ entry, Whitelist.domainOf entry = .ok d :=
    List.forall_mem_singleton.2 ⟨_, hentry⟩
  obtain ⟨-, hcompile⟩ := exclusion_drops_spelled hexcluded
  obtain ⟨hfree, hlost⟩ := hcompile {} lists
  refine ⟨hentry, hfound _ (by simp), fun hnaming => ?_, hfound _ (by simp), ?_⟩
  · exact hfree naming hnaming rfl _ (List.mem_singleton_self _) hspelled.1
  · by_contra hmatching
    obtain ⟨-, d, hd, hspells⟩ := hlost matching (hfound _ (by simp)) hmatching
    rw [List.mem_singleton.1 hd] at hspells
    exact hspelled.2 hspells

end RuleCollection

end ContentBlocking
