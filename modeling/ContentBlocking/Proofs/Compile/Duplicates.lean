import ContentBlocking.Compile.Distinct
import ContentBlocking.Proofs.Effects
import Mathlib.Data.List.DropRight

/-!
# What removing duplicates does to verdicts

The last exception that applies to a request splits the rules: up to it they are
cancelled, and those behind it stand. If duplicates are removed, the rules that stand are
the standing ones without those that have a copy among the cancelled ones, for that copy
is the one that is kept. So no more is done then, and the same is done if every rule that
is lost in this way has another one standing beside it that does the same. A request to
which no exception applies has no cancelled rules.

* `Matcher.does_verdict_append_iff`: what is done is what the standing rules do;
* `mem_distinctFrom`, `distinctFrom_append`: which rules are left, also in parts of the
  collection;
* `distinct_sameEffect_iff`: when removing duplicates changes no verdict;
* `not_forall_distinct_sameEffect`: a rule that is repeated behind an exception is lost.
-/

namespace ContentBlocking

/-! ### Rules that stand and rules that are cancelled -/

/-- The rules behind the last exception that applies to the request. -/
def standing (q : Request) (rules : List Rule) (P : Type := Regex) [PatternLanguage P] :
    List Rule :=
  rules.rtakeWhile fun r => !r.cancels q P

/-- The rules up to the last exception that applies to the request, and that exception. -/
def cancelled (q : Request) (rules : List Rule) (P : Type := Regex) [PatternLanguage P] :
    List Rule :=
  rules.rdropWhile fun r => !r.cancels q P

/-- There are no rules, or the last one cancels all others. -/
def EndsCancelling (q : Request) (rules : List Rule) (P : Type := Regex) [PatternLanguage P] :
    Prop :=
  ∀ r ∈ rules.getLast?, r.cancels q P = true

variable {P : Type} [PatternLanguage P] {q : Request} {rules : List Rule}

theorem cancelled_append_standing (q : Request) (rules : List Rule) :
    cancelled q rules P ++ standing q rules P = rules :=
  List.rdropWhile_append_rtakeWhile

theorem cancels_of_mem_standing {r : Rule} (h : r ∈ standing q rules P) :
    r.cancels q P = false := by
  simpa using List.mem_rtakeWhile_imp h

theorem endsCancelling_cancelled (q : Request) (rules : List Rule) :
    EndsCancelling q (cancelled q rules P) P := by
  intro r hr
  obtain ⟨hne, rfl⟩ := List.mem_getLast?_eq_getLast hr
  have hlast := List.rdropWhile_last_not _ rules hne
  rwa [Bool.not_eq_true', Bool.not_eq_false] at hlast

/-- A rule that applies and stands behind the last exception that does is none itself. -/
theorem isException_of_mem_standing {r : Rule} (h : r ∈ standing q rules P)
    (happlies : (CompiledRule.ofRule r : CompiledRule P).applies q = true) :
    r.isException = false := by
  simpa [Rule.cancels, happlies] using cancels_of_mem_standing h

namespace Matcher

theorem agrees_empty_of_endsCancelling (h : EndsCancelling q rules P) (i : Nat) :
    (verdictFrom q i {} (rules.map (.ofRule : Rule → CompiledRule P))).Agrees {} := by
  rcases rules.eq_nil_or_concat with rfl | ⟨before, r, rfl⟩
  · exact .refl {}
  · obtain ⟨hexception, happlies⟩ := Bool.and_eq_true_iff.1 (h r (by simp))
    have haction : r.action = .ignorePrevious := beq_iff_eq.1 hexception
    rw [List.concat_eq_append, List.map_append, verdictFrom_append, List.map_singleton, verdictFrom,
      if_pos happlies]
    exact haction ▸ ⟨rfl, rfl, rfl⟩

/-- Of rules that are split behind the last exception that applies, those behind it decide
    what is done. -/
theorem does_verdict_append_iff {before after : List Rule} (hbefore : EndsCancelling q before P)
    (hafter : ∀ r ∈ after, r.cancels q P = false) (a : Action) :
    (verdict (⟨(before ++ after).map .ofRule⟩ : Matcher P) q).Does a ↔ AnyDoes after q a P := by
  have hnothing := (agrees_empty_of_endsCancelling hbefore 0).does_iff a
  rw [verdict, List.map_append, verdictFrom_append, does_verdictFrom_iff hafter, hnothing,
    or_iff_right (Verdict.not_does_empty a)]

end Matcher

/-! ### Which rules are left -/

/-- Which exceptions have been seen does not matter. -/
theorem distinctFrom_congr {seen seen' : List Rule}
    (h : ∀ r : Rule, r.isException = false → (r ∈ seen ↔ r ∈ seen')) (rules : List Rule) :
    distinctFrom seen rules = distinctFrom seen' rules := by
  induction rules generalizing seen seen' with
  | nil => rfl
  | cons r rules ih =>
    rw [distinctFrom, distinctFrom, ih h]
    cases hr : r.isException with
    | true => rfl
    | false =>
      have hcons : distinctFrom (r :: seen) rules = distinctFrom (r :: seen') rules :=
        ih fun r' hr' => by rw [List.mem_cons, List.mem_cons, h r' hr']
      simp only [h r hr, hcons]

/-- The second of two parts of a collection loses the rules that are in the first. -/
theorem distinctFrom_append (seen rules rest : List Rule) :
    distinctFrom seen (rules ++ rest) =
      distinctFrom seen rules ++ distinctFrom (rules ++ seen) rest := by
  induction rules generalizing seen with
  | nil => rfl
  | cons r rules ih =>
    rw [List.cons_append, distinctFrom, distinctFrom, ih, ih]
    cases hr : r.isException with
    | true =>
      -- The exception is not looked for in the second part.
      refine congrArg (r :: distinctFrom seen rules ++ ·) (distinctFrom_congr ?_ rest)
      intro r' hr'
      have hne : r' ≠ r := fun h => by simp [h, hr] at hr'
      simp [hne]
    | false =>
      by_cases hseen : r ∈ seen
      · have hrest : distinctFrom (rules ++ seen) rest = distinctFrom (r :: rules ++ seen) rest :=
          by
          refine distinctFrom_congr (fun r' _ => ?_) rest
          have hsame : r' = r → r' ∈ rules ++ seen := fun h => List.mem_append_right _ (h ▸ hseen)
          rw [List.cons_append, List.mem_cons, or_iff_right_of_imp hsame]
        simp [hseen, hrest]
      · have hrest : distinctFrom (rules ++ r :: seen) rest =
            distinctFrom (r :: rules ++ seen) rest :=
          distinctFrom_congr (fun r' _ => by simp [or_left_comm]) rest
        simp [hseen, hrest]

/-- A rule is left if it is an exception or has not been seen. -/
theorem mem_distinctFrom {seen rules : List Rule} {r : Rule} :
    r ∈ distinctFrom seen rules ↔ r ∈ rules ∧ (r.isException = true ∨ r ∉ seen) := by
  induction rules generalizing seen with
  | nil => simp [distinctFrom]
  | cons r' rules ih =>
    rw [distinctFrom]
    by_cases heq : r = r'
    · subst heq
      cases hr : r.isException <;> by_cases hseen : r ∈ seen <;> simp [ih, hr, hseen]
    · split
      · simp [ih, heq]
      · split <;> simp [ih, heq]

/-- Exceptions stay, so what ended with one that applies still does. -/
theorem EndsCancelling.distinctRules (h : EndsCancelling q rules P) :
    EndsCancelling q (distinctRules rules) P := by
  rcases rules.eq_nil_or_concat with rfl | ⟨before, r, rfl⟩
  · exact h
  · have hcancels : r.cancels q P = true := h r (by simp)
    have hexception := (Bool.and_eq_true_iff.1 hcancels).1
    have hlast : ContentBlocking.distinctRules (before ++ [r]) =
        ContentBlocking.distinctRules before ++ [r] := by
      rw [ContentBlocking.distinctRules, distinctFrom_append, distinctFrom, if_pos hexception]
      rfl
    rw [List.concat_eq_append, hlast]
    intro r' hr'
    rw [List.getLast?_concat] at hr'
    obtain rfl := Option.some.inj hr'
    exact hcancels

/-! ### Verdicts without duplicates -/

theorem does_verdict_iff_standing (q : Request) (rules : List Rule) (a : Action) :
    (Matcher.verdict (⟨rules.map .ofRule⟩ : Matcher P) q).Does a ↔
      AnyDoes (standing q rules P) q a P := by
  conv_lhs => rw [← cancelled_append_standing (P := P) q rules]
  exact Matcher.does_verdict_append_iff (endsCancelling_cancelled q rules)
    (fun _ => cancels_of_mem_standing) a

/-- Without duplicates what is done is what a standing rule does that has no copy among the
    cancelled ones. -/
theorem does_verdict_distinctRules_iff (q : Request) (rules : List Rule) (a : Action) :
    (Matcher.verdict (⟨(distinctRules rules).map .ofRule⟩ : Matcher P) q).Does a ↔
      ∃ r ∈ standing q rules P, (CompiledRule.ofRule r : CompiledRule P).applies q = true ∧
        r.action = a ∧ r ∉ cancelled q rules P := by
  have hsplit : distinctRules rules = distinctRules (cancelled q rules P) ++
      distinctFrom (cancelled q rules P) (standing q rules P) := by
    conv_lhs => rw [← cancelled_append_standing (P := P) q rules]
    rw [distinctRules, distinctFrom_append, List.append_nil, distinctRules]
  rw [hsplit, Matcher.does_verdict_append_iff (endsCancelling_cancelled q rules).distinctRules
    fun r hr => cancels_of_mem_standing (mem_distinctFrom.1 hr).1]
  constructor
  · rintro ⟨r, hr, happlies, haction⟩
    obtain ⟨hstands, hleft⟩ := mem_distinctFrom.1 hr
    have hplain := isException_of_mem_standing hstands happlies
    exact ⟨r, hstands, happlies, haction, hleft.resolve_left (by simp [hplain])⟩
  · rintro ⟨r, hstands, happlies, haction, hnot⟩
    exact ⟨r, mem_distinctFrom.2 ⟨hstands, .inr hnot⟩, happlies, haction⟩

/-- In any language of patterns, a collection of well-formed ones has a matcher with its
    duplicates and without them. Without them it does nothing to a request that it does not do with
    them, and it does the same if and only if every rule that applies behind the last
    exception that does, and has a copy before that exception, has a rule without such a
    copy beside it that applies and does the same. -/
theorem distinct_sameEffect_iff {rules : List Rule} (h : ∀ r ∈ rules, r.Compiles P) :
    ∃ m m' : Matcher P, Matcher.ofRules rules = .ok m ∧
      Matcher.ofRules (distinctRules rules) = .ok m' ∧
      ∀ q, (∀ a, (m'.verdict q).Does a → (m.verdict q).Does a) ∧
        ((m'.verdict q).SameEffect (m.verdict q) ↔
          ∀ r ∈ standing q rules P, (CompiledRule.ofRule r : CompiledRule P).applies q = true →
            r ∈ cancelled q rules P → ∃ r' ∈ standing q rules P,
              (CompiledRule.ofRule r' : CompiledRule P).applies q = true ∧ r'.action = r.action ∧
                r' ∉ cancelled q rules P) := by
  have hdistinct : ∀ r ∈ distinctRules rules, r.Compiles P := fun r hr =>
    h r ((distinctFrom_sublist _ _).subset hr)
  refine ⟨_, _, Matcher.ofRules_eq_ok h, Matcher.ofRules_eq_ok hdistinct, fun q => ?_⟩
  have hless : ∀ a, (Matcher.verdict (⟨(distinctRules rules).map .ofRule⟩ : Matcher P) q).Does a →
      (Matcher.verdict (⟨rules.map .ofRule⟩ : Matcher P) q).Does a := by
    intro a hdoes
    obtain ⟨r, hstands, happlies, haction, -⟩ := (does_verdict_distinctRules_iff q rules a).1 hdoes
    exact (does_verdict_iff_standing q rules a).2 ⟨r, hstands, happlies, haction⟩
  refine ⟨hless, Verdict.sameEffect_iff.trans ⟨fun hsame r hstands happlies _ => ?_,
    fun hbeside a => ⟨hless a, fun hdoes => ?_⟩⟩⟩
  · -- What the rule does is still done, and so by a rule that is left.
    have hdoes := (does_verdict_iff_standing q rules r.action).2 ⟨r, hstands, happlies, rfl⟩
    exact (does_verdict_distinctRules_iff q rules r.action).1 ((hsame r.action).2 hdoes)
  · obtain ⟨r, hstands, happlies, rfl⟩ := (does_verdict_iff_standing q rules a).1 hdoes
    refine (does_verdict_distinctRules_iff q rules r.action).2 ?_
    by_cases hcopy : r ∈ cancelled q rules P
    · exact hbeside r hstands happlies hcopy
    · exact ⟨r, hstands, happlies, rfl, hcopy⟩

/-- The second copy of the blocking rule is lost behind the exception, but another rule
    there blocks the request too. -/
theorem distinct_sameEffect_beside :
    let block : Rule := ⟨{ urlPattern := "ads" }, .block⟩
    let other : Rule := ⟨{ urlPattern := "pixel" }, .block⟩
    let rules : List Rule := [block, .exceptionFor "ads", block, other]
    let q : Request := ⟨"https://ads.net/pixel.gif", "shop.org", ∅⟩
    (∀ r ∈ rules, r.Compiles) ∧ distinctRules rules = [block, .exceptionFor "ads", other] ∧
      ∃ m m', Matcher.ofRules rules = .ok m ∧ Matcher.ofRules (distinctRules rules) = .ok m' ∧
        (m'.verdict q).SameEffect (m.verdict q) := by
  intro block other rules q
  have hcompiles : ∀ r ∈ rules, r.Compiles := by decide +kernel
  obtain ⟨m, m', hm, hm', hverdicts⟩ := distinct_sameEffect_iff hcompiles
  refine ⟨hcompiles, by decide +kernel, m, m', hm, hm', (hverdicts q).2.2 fun r hr _ hcopy => ?_⟩
  have hother : other ∈ standing q rules ∧ (CompiledRule.ofRule other).applies q = true ∧
      other ∉ cancelled q rules := by
    decide +kernel
  have hblock : ∀ r ∈ standing q rules, r.action = .block := by decide +kernel
  exact ⟨other, hother.1, hother.2.1, (hblock r hr).symm, hother.2.2⟩

/-- Removing duplicates can change a verdict: a rule blocks what an exception before it
    has let pass, and is dropped as a copy of a rule that the exception cancels. -/
theorem not_forall_distinct_sameEffect :
    ¬ ∀ rules : List Rule, (∀ r ∈ rules, r.Compiles) → ∀ m m', Matcher.ofRules rules = .ok m →
      Matcher.ofRules (distinctRules rules) = .ok m' →
        ∀ q, (m'.verdict q).SameEffect (m.verdict q) := by
  intro hall
  let block : Rule := ⟨{ urlPattern := "ads" }, .block⟩
  let rules : List Rule := [block, .exceptionFor "ads", block]
  let q : Request := ⟨"https://ads.net/pixel.gif", "shop.org", ∅⟩
  have hcompiles : ∀ r ∈ rules, r.Compiles := by decide +kernel
  have hdistinct : ∀ r ∈ distinctRules rules, r.Compiles := by decide +kernel
  have hsame := hall rules hcompiles _ _ (Matcher.ofRules_eq_ok hcompiles)
    (Matcher.ofRules_eq_ok hdistinct) q
  exact absurd hsame.decision (by decide +kernel)

end ContentBlocking
