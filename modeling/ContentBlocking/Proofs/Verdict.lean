import ContentBlocking.Engine
import ContentBlocking.Proofs.Regex.Search
import Mathlib.Data.List.Basic

/-!
# Verdicts of collections

The verdict on a request is built up rule by rule, and apart from the place of
the deciding rule it does not depend on where the rules stand. Rules that are no
exceptions only ever add to it; an exception that applies leaves nothing of what
was there before.

* `ofRules_eq_ok`: a collection has a matcher if all its patterns are
  well-formed;
* `agrees_combine_verdictFrom`: what rules without exceptions say is added to
  the verdict so far;
* `agrees_empty_of_exists`: among exceptions alone, one that applies leaves the
  empty verdict;
* `agrees_of_forall_block`: rules that block do nothing else;
* `foldl_combine_agrees`: runs of rules, each followed by the same exceptions,
  say together what all of them say in a row.
-/

namespace ContentBlocking

/-! ### Rules and their expressions -/

/-- The pattern of the rule is well-formed. -/
def Rule.Compiles (r : Rule) (P : Type := Regex) [PatternLanguage P] : Prop :=
  (compile? r.trigger.urlPattern : Option P).isSome = true

instance (r : Rule) (P : Type) [PatternLanguage P] : Decidable (r.Compiles P) :=
  inferInstanceAs (Decidable (_ = true))

/-- The engine takes the rule: it has a pattern, which is well-formed. -/
structure Rule.IsGood (r : Rule) (P : Type := Regex) [PatternLanguage P] : Prop where
  nonempty : r.trigger.urlPattern ≠ ""
  compiles : r.Compiles P

instance (r : Rule) (P : Type) [PatternLanguage P] : Decidable (r.IsGood P) :=
  decidable_of_iff (r.trigger.urlPattern ≠ "" ∧ r.Compiles P)
    ⟨fun h => ⟨h.1, h.2⟩, fun h => ⟨h.nonempty, h.compiles⟩⟩

variable {P : Type} [PatternLanguage P]

/-- The rule with its expression, if the pattern is well-formed. -/
def CompiledRule.ofRule (r : Rule) : CompiledRule P :=
  ⟨r, (compile? r.trigger.urlPattern).getD default⟩

theorem CompiledRule.applies_ofRule {r : Rule} {pattern : P}
    (h : compile? r.trigger.urlPattern = some pattern) (q : Request) :
    (ofRule r : CompiledRule P).applies q = (r.trigger.admits q && finds pattern q.url) := by
  rw [applies, ofRule, h]
  rfl

/-- A regular expression is found where it occurs. -/
theorem finds_iff_occurs (r : Regex) (text : String) : finds r text = true ↔ r.Occurs text.toList :=
  r.search_iff_occurs text.toList

theorem CompiledRule.isException_of_mem_map (rules : List Rule) :
    ∀ r ∈ (rules.filter Rule.isException).map (CompiledRule.ofRule : Rule → CompiledRule P),
      r.rule.isException = true := by
  intro r hr
  obtain ⟨r, hmem, rfl⟩ := List.mem_map.1 hr
  exact List.of_mem_filter hmem

namespace Matcher

theorem compileFrom_eq_ok {rules : List Rule} (index : Nat) (h : ∀ r ∈ rules, r.Compiles P) :
    compileFrom index rules = .ok (rules.map (.ofRule : Rule → CompiledRule P)) := by
  induction rules generalizing index with
  | nil => rfl
  | cons r rules ih =>
    obtain ⟨pattern, hp⟩ := Option.isSome_iff_exists.1 (h r List.mem_cons_self)
    rw [compileFrom, hp, ih (index + 1) fun r' hr' => h r' (List.mem_cons_of_mem _ hr'),
      List.map_cons, CompiledRule.ofRule, hp]
    rfl

/-- A collection of rules with well-formed patterns has a matcher. -/
theorem ofRules_eq_ok {rules : List Rule} (h : ∀ r ∈ rules, r.Compiles P) :
    ofRules rules = .ok (⟨rules.map .ofRule⟩ : Matcher P) := by
  rw [ofRules, compileFrom_eq_ok 0 h]
  rfl

end Matcher

/-! ### Verdicts up to the place of the rule -/

/-- The verdicts have the same effect on the request. They may name different
    places, since those depend on what else is in the collection. -/
structure Verdict.Agrees (v w : Verdict) : Prop where
  decision : v.decision = w.decision
  hidden : v.hidden = w.hidden
  https : v.https = w.https

namespace Verdict

variable {v v' w w' u : Verdict}

theorem Agrees.refl (v : Verdict) : v.Agrees v := ⟨rfl, rfl, rfl⟩

theorem Agrees.symm (h : v.Agrees w) : w.Agrees v :=
  ⟨h.decision.symm, h.hidden.symm, h.https.symm⟩

theorem Agrees.trans (h : v.Agrees w) (h' : w.Agrees u) : v.Agrees u :=
  ⟨h.decision.trans h'.decision, h.hidden.trans h'.hidden, h.https.trans h'.https⟩

theorem Agrees.combine (h : v.Agrees v') (h' : w.Agrees w') :
    (Engine.combine v w).Agrees (Engine.combine v' w') where
  decision := by simp only [Engine.combine, h.decision, h'.decision]
  hidden := by simp only [Engine.combine, h.hidden, h'.hidden]
  https := by simp only [Engine.combine, h.https, h'.https]

theorem agrees_combine_empty (v : Verdict) : (Engine.combine v {}).Agrees v where
  decision := rfl
  hidden := List.append_nil _
  https := Bool.or_false _

theorem agrees_combine_assoc (v w u : Verdict) :
    (Engine.combine (Engine.combine v w) u).Agrees (Engine.combine v (Engine.combine w u)) where
  decision := by cases h : u.decision <;> simp [Engine.combine, h]
  hidden := List.append_assoc _ _ _
  https := Bool.or_assoc _ _ _

/-- An action that cancels nothing adds to the verdict what it does alone. -/
theorem next_agrees_combine (v : Verdict) (i j : Nat) {a : Action} (ha : a ≠ .ignorePrevious) :
    (v.next i a).Agrees (Engine.combine v (({} : Verdict).next j a)) := by
  cases a with
  | block => exact ⟨rfl, (List.append_nil _).symm, (Bool.or_false _).symm⟩
  | hide selector => exact ⟨rfl, rfl, (Bool.or_false _).symm⟩
  | ignorePrevious => exact absurd rfl ha
  | makeHttps => exact ⟨rfl, (List.append_nil _).symm, (Bool.or_true _).symm⟩

end Verdict

/-! ### Verdicts of rules in a row -/

namespace Matcher

variable {q : Request} {v w : Verdict}

theorem verdictFrom_append (i : Nat) (rules rest : List (CompiledRule P)) :
    verdictFrom q i v (rules ++ rest) =
      verdictFrom q (i + rules.length) (verdictFrom q i v rules) rest := by
  induction rules generalizing i v with
  | nil => rfl
  | cons r rules ih =>
    rw [List.cons_append, verdictFrom, ih, verdictFrom, List.length_cons, Nat.add_right_comm,
      Nat.add_assoc i]

/-- Rules that do not apply change nothing. -/
theorem verdictFrom_of_forall_not {rules : List (CompiledRule P)} (i : Nat)
    (h : ∀ r ∈ rules, r.applies q = false) : verdictFrom q i v rules = v := by
  induction rules generalizing i with
  | nil => rfl
  | cons r rules ih =>
    rw [verdictFrom, h r List.mem_cons_self, if_neg Bool.false_ne_true]
    exact ih _ fun r' hr' => h r' (List.mem_cons_of_mem _ hr')

/-- Exceptions leave nothing of an empty verdict but the place of the last
    one. -/
theorem agrees_empty_of_isException {rules : List (CompiledRule P)} (i : Nat)
    (hx : ∀ r ∈ rules, r.rule.isException = true) (hv : v.Agrees {}) :
    (verdictFrom q i v rules).Agrees {} := by
  induction rules generalizing i v with
  | nil => exact hv
  | cons r rules ih =>
    have hr : r.rule.action = .ignorePrevious := beq_iff_eq.1 (hx r List.mem_cons_self)
    rw [verdictFrom]
    refine ih _ (fun r' hr' => hx r' (List.mem_cons_of_mem _ hr')) ?_
    split
    · rw [hr]
      exact ⟨rfl, rfl, rfl⟩
    · exact hv

/-- Among exceptions alone, one that applies leaves nothing of the verdict. -/
theorem agrees_empty_of_exists {rules : List (CompiledRule P)} (i : Nat)
    (hx : ∀ r ∈ rules, r.rule.isException = true) (h : ∃ r ∈ rules, r.applies q = true) :
    (verdictFrom q i v rules).Agrees {} := by
  induction rules generalizing i v with
  | nil =>
    obtain ⟨r, hr, -⟩ := h
    exact absurd hr List.not_mem_nil
  | cons r rules ih =>
    have hrest := fun r' hr' => hx r' (List.mem_cons_of_mem r hr')
    rw [verdictFrom]
    by_cases hr : r.applies q = true
    · -- It leaves nothing of what was there, and those after it add nothing.
      have haction : r.rule.action = .ignorePrevious := beq_iff_eq.1 (hx r List.mem_cons_self)
      rw [if_pos hr, haction]
      exact agrees_empty_of_isException _ hrest ⟨rfl, rfl, rfl⟩
    · -- Then the one that applies is a later one.
      obtain ⟨r', hr', happlies⟩ := h
      refine ih _ hrest ⟨r', ?_, happlies⟩
      rcases List.mem_cons.1 hr' with rfl | hmem
      · exact absurd happlies hr
      · exact hmem

/-- Rules that only block leave the rest of the verdict as it is. -/
theorem agrees_of_forall_block {rules : List (CompiledRule P)} (i : Nat)
    (hb : ∀ r ∈ rules, r.rule.action = .block) :
    (verdictFrom q i v rules).Agrees
      { v with decision := if rules.any (·.applies q) then .block else v.decision } := by
  induction rules generalizing i v with
  | nil => exact .refl v
  | cons r rules ih =>
    have hrest := fun r' hr' => hb r' (List.mem_cons_of_mem r hr')
    rw [verdictFrom, hb r List.mem_cons_self, List.any_cons]
    cases r.applies q with
    | false => exact ih _ hrest
    | true =>
      -- It is blocked already, whatever the rest are.
      exact (ih _ hrest).trans ⟨ite_self _, rfl, rfl⟩

/-- What rules without exceptions say alone is added to the verdict so far. -/
theorem agrees_combine_verdictFrom {rules : List (CompiledRule P)} (i j : Nat)
    (hb : ∀ r ∈ rules, r.rule.isException = false) :
    (verdictFrom q i v rules).Agrees (Engine.combine v (verdictFrom q j {} rules)) := by
  induction rules generalizing i j v with
  | nil => exact (Verdict.agrees_combine_empty v).symm
  | cons r rules ih =>
    have hrest := fun r' hr' => hb r' (List.mem_cons_of_mem r hr')
    have haction : r.rule.action ≠ .ignorePrevious := by
      simpa [Rule.isException] using hb r List.mem_cons_self
    rw [verdictFrom, verdictFrom]
    split
    · -- Both sides are what the first rule does alone, and then the rest.
      refine (ih _ (j + 1) hrest).trans ?_
      refine ((Verdict.next_agrees_combine v i j haction).combine (.refl _)).trans ?_
      refine (Verdict.agrees_combine_assoc _ _ _).trans ?_
      exact (Verdict.Agrees.refl v).combine (ih (j + 1) (j + 1) hrest).symm
    · exact ih _ _ hrest

/-! ### Runs of rules with the same exceptions -/

theorem foldl_combine_agrees_verdictFrom {runs : List (List (CompiledRule P))}
    (hb : ∀ run ∈ runs, ∀ r ∈ run, r.rule.isException = false) (h : v.Agrees w) (i : Nat) :
    ((runs.map fun run => verdictFrom q 0 {} run).foldl Engine.combine v).Agrees
      (verdictFrom q i w runs.flatten) := by
  induction runs generalizing v w i with
  | nil => exact h
  | cons run runs ih =>
    rw [List.map_cons, List.foldl_cons, List.flatten_cons, verdictFrom_append]
    refine ih (fun r hr => hb r (List.mem_cons_of_mem _ hr)) ?_ _
    refine (h.combine (.refl _)).trans ?_
    exact (agrees_combine_verdictFrom i 0 (hb run List.mem_cons_self)).symm

theorem foldl_combine_agrees_empty {verdicts : List Verdict} (h : ∀ u ∈ verdicts, u.Agrees {})
    (hv : v.Agrees {}) : (verdicts.foldl Engine.combine v).Agrees {} := by
  induction verdicts generalizing v with
  | nil => exact hv
  | cons u verdicts ih =>
    refine ih (fun u' hu' => h u' (List.mem_cons_of_mem _ hu')) ?_
    exact (hv.combine (h u List.mem_cons_self)).trans (Verdict.agrees_combine_empty _)

/-- Runs of blocking rules, each followed by all exceptions, say together what
    they say in a row with the exceptions at the end. An exception that applies
    does so in every run, and cancels what each of them says. -/
theorem foldl_combine_agrees {runs : List (List (CompiledRule P))}
    {exceptions : List (CompiledRule P)}
    (hb : ∀ run ∈ runs, ∀ r ∈ run, r.rule.isException = false)
    (hx : ∀ r ∈ exceptions, r.rule.isException = true) :
    ((runs.map fun run => verdictFrom q 0 {} (run ++ exceptions)).foldl Engine.combine {}).Agrees
      (verdictFrom q 0 {} (runs.flatten ++ exceptions)) := by
  by_cases h : ∃ r ∈ exceptions, r.applies q = true
  · -- The exception is in every run, so both sides are empty.
    rw [verdictFrom_append]
    refine .trans (foldl_combine_agrees_empty (fun u hu => ?_) (.refl _))
      (agrees_empty_of_exists _ hx h).symm
    obtain ⟨run, -, rfl⟩ := List.mem_map.1 hu
    rw [verdictFrom_append]
    exact agrees_empty_of_exists _ hx h
  · -- None of the exceptions does anything, so they may as well not be there.
    have hnone : ∀ r ∈ exceptions, r.applies q = false := fun r hr =>
      Bool.eq_false_iff.2 fun happlies => h ⟨r, hr, happlies⟩
    simp only [verdictFrom_append, verdictFrom_of_forall_not _ hnone]
    exact foldl_combine_agrees_verdictFrom hb (.refl _) 0

end Matcher

end ContentBlocking
