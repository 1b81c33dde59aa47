import ContentBlocking.Proofs.Verdict

/-!
# What verdicts do

A verdict blocks the request, hides elements or has the request made with https: it does
each of these actions or does not, and that is its effect. Rules in a row do what one of
them does that applies, as long as none of them cancels what stands before it.

* `Verdict.sameEffect_iff`: verdicts have the same effect if they do the same actions;
* `Matcher.does_verdictFrom_iff`: what rules do of which none cancels the others.
-/

namespace ContentBlocking

/-- What the verdict does is this, among other things. -/
def Verdict.Does (v : Verdict) : Action → Prop
  | .block => v.decision = .block
  | .hide selector => selector ∈ v.hidden
  | .makeHttps => v.https = true
  | .ignorePrevious => False

/-- The verdicts do the same to the request: they hide the same selectors, be it in
    another order or more than once. -/
structure Verdict.SameEffect (v w : Verdict) : Prop where
  decision : v.decision = w.decision
  https : v.https = w.https
  hidden : ∀ selector, selector ∈ v.hidden ↔ selector ∈ w.hidden

/-- The rule applies to the request and cancels what stands before it. -/
def Rule.cancels (r : Rule) (q : Request) (P : Type := Regex) [PatternLanguage P] : Bool :=
  r.isException && (CompiledRule.ofRule r : CompiledRule P).applies q

/-- One of the rules that apply to the request does this. -/
def AnyDoes (rules : List Rule) (q : Request) (a : Action) (P : Type := Regex)
    [PatternLanguage P] : Prop :=
  ∃ r ∈ rules, (CompiledRule.ofRule r : CompiledRule P).applies q = true ∧ r.action = a

variable {P : Type} [PatternLanguage P]

theorem Rule.cancels_of_not_isException {r : Rule} (h : r.isException = false) (q : Request) :
    r.cancels q P = false := by
  rw [cancels, h, Bool.false_and]

theorem anyDoes_cons {r : Rule} {rules : List Rule} {q : Request} {a : Action} :
    AnyDoes (r :: rules) q a P ↔
      ((CompiledRule.ofRule r : CompiledRule P).applies q = true ∧ r.action = a) ∨
        AnyDoes rules q a P :=
  List.exists_mem_cons_iff _ _ _

theorem AnyDoes.of_subset {rules rules' : List Rule} {q : Request} {a : Action}
    (hsub : rules ⊆ rules') (h : AnyDoes rules q a P) : AnyDoes rules' q a P := by
  obtain ⟨r, hr, hdoes⟩ := h
  exact ⟨r, hsub hr, hdoes⟩

namespace Verdict

theorem not_does_empty (a : Action) : ¬ Does {} a := by
  cases a <;> simp [Does]

theorem Agrees.does_iff {v w : Verdict} (h : v.Agrees w) (a : Action) : v.Does a ↔ w.Does a := by
  cases a <;> simp only [Does, h.decision, h.hidden, h.https]

/-- An action that cancels nothing is done besides what was done before. -/
theorem does_next {v : Verdict} {a : Action} (h : a ≠ .ignorePrevious) (i : Nat) (a' : Action) :
    (v.next i a).Does a' ↔ v.Does a' ∨ a = a' := by
  cases a with
  | block => cases a' <;> simp [next, Does]
  | hide selector => cases a' <;> simp [next, Does, @eq_comm _ selector]
  | makeHttps => cases a' <;> simp [next, Does]
  | ignorePrevious => exact absurd rfl h

/-- Verdicts have the same effect if and only if they do the same actions. -/
theorem sameEffect_iff {v w : Verdict} : v.SameEffect w ↔ ∀ a, v.Does a ↔ w.Does a := by
  constructor
  · rintro ⟨hdecision, hhttps, hhidden⟩ a
    cases a with
    | block => rw [Does, Does, hdecision]
    | hide selector => exact hhidden selector
    | ignorePrevious => exact Iff.rfl
    | makeHttps => rw [Does, Does, hhttps]
  · intro h
    refine ⟨?_, Bool.eq_iff_iff.2 (h .makeHttps), fun selector => h (.hide selector)⟩
    have hblock : v.decision = .block ↔ w.decision = .block := h .block
    cases hv : v.decision <;> cases hw : w.decision <;> simp [hv, hw] at hblock ⊢

end Verdict

namespace Matcher

variable {rules : List Rule} {q : Request} {a : Action}

/-- Rules of which none cancels what stands before it do what one of them does that
    applies, besides what was done before. -/
theorem does_verdictFrom_iff (h : ∀ r ∈ rules, r.cancels q P = false) (i : Nat) (v : Verdict) :
    (verdictFrom q i v (rules.map (.ofRule : Rule → CompiledRule P))).Does a ↔
      v.Does a ∨ AnyDoes rules q a P := by
  induction rules generalizing i v with
  | nil => simp [verdictFrom, AnyDoes]
  | cons r rules ih =>
    obtain ⟨hr, hrest⟩ := List.forall_mem_cons.1 h
    rw [List.map_cons, verdictFrom, ih hrest, anyDoes_cons, ← or_assoc]
    refine or_congr ?_ Iff.rfl
    split
    · next happlies =>
      -- It applies and cancels nothing, so it is no exception.
      have haction : r.action ≠ .ignorePrevious := by
        simpa [Rule.cancels, Rule.isException, happlies] using hr
      exact (Verdict.does_next haction i a).trans (by rw [and_iff_right happlies])
    · next hnot => exact (or_iff_left fun hdoes => hnot hdoes.1).symm

end Matcher

end ContentBlocking
