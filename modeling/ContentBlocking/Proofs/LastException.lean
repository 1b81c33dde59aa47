import ContentBlocking.Proofs.ResourceTypes
import ContentBlocking.Proofs.Verdict
import Mathlib.Data.List.Forall2
import Mathlib.Data.List.Induction
import Mathlib.Order.Bounds.Basic

/-!
# The last exception

A matcher goes through its rules once and changes its verdict at every rule that applies. What
it says in the end can be told from the places of these rules alone. The last exception among
them leaves nothing of what stands in front of it, and all that stands behind it counts: the
request is blocked if a rule there blocks it, the last one of which is named, and selectors are
hidden in the order of their rules.

* `Rule.AppliesTo`, `applies_ofRule_iff`: when a rule applies to a request, in any language
  of patterns;
* `ActsAt`, `ActsBehind`: what the rules do to a request at which places;
* `Verdict.Reports`: a verdict that tells what is done at some places;
* `Verdict.Reports.next`: one more rule that applies and is no exception;
* `verdict_reports`: the verdict of a matcher tells what is done behind the last exception.
-/

namespace ContentBlocking

/-! ### Rules that apply -/

/-- The rule applies to the request. -/
structure Rule.AppliesTo (r : Rule) (q : Request) (P : Type := Regex) [PatternLanguage P] :
    Prop where
  /-- The rule is for all types, or for one of those that the request has. -/
  types : (∀ t, r.trigger.resourceTypes.contains t = false) ∨
    ∃ t, r.trigger.resourceTypes.contains t = true ∧ q.types.contains t = true
  /-- If the rule is limited to some pages, the page is one of them. -/
  inside : ∀ entries ∈ r.trigger.ifDomains, ∃ e ∈ entries, Host.fits q.pageHost e = true
  /-- If the rule spares some pages, the page is none of them. -/
  outside : ∀ entries ∈ r.trigger.unlessDomains, ∀ e ∈ entries, Host.fits q.pageHost e = false
  /-- The pattern denotes an expression, which is found in the URL. -/
  found : ∃ pattern : P, compile? r.trigger.urlPattern = some pattern ∧ finds pattern q.url = true

variable {P : Type} [PatternLanguage P]

theorem applies_ofRule_iff {r : Rule} (h : r.Compiles P) (q : Request) :
    (CompiledRule.ofRule r : CompiledRule P).applies q = true ↔ r.AppliesTo q P := by
  obtain ⟨pattern, hpattern⟩ := Option.isSome_iff_exists.1 h
  have htypes : r.trigger.resourceTypes.covers q.types = true ↔
      (∀ t, r.trigger.resourceTypes.contains t = false) ∨
        ∃ t, r.trigger.resourceTypes.contains t = true ∧ q.types.contains t = true := by
    rw [ResourceTypes.covers, Bool.or_eq_true, ResourceTypes.isEmpty_iff, ResourceTypes.meets_iff]
  have hfound : finds pattern q.url = true ↔
      ∃ pattern : P, compile? r.trigger.urlPattern = some pattern ∧
        finds pattern q.url = true := by
    simp [hpattern]
  rw [CompiledRule.applies_ofRule hpattern, Bool.and_eq_true, hfound, Trigger.admits,
    Bool.and_eq_true, Bool.and_eq_true, htypes]
  simp only [Option.all_eq_true, List.any_eq_true, Bool.not_eq_true', List.any_eq_false]
  constructor
  · rintro ⟨⟨⟨htypes, hinside⟩, houtside⟩, hfound⟩
    exact ⟨htypes, hinside, by simpa using houtside, hfound⟩
  · rintro ⟨htypes, hinside, houtside, hfound⟩
    exact ⟨⟨⟨htypes, hinside⟩, by simpa using houtside⟩, hfound⟩

/-! ### Places of rules -/

/-- The rule at this place applies to the request and does this. -/
def ActsAt (P : Type) [PatternLanguage P] (rules : List Rule) (q : Request) (i : Nat)
    (a : Action) : Prop :=
  ∃ r, rules[i]? = some r ∧ r.AppliesTo q P ∧ r.action = a

/-- The same at a place behind `e`, or at any place if there is no such `e`. -/
def ActsBehind (P : Type) [PatternLanguage P] (rules : List Rule) (q : Request)
    (e : Option Nat) (i : Nat) (a : Action) : Prop :=
  ActsAt P rules q i a ∧ ∀ j ∈ e, j < i

/-- This is the last one of the places, or there are none. -/
def IsLast (places : Set Nat) : Option Nat → Prop
  | none => places = ∅
  | some i => IsGreatest places i

variable {rules : List Rule} {r : Rule} {q : Request} {i : Nat} {a : Action}

theorem ActsAt.lt_length (h : ActsAt P rules q i a) : i < rules.length := by
  obtain ⟨r, hr, -⟩ := h
  exact (List.getElem?_eq_some_iff.1 hr).1

theorem actsAt_concat : ActsAt P (rules ++ [r]) q i a ↔
    ActsAt P rules q i a ∨ i = rules.length ∧ a = r.action ∧ r.AppliesTo q P := by
  constructor
  · rintro ⟨r', hr', happlies, rfl⟩
    rcases Nat.lt_or_ge i rules.length with hlt | hge
    · rw [List.getElem?_append_left hlt] at hr'
      exact .inl ⟨r', hr', happlies, rfl⟩
    · rw [List.getElem?_append_right hge] at hr'
      obtain ⟨hindex, hmem⟩ := List.getElem?_eq_some_iff.1 hr'
      obtain rfl : r = r' := by simpa using hmem
      rw [List.length_singleton] at hindex
      exact .inr ⟨by omega, rfl, happlies⟩
  · rintro (⟨r', hr', hacts⟩ | ⟨rfl, rfl, happlies⟩)
    · exact ⟨r', (List.getElem?_append_left (List.getElem?_eq_some_iff.1 hr').1).trans hr', hacts⟩
    · exact ⟨r, List.getElem?_concat_length, happlies, rfl⟩

/-- A rule that does not apply does nothing. -/
theorem actsAt_concat_of_not (h : ¬r.AppliesTo q P) :
    ActsAt P (rules ++ [r]) q = ActsAt P rules q := by
  funext i a
  rw [actsAt_concat, eq_iff_iff]
  exact or_iff_left fun hlast => h hlast.2.2

/-- Nothing stands behind the rule that was added last. -/
theorem not_actsBehind_length : ¬ActsBehind P (rules ++ [r]) q (some rules.length) i a := by
  rintro ⟨hacts, hbehind⟩
  have hlt := hacts.lt_length
  have hgt := hbehind _ rfl
  rw [List.length_append, List.length_singleton] at hlt
  omega

/-! ### What a verdict tells -/

/-- These are all places where something stands, from the first to the last, and what stands
    there. -/
structure ListedAt (stands : Nat → String → Prop) (places : List Nat) (items : List String) :
    Prop where
  sorted : places.Pairwise (· < ·)
  mem_iff : ∀ i, i ∈ places ↔ ∃ s, stands i s
  items : List.Forall₂ stands places items

/-- One more item that stands behind all others is listed last. -/
theorem ListedAt.concat {stands stands' : Nat → String → Prop} {places : List Nat}
    {items : List String} {n : Nat} {item : String} (h : ListedAt stands places items)
    (hlt : ∀ i s, stands i s → i < n)
    (hstands : ∀ i s, stands' i s ↔ stands i s ∨ i = n ∧ s = item) :
    ListedAt stands' (places ++ [n]) (items ++ [item]) where
  sorted := by
    refine List.pairwise_append.2 ⟨h.sorted, List.pairwise_singleton _ _, fun i hi j hj => ?_⟩
    obtain ⟨s, hs⟩ := (h.mem_iff i).1 hi
    rw [List.mem_singleton.1 hj]
    exact hlt i s hs
  mem_iff i := by
    rw [List.mem_append, List.mem_singleton, h.mem_iff]
    simp only [hstands, exists_or]
    refine or_congr_right ⟨fun hi => ⟨item, hi, rfl⟩, ?_⟩
    rintro ⟨s, hi, -⟩
    exact hi
  items := by
    have hnew : stands' n item := (hstands n item).2 (.inr ⟨rfl, rfl⟩)
    exact List.rel_append (h.items.imp fun i s hs => (hstands i s).2 (.inl hs)) (.cons hnew .nil)

/-- The verdict tells what is done at which places, none of which is cancelled; `e` is the place
    of what has cancelled everything before. -/
structure Verdict.Reports (v : Verdict) (acts : Nat → Action → Prop) (e : Option Nat) : Prop where
  blocks_iff : v.decision = .block ↔ ∃ i, acts i .block
  /-- The last rule that blocks is named. -/
  blocked : v.decision = .block → ∃ i, v.rule = some i ∧ IsGreatest {i | acts i .block} i
  allowed : v.decision = .allow → v.rule = e
  /-- The selectors are those of the rules that hide, in the order of these rules. -/
  hidden : ∃ places, ListedAt (fun i s => acts i (.hide s)) places v.hidden
  https_iff : v.https = true ↔ ∃ i, acts i .makeHttps

namespace Verdict

variable {v : Verdict} {acts acts' : Nat → Action → Prop} {e : Option Nat} {n : Nat}

theorem reports_of_forall_not (h : ∀ i a, ¬acts i a) (e : Option Nat) :
    Reports { rule := e } acts e where
  blocks_iff := iff_of_false nofun fun ⟨i, hi⟩ => h i _ hi
  blocked := nofun
  allowed _ := rfl
  hidden := ⟨[], .nil, fun i => iff_of_false List.not_mem_nil fun ⟨_, hs⟩ => h i _ hs, .nil⟩
  https_iff := iff_of_false nofun fun ⟨i, hi⟩ => h i _ hi

/-- One more thing that is done at a later place is told as well. -/
theorem Reports.next (h : v.Reports acts e) (hlt : ∀ i b, acts i b → i < n)
    (ha : a ≠ .ignorePrevious) (hacts : ∀ i b, acts' i b ↔ acts i b ∨ i = n ∧ b = a) :
    (v.next n a).Reports acts' e := by
  have hnew : acts' n a := (hacts n a).2 (.inr ⟨rfl, rfl⟩)
  -- Of what else is done nothing changes.
  have hother (b : Action) (hb : b ≠ a) (i : Nat) : acts' i b ↔ acts i b :=
    (hacts i b).trans (or_iff_left fun hadded => hb hadded.2)
  cases a with
  | block =>
    have hhide (i : Nat) (s : String) := hother (.hide s) nofun i
    refine ⟨iff_of_true rfl ⟨n, hnew⟩, fun _ => ⟨n, rfl, hnew, fun i hi => ?_⟩, nofun, ?_, ?_⟩
    · rcases (hacts i .block).1 hi with hi | ⟨rfl, -⟩
      · exact (hlt i _ hi).le
      · exact le_rfl
    · simp only [hhide]
      exact h.hidden
    · simp only [hother .makeHttps nofun]
      exact h.https_iff
  | hide selector =>
    obtain ⟨places, hplaces⟩ := h.hidden
    have hlisted : ListedAt (fun i s => acts' i (.hide s)) (places ++ [n])
        (v.hidden ++ [selector]) :=
      hplaces.concat (fun i s => hlt i (.hide s)) fun i s => by rw [hacts, Action.hide.injEq]
    refine ⟨?_, ?_, h.allowed, ⟨_, hlisted⟩, ?_⟩
    · simp only [hother .block nofun]
      exact h.blocks_iff
    · simp only [hother .block nofun]
      exact h.blocked
    · simp only [hother .makeHttps nofun]
      exact h.https_iff
  | ignorePrevious => exact absurd rfl ha
  | makeHttps =>
    have hhide (i : Nat) (s : String) := hother (.hide s) nofun i
    refine ⟨?_, ?_, h.allowed, ?_, iff_of_true rfl ⟨n, hnew⟩⟩
    · simp only [hother .block nofun]
      exact h.blocks_iff
    · simp only [hother .block nofun]
      exact h.blocked
    · simp only [hhide]
      exact h.hidden

end Verdict

/-! ### The verdict of a matcher -/

/-- The verdict tells what the rules do behind the last exception among them. -/
def Verdict.Tells (v : Verdict) (P : Type) [PatternLanguage P] (rules : List Rule)
    (q : Request) : Prop :=
  ∃ e, IsLast {i | ActsAt P rules q i .ignorePrevious} e ∧ v.Reports (ActsBehind P rules q e) e

namespace Verdict.Tells

variable {v : Verdict}

theorem nil (q : Request) : Tells {} P [] q := by
  have hnot (i : Nat) (a : Action) : ¬ActsAt P [] q i a := fun hacts =>
    Nat.not_lt_zero i hacts.lt_length
  exact ⟨none, Set.eq_empty_of_forall_notMem fun i => hnot i _,
    reports_of_forall_not (fun i a hacts => hnot i a hacts.1) none⟩

theorem concat_of_not (h : v.Tells P rules q) (hr : ¬r.AppliesTo q P) :
    v.Tells P (rules ++ [r]) q := by
  have hsame : ActsAt P (rules ++ [r]) q = ActsAt P rules q := actsAt_concat_of_not hr
  rw [Tells, hsame]
  obtain ⟨e, hlast, hreports⟩ := h
  refine ⟨e, hlast, ?_⟩
  have hbehind : ActsBehind P (rules ++ [r]) q e = ActsBehind P rules q e := by
    funext i a
    rw [ActsBehind, hsame, ActsBehind]
  rwa [hbehind]

/-- An exception that applies is the last one, and nothing stands behind it. -/
theorem concat_exception (hr : r.AppliesTo q P) (haction : r.action = .ignorePrevious) :
    (v.next rules.length r.action).Tells P (rules ++ [r]) q := by
  rw [haction]
  refine ⟨some rules.length, ⟨actsAt_concat.2 (.inr ⟨rfl, haction.symm, hr⟩), fun i hi => ?_⟩,
    reports_of_forall_not (fun _ _ => not_actsBehind_length) _⟩
  have hlt := hi.lt_length
  rw [List.length_append, List.length_singleton] at hlt
  exact Nat.le_of_lt_succ hlt

/-- Another rule that applies leaves the last exception as it was, and stands behind it. -/
theorem concat (h : v.Tells P rules q) (hr : r.AppliesTo q P)
    (haction : r.action ≠ .ignorePrevious) :
    (v.next rules.length r.action).Tells P (rules ++ [r]) q := by
  obtain ⟨e, hlast, hreports⟩ := h
  have hexceptions : {i | ActsAt P (rules ++ [r]) q i .ignorePrevious} =
      {i | ActsAt P rules q i .ignorePrevious} := by
    ext i
    exact actsAt_concat.trans (or_iff_left fun hnew => haction hnew.2.1.symm)
  have he : ∀ j ∈ e, j < rules.length := by
    rintro j rfl
    exact hlast.1.lt_length
  refine ⟨e, by rwa [hexceptions], hreports.next (fun i b hi => hi.1.lt_length) haction ?_⟩
  intro i b
  rw [ActsBehind, actsAt_concat, or_and_right, ActsBehind]
  refine or_congr_right ⟨fun hnew => ⟨hnew.1.1, hnew.1.2.1⟩, ?_⟩
  rintro ⟨rfl, rfl⟩
  exact ⟨⟨rfl, rfl, hr⟩, he⟩

end Verdict.Tells

/-- Rules in a row lead to the verdict that tells what they do behind the last exception. -/
theorem tells_verdictFrom (h : ∀ r ∈ rules, r.Compiles P) (q : Request) :
    (Matcher.verdictFrom q 0 {} (rules.map (.ofRule : Rule → CompiledRule P))).Tells P rules q := by
  induction rules using List.reverseRecOn with
  | nil => exact .nil q
  | append_singleton rules r ih =>
    have hrules := ih fun r' hr' => h r' (List.mem_append_left _ hr')
    have happlies := applies_ofRule_iff (h r (List.mem_append_right _ List.mem_cons_self)) q
    rw [List.map_append, Matcher.verdictFrom_append, List.map_singleton, Matcher.verdictFrom,
      Matcher.verdictFrom, List.length_map, Nat.zero_add]
    split
    · next hyes =>
      by_cases haction : r.action = .ignorePrevious
      · exact .concat_exception (happlies.1 hyes) haction
      · exact hrules.concat (happlies.1 hyes) haction
    · next hno => exact hrules.concat_of_not (mt happlies.2 hno)

/-- Whatever the language of patterns is, a collection whose patterns are well-formed has a
    matcher. Of the rules that apply to a request let `e` be the place of the last exception, if
    there is one. The verdict is to block if and only if a rule behind `e` blocks, and then it
    names the last such rule, and otherwise `e`. What it hides are the selectors of the rules
    behind `e` that hide, in their order, and it demands https if and only if a rule behind `e`
    does. -/
theorem verdict_reports (h : ∀ r ∈ rules, r.Compiles P) :
    ∃ m : Matcher P, Matcher.ofRules rules = .ok m ∧ ∀ q, ∃ e,
      IsLast {i | ActsAt P rules q i .ignorePrevious} e ∧
        (m.verdict q).Reports (ActsBehind P rules q e) e :=
  ⟨_, Matcher.ofRules_eq_ok h, fun q => tells_verdictFrom h q⟩

/-- The first two rules are cancelled, and the last two do not apply. -/
theorem verdict_reports_cancelled :
    let rules : List Rule := [⟨{ urlPattern := "ads" }, .block⟩,
      ⟨{ urlPattern := ".*" }, .hide ".old"⟩, .exceptionFor "pixel",
      ⟨{ urlPattern := "^https?://", ifDomains := some ["*shop.org"] }, .hide ".banner"⟩,
      ⟨{ urlPattern := "ADS", resourceTypes := .ofList [.image, .script] }, .block⟩,
      ⟨{ urlPattern := "net" }, .makeHttps⟩,
      ⟨{ urlPattern := "gif$", unlessDomains := some ["shop.org"] }, .hide ".top"⟩,
      ⟨{ urlPattern := ".*", resourceTypes := .ofList [.font] }, .block⟩, .exceptionOn "news.org"]
    let q : Request := ⟨"http://ads.net/pixel.gif", "www.shop.org", .ofList [.image]⟩
    (∀ r ∈ rules, r.Compiles) ∧ ∃ m, Matcher.ofRules rules = .ok m ∧
      m.verdict q = ⟨.block, some 4, [".banner", ".top"], true⟩ ∧
      ∃ e, IsLast {i | ActsAt Regex rules q i .ignorePrevious} e ∧
        (m.verdict q).Reports (ActsBehind Regex rules q e) e := by
  intro rules q
  have hcompiles : ∀ r ∈ rules, r.Compiles := by decide +kernel
  obtain ⟨m, hm, hverdicts⟩ := verdict_reports hcompiles
  obtain rfl := Except.ok.inj (hm.symm.trans (Matcher.ofRules_eq_ok hcompiles))
  exact ⟨hcompiles, _, hm, by decide +kernel, hverdicts q⟩

end ContentBlocking
