import ContentBlocking.Proofs.KeptFiles
import Mathlib.Algebra.GroupWithZero.Nat

/-!
# Counts at their limit

The counts may begin with any words, since these are read from a file. The saved bytes are
added up to the greatest word and stay there. The numbers of requests, in total and by domain,
begin again at zero when they are counted past it, or stop a build with overflow checks. So a
count goes back if and only if there is more to count than is left up to the greatest word, and
a build with overflow checks is as good as one without as long as no edit counts past it.

* `count`, `value_after`: the counts in memory, after any edits;
* `Along`: what holds at every edit;
* `CountsUp`: a count that goes up by one with some of the edits;
* `CountsUp.toNat_foldl`, `CountsUp.risesAlong_iff`: what it comes to, and when it never goes
  back;
* `GivesIf`, `checkedEdits_givesIf`: when a build with overflow checks does not stop;
* `neverFalls_iff`: when none of the counts goes back in either build.
-/

namespace ContentBlocking

/-- The greatest word takes the place of sums that are greater. -/
theorem toNat_addUpTo (a b : UInt64) :
    (addUpTo a b).toNat = min (a.toNat + b.toNat) (UInt64.size - 1) := by
  rw [addUpTo]
  split
  · next h =>
    rw [UInt64.toNat_add, Nat.mod_eq_of_lt h]
    omega
  · next h =>
    have hgreatest : (UInt64.size - 1).toUInt64.toNat = UInt64.size - 1 := by decide
    rw [hgreatest]
    omega

theorem toNat_add_one (a : UInt64) : (a + 1).toNat = (a.toNat + 1) % UInt64.size :=
  UInt64.toNat_add _ _

/-- One more is less only when it begins again at zero. -/
theorem le_add_one_iff (a : UInt64) : a ≤ a + 1 ↔ a.toNat + 1 < UInt64.size := by
  have hlt : a.toNat < UInt64.size := a.toNat_lt
  rw [UInt64.le_iff_toNat_le, toNat_add_one]
  constructor
  · intro hle
    by_contra hfull
    have hlast : a.toNat + 1 = UInt64.size := by omega
    rw [hlast, Nat.mod_self] at hle
    rw [Nat.le_zero.1 hle] at hlast
    exact absurd hlast (by decide)
  · intro hroom
    rw [Nat.mod_eq_of_lt hroom]
    exact Nat.le_succ _

namespace StatisticsTracker

/-! ### Counting in memory -/

/-- The counts after something was counted, in a build without overflow checks. The disk makes
    no difference to them. -/
def count (t : StatisticsTracker) : Edit → StatisticsTracker
  | .request => (t.countRequest .wrapping).run
  | .blocked url page size => (t.countBlocked .wrapping url page size).run
  | .pageLoad url => t.countPageLoad url
  | .resetSession => t.startSession

variable {t : StatisticsTracker} {edits : List Edit}

theorem edit_fst (t : StatisticsTracker) (d : Disk) (e : Edit) : (t.edit d e).1 = t.count e := by
  cases e <;> rfl

theorem value_foldl_step (path : String) (maxPages : Nat) (defaultBytes : UInt64)
    (s : Keeper.State StatisticsTracker) (edits : List Edit) :
    (edits.foldl (keeper path maxPages defaultBytes).step s).value =
      edits.foldl count s.value := by
  induction edits generalizing s with
  | nil => rfl
  | cons e edits ih =>
    have hstep : ((keeper path maxPages defaultBytes).step s e).value = s.value.count e :=
      edit_fst s.value s.disk e
    rw [List.foldl_cons, List.foldl_cons, ih, hstep]

theorem value_after (d : Disk) (path : String) (maxPages : Nat) (defaultBytes : UInt64)
    (edits : List Edit) :
    ((keeper path maxPages defaultBytes).after d edits).value =
      edits.foldl count (ofDisk d path maxPages defaultBytes) :=
  value_foldl_step path maxPages defaultBytes _ edits

theorem defaultBytes_count (t : StatisticsTracker) (e : Edit) :
    (t.count e).defaultBytes = t.defaultBytes := by
  cases e <;> rfl

theorem defaultBytes_foldl_count (t : StatisticsTracker) (edits : List Edit) :
    (edits.foldl count t).defaultBytes = t.defaultBytes := by
  induction edits generalizing t with
  | nil => rfl
  | cons e edits ih => exact (ih _).trans (defaultBytes_count t e)

/-! ### Counts that go up by one -/

/-- The value goes up by one with every edit that is counted, and stays with every other. -/
def CountsUp (value : StatisticsTracker → UInt64) (isCounted : Edit → Bool) : Prop :=
  ∀ t e, value (t.count e) = if isCounted e then value t + 1 else value t

/-- It holds of every edit and of the counts that it finds. -/
def Along (holds : StatisticsTracker → Edit → Prop) (t : StatisticsTracker) (edits : List Edit) :
    Prop :=
  ∀ before e since, edits = before ++ e :: since → holds (before.foldl count t) e

theorem along_nil (holds : StatisticsTracker → Edit → Prop) (t : StatisticsTracker) :
    Along holds t [] := by
  intro before e since h
  simp at h

theorem along_cons {holds : StatisticsTracker → Edit → Prop} {e : Edit} :
    Along holds t (e :: edits) ↔ holds t e ∧ Along holds (t.count e) edits := by
  constructor
  · intro h
    refine ⟨h [] e edits rfl, fun before e' since heq => ?_⟩
    exact h (e :: before) e' since (congrArg (e :: ·) heq)
  · rintro ⟨hfirst, hrest⟩ before e' since heq
    cases before with
    | nil =>
      obtain ⟨rfl, -⟩ := List.cons.inj heq
      exact hfirst
    | cons e'' before =>
      obtain ⟨rfl, hsplit⟩ := List.cons.inj heq
      exact hrest before e' since hsplit

/-- The value is never less after an edit than before. -/
def RisesAlong (value : StatisticsTracker → UInt64) : StatisticsTracker → List Edit → Prop :=
  Along fun t e => value t ≤ value (t.count e)

namespace CountsUp

variable {value : StatisticsTracker → UInt64} {isCounted : Edit → Bool}

theorem toNat_foldl (h : CountsUp value isCounted) (t : StatisticsTracker) (edits : List Edit) :
    (value (edits.foldl count t)).toNat =
      ((value t).toNat + edits.countP isCounted) % UInt64.size := by
  induction edits generalizing t with
  | nil => exact (Nat.mod_eq_of_lt (value t).toNat_lt).symm
  | cons e edits ih =>
    rw [List.foldl_cons, ih, h, List.countP_cons]
    split
    · rw [toNat_add_one, Nat.mod_add_mod, Nat.add_assoc, Nat.add_comm 1]
    · rw [Nat.add_zero]

/-- The value never goes back if and only if there is room for all that is counted. -/
theorem risesAlong_iff (h : CountsUp value isCounted) :
    RisesAlong value t edits ↔ (value t).toNat + edits.countP isCounted < UInt64.size := by
  induction edits generalizing t with
  | nil => exact iff_of_true (along_nil _ t) (value t).toNat_lt
  | cons e edits ih =>
    rw [RisesAlong, along_cons, ← RisesAlong, ih, h, List.countP_cons]
    split
    · rw [le_add_one_iff]
      constructor
      · rintro ⟨hroom, hrest⟩
        rw [toNat_add_one, Nat.mod_eq_of_lt hroom] at hrest
        omega
      · intro hall
        have hroom : (value t).toNat + 1 < UInt64.size := by omega
        refine ⟨hroom, ?_⟩
        rw [toNat_add_one, Nat.mod_eq_of_lt hroom]
        omega
    · rw [Nat.add_zero]
      exact and_iff_right (UInt64.le_refl _)

end CountsUp

/-! ### What is counted -/

namespace Edit

/-- A request is counted. -/
def isRequest : Edit → Bool
  | .request => true
  | .blocked .. | .pageLoad _ | .resetSession => false

/-- A blocked request is counted. -/
def isBlocked : Edit → Bool
  | .blocked .. => true
  | .request | .pageLoad _ | .resetSession => false

/-- A blocked request is counted for the domain. -/
def isBlockedOn (domain : String) : Edit → Bool
  | .blocked url _ _ => Host.domainOfUrl? url = some domain
  | .request | .pageLoad _ | .resetSession => false

/-- The bytes that a blocked request is taken to save. -/
def bytes (defaultBytes : UInt64) : Edit → Nat
  | .blocked _ _ size => (size.getD defaultBytes).toNat
  | .request | .pageLoad _ | .resetSession => 0

end Edit

/-- The blocked requests of a domain. -/
def domainCount (t : StatisticsTracker) (domain : String) : UInt64 :=
  (t.domains.get? domain).getD 0

theorem countsUp_totalRequests : CountsUp (·.totalRequests) Edit.isRequest := by
  intro t e
  cases e <;> rfl

theorem countsUp_totalBlocked : CountsUp (·.totalBlocked) Edit.isBlocked := by
  intro t e
  cases e <;> rfl

theorem countsUp_domainCount (domain : String) :
    CountsUp (·.domainCount domain) (Edit.isBlockedOn domain) := by
  intro t e
  cases e with
  | request | pageLoad url | resetSession => rfl
  | blocked url page size =>
    show ((countDomain .wrapping t.domains url).run.get? domain).getD 0 = _
    rw [countDomain, Edit.isBlockedOn]
    rcases Host.domainOfUrl? url with _ | domain'
    · rfl
    · by_cases hsame : domain = domain'
      · subst hsame
        simp [Table.get?_set, domainCount]
      · simp [Table.get?_set, domainCount, hsame, Ne.symm hsame]

/-- The saved bytes are added up to the greatest word. -/
theorem bandwidthSavedBytes_foldl (t : StatisticsTracker) (edits : List Edit) :
    (edits.foldl count t).bandwidthSavedBytes.toNat =
      min (t.bandwidthSavedBytes.toNat + (edits.map (Edit.bytes t.defaultBytes)).sum)
        (UInt64.size - 1) := by
  induction edits generalizing t with
  | nil =>
    have hlt : t.bandwidthSavedBytes.toNat < UInt64.size := t.bandwidthSavedBytes.toNat_lt
    rw [List.foldl_nil, List.map_nil, List.sum_nil]
    omega
  | cons e edits ih =>
    have hbytes : (t.count e).bandwidthSavedBytes.toNat =
        min (t.bandwidthSavedBytes.toNat + e.bytes t.defaultBytes) (UInt64.size - 1) := by
      have hlt : t.bandwidthSavedBytes.toNat < UInt64.size := t.bandwidthSavedBytes.toNat_lt
      cases e with
      | blocked url page size => exact toNat_addUpTo _ _
      | request | pageLoad url | resetSession =>
        show t.bandwidthSavedBytes.toNat = min (t.bandwidthSavedBytes.toNat + 0) _
        omega
    rw [List.foldl_cons, ih, defaultBytes_count, hbytes, List.map_cons, List.sum_cons]
    omega

theorem risesAlong_bandwidthSavedBytes (t : StatisticsTracker) (edits : List Edit) :
    RisesAlong (·.bandwidthSavedBytes) t edits := by
  induction edits generalizing t with
  | nil => exact along_nil _ t
  | cons e edits ih =>
    refine along_cons.2 ⟨?_, ih _⟩
    have hone := bandwidthSavedBytes_foldl t [e]
    have hlt : t.bandwidthSavedBytes.toNat < UInt64.size := t.bandwidthSavedBytes.toNat_lt
    show t.bandwidthSavedBytes ≤ ([e].foldl count t).bandwidthSavedBytes
    rw [UInt64.le_iff_toNat_le, hone]
    omega

/-! ### Builds with overflow checks -/

/-- There is a word after this one. -/
def HasNext (n : UInt64) : Prop := n.toNat + 1 < UInt64.size

/-- None of the counts that the edit takes up by one is the greatest word. -/
def HasRoom (t : StatisticsTracker) : Edit → Prop
  | .request => HasNext t.totalRequests
  | .blocked url page _ =>
    HasNext t.totalBlocked ∧ HasNext t.sessionBlocked ∧
    (∀ domain, Host.domainOfUrl? url = some domain → HasNext (t.domainCount domain)) ∧
    ∀ name, page = some name → HasNext ((t.pages.touch name).record name).blocked
  | .pageLoad _ | .resetSession => True

/-- The result is there under one condition, and then it is the value. -/
def GivesIf {α : Type} (condition : Prop) (value : α) (result : Option α) : Prop :=
  ∀ a, result = some a ↔ condition ∧ value = a

namespace GivesIf

variable {α β : Type} {p q : Prop} {x : α} {y : β} {result : Option α} {f : α → Option β}

theorem pure (x : α) : GivesIf True x (some x) :=
  fun _ => Option.some_inj.trans (and_iff_right trivial).symm

theorem congr (h : GivesIf p x result) (hpq : p ↔ q) : GivesIf q x result :=
  fun a => (h a).trans (and_congr_left' hpq)

theorem bind (h : GivesIf p x result) (hf : GivesIf q y (f x)) :
    GivesIf (p ∧ q) y (result.bind f) := by
  intro b
  rw [Option.bind_eq_some_iff]
  constructor
  · rintro ⟨a, ha, hb⟩
    obtain ⟨hp, rfl⟩ := (h a).1 ha
    obtain ⟨hq, rfl⟩ := (hf b).1 hb
    exact ⟨⟨hp, hq⟩, rfl⟩
  · rintro ⟨⟨hp, hq⟩, rfl⟩
    exact ⟨x, (h x).2 ⟨hp, rfl⟩, (hf y).2 ⟨hq, rfl⟩⟩

theorem isSome_iff (h : GivesIf p x result) : result.isSome = true ↔ p := by
  rw [Option.isSome_iff_exists]
  exact ⟨fun ⟨a, ha⟩ => ((h a).1 ha).1, fun hp => ⟨x, (h x).2 ⟨hp, rfl⟩⟩⟩

theorem map (h : GivesIf p x result) (f : α → β) :
    GivesIf p (f x) (result.bind fun a => some (f a)) :=
  (h.bind (pure (f x))).congr (and_iff_left trivial)

end GivesIf

theorem next_checked (n : UInt64) : GivesIf (HasNext n) (n + 1) (Counting.checked.next n) :=
  fun _ => by simp [Counting.checked, HasNext]

theorem countDomain_checked (domains : Table String UInt64) (url : String) :
    GivesIf (∀ domain, Host.domainOfUrl? url = some domain →
        HasNext ((domains.get? domain).getD 0))
      (countDomain .wrapping domains url).run (countDomain .checked domains url) := by
  rw [countDomain, countDomain]
  rcases Host.domainOfUrl? url with _ | domain
  · exact (GivesIf.pure domains).congr (by simp)
  · exact ((next_checked _).map _).congr (by simp)

theorem countPage_checked (pages : PageTable) (page : Option String) (size : UInt64) :
    GivesIf (∀ name, page = some name → HasNext ((pages.touch name).record name).blocked)
      (countPage .wrapping pages page size).run (countPage .checked pages page size) := by
  rcases page with _ | name
  · exact (GivesIf.pure pages).congr (by simp)
  · exact (((next_checked _).map _).map _).congr (by simp)

theorem countBlocked_checked (t : StatisticsTracker) (url : String) (page : Option String)
    (size : Option UInt64) :
    GivesIf (t.HasRoom (.blocked url page size)) (t.count (.blocked url page size))
      (t.countBlocked .checked url page size) :=
  (next_checked _).bind ((next_checked _).bind
    ((countDomain_checked _ url).bind ((countPage_checked _ page _).map _)))

/-- A build with overflow checks counts something just as one without, if there is room for it,
    and stops otherwise. -/
theorem editWith_checked (t : StatisticsTracker) (d : Disk) (e : Edit) :
    GivesIf (t.HasRoom e) (t.edit d e) (t.editWith .checked d e) := by
  cases e with
  | request => exact ((next_checked _).map _).map _
  | blocked url page size => exact (countBlocked_checked t url page size).map _
  | pageLoad url => exact .pure _
  | resetSession => exact .pure _

/-- Edits in a build with overflow checks, unless it stops at one of them. -/
def checkedEdits (s : StatisticsTracker × Disk) (edits : List Edit) :
    Option (StatisticsTracker × Disk) :=
  edits.foldlM (fun s e => s.1.editWith .checked s.2 e) s

/-- A build with overflow checks makes all edits just as one without, if each finds room. -/
theorem checkedEdits_givesIf (path : String) (maxPages : Nat) (defaultBytes : UInt64)
    (s : Keeper.State StatisticsTracker) (edits : List Edit) :
    let s' := edits.foldl (keeper path maxPages defaultBytes).step s
    GivesIf (Along HasRoom s.value edits) (s'.value, s'.disk)
      (checkedEdits (s.value, s.disk) edits) := by
  induction edits generalizing s with
  | nil => exact (GivesIf.pure (s.value, s.disk)).congr (iff_of_true trivial (along_nil _ _))
  | cons e edits ih =>
    have hrest := ih ((keeper path maxPages defaultBytes).step s e)
    have hnext : ((keeper path maxPages defaultBytes).step s e).value = s.value.count e :=
      edit_fst s.value s.disk e
    exact ((editWith_checked s.value s.disk e).bind hrest).congr (by rw [along_cons, hnext])

/-! ### Counts that never go back -/

/-- None of the counts that are kept for good is less than before. -/
structure NoneFalls (t t' : StatisticsTracker) : Prop where
  totalRequests : t.totalRequests ≤ t'.totalRequests
  totalBlocked : t.totalBlocked ≤ t'.totalBlocked
  bandwidthSavedBytes : t.bandwidthSavedBytes ≤ t'.bandwidthSavedBytes
  domains : ∀ domain, t.domainCount domain ≤ t'.domainCount domain

/-- The counts are read from a file and edited, and none of the edits leaves one of them less
    than it was. -/
def NeverFalls (d : Disk) (path : String) (maxPages : Nat) (defaultBytes : UInt64)
    (edits : List Edit) : Prop :=
  ∀ before e since, edits = before ++ e :: since →
    NoneFalls ((keeper path maxPages defaultBytes).after d before).value
      ((keeper path maxPages defaultBytes).after d (before ++ [e])).value

/-- The counts are read from a file and edited in a build with overflow checks, and it stops at
    none of the edits. -/
def NeverStops (d : Disk) (path : String) (maxPages : Nat) (defaultBytes : UInt64)
    (edits : List Edit) : Prop :=
  (checkedEdits (ofDisk d path maxPages defaultBytes, d) edits).isSome = true

/-- All counts in the file are the greatest word. One more request and one more that is blocked
    leave the saved bytes there, but the first of them takes the number of requests back to
    zero, or stops a build with overflow checks. -/
theorem not_forall_neverFalls :
    (¬∀ d path maxPages defaultBytes edits, NeverFalls d path maxPages defaultBytes edits) ∧
      ¬∀ d path maxPages defaultBytes edits, NeverStops d path maxPages defaultBytes edits := by
  let greatest := (UInt64.size - 1).toUInt64
  let full : Statistics := ⟨greatest, greatest, greatest, 0, [("ads.net", greatest)], []⟩
  let d : Disk := { entries := [(["statistics.json"], .file full.toJson.indented)] }
  let blocked : Edit := .blocked "https://ads.net/x.js" none (some 5)
  constructor
  · intro h
    have hfirst := h d "statistics.json" 100 20480 [.request, blocked] [] .request [blocked] rfl
    exact absurd hfirst.totalRequests (by decide +kernel)
  · intro h
    have hgoes := h d "statistics.json" 100 20480 [.request, blocked]
    exact absurd hgoes (by rw [NeverStops]; decide +kernel)

theorem neverFalls_iff_risesAlong (d : Disk) (path : String) (maxPages : Nat)
    (defaultBytes : UInt64) (edits : List Edit) :
    NeverFalls d path maxPages defaultBytes edits ↔
      RisesAlong (·.totalRequests) (ofDisk d path maxPages defaultBytes) edits ∧
      RisesAlong (·.totalBlocked) (ofDisk d path maxPages defaultBytes) edits ∧
      ∀ domain, RisesAlong (·.domainCount domain) (ofDisk d path maxPages defaultBytes) edits := by
  constructor
  · intro h
    refine ⟨fun before e since hsplit => ?_, fun before e since hsplit => ?_,
      fun domain before e since hsplit => ?_⟩
    all_goals
      have hstep := h before e since hsplit
      rw [value_after, value_after, List.foldl_append] at hstep
    · exact hstep.totalRequests
    · exact hstep.totalBlocked
    · exact hstep.domains domain
  · rintro ⟨hrequests, hblocked, hdomains⟩ before e since hsplit
    rw [value_after, value_after, List.foldl_append]
    exact ⟨hrequests before e since hsplit, hblocked before e since hsplit,
      risesAlong_bandwidthSavedBytes _ edits before e since hsplit,
      fun domain => hdomains domain before e since hsplit⟩

/-- What finds room at every edit goes up. -/
theorem CountsUp.risesAlong {value : StatisticsTracker → UInt64} {isCounted : Edit → Bool}
    (h : CountsUp value isCounted)
    (hnext : ∀ t e, t.HasRoom e → isCounted e = true → HasNext (value t))
    (hroom : Along HasRoom t edits) : RisesAlong value t edits := by
  intro before e since hsplit
  show value _ ≤ value (count _ e)
  rw [h]
  split
  · next hcounted =>
    exact (le_add_one_iff _).2 (hnext _ e (hroom before e since hsplit) hcounted)
  · exact UInt64.le_refl _

theorem neverFalls_of_along_hasRoom {d : Disk} {path : String} {maxPages : Nat}
    {defaultBytes : UInt64} (h : Along HasRoom (ofDisk d path maxPages defaultBytes) edits) :
    NeverFalls d path maxPages defaultBytes edits := by
  refine (neverFalls_iff_risesAlong ..).2 ⟨countsUp_totalRequests.risesAlong ?_ h,
    countsUp_totalBlocked.risesAlong ?_ h, fun domain =>
      (countsUp_domainCount domain).risesAlong ?_ h⟩
  · intro t e hroom hcounted
    cases e with
    | request => exact hroom
    | blocked | pageLoad | resetSession => cases hcounted
  · intro t e hroom hcounted
    cases e with
    | blocked url page size => exact hroom.1
    | request | pageLoad | resetSession => cases hcounted
  · intro t e hroom hcounted
    cases e with
    | blocked url page size => exact hroom.2.2.1 domain (of_decide_eq_true hcounted)
    | request | pageLoad | resetSession => cases hcounted

/-- Whatever counts were in the file and whatever is counted, in a build without overflow checks
    the numbers of requests are what was there at first and what was counted since, up to
    multiples of the number of words, and the saved bytes are the sum, or the greatest word if
    that is less. So no count ever goes back if and only if there is room in a word for all
    requests, for all blocked ones, and for those of every domain. A build with overflow checks
    stops if and only if some edit counts past the greatest word, in total, in the session, for a
    domain or for a page. Until then it has the same counts and the same files, and none of the
    counts has gone back. -/
theorem neverFalls_iff (d : Disk) (path : String) (maxPages : Nat) (defaultBytes : UInt64)
    (edits : List Edit) :
    let t := ofDisk d path maxPages defaultBytes
    let s' := (keeper path maxPages defaultBytes).after d edits
    let t' := s'.value
    let requests := t.totalRequests.toNat + edits.countP Edit.isRequest
    let blocked := t.totalBlocked.toNat + edits.countP Edit.isBlocked
    let onDomain domain := (t.domainCount domain).toNat + edits.countP (Edit.isBlockedOn domain)
    let saved := t.bandwidthSavedBytes.toNat + (edits.map (Edit.bytes defaultBytes)).sum
    (NeverFalls d path maxPages defaultBytes edits ↔
      requests < UInt64.size ∧ blocked < UInt64.size ∧ ∀ domain, onDomain domain < UInt64.size) ∧
    t'.totalRequests.toNat = requests % UInt64.size ∧
    t'.totalBlocked.toNat = blocked % UInt64.size ∧
    (∀ domain, (t'.domainCount domain).toNat = onDomain domain % UInt64.size) ∧
    t'.bandwidthSavedBytes.toNat = min saved (UInt64.size - 1) ∧
    (NeverStops d path maxPages defaultBytes edits ↔ Along HasRoom t edits) ∧
    (∀ r, checkedEdits (t, d) edits = some r → r = (t', s'.disk)) ∧
    (NeverStops d path maxPages defaultBytes edits →
      NeverFalls d path maxPages defaultBytes edits) := by
  intro t s' t' requests blocked onDomain saved
  have ht' : t' = edits.foldl count t := value_after d path maxPages defaultBytes edits
  have hchecked : GivesIf (Along HasRoom t edits) (t', s'.disk) (checkedEdits (t, d) edits) :=
    checkedEdits_givesIf path maxPages defaultBytes
      ((keeper path maxPages defaultBytes).opened d) edits
  have hstops : NeverStops d path maxPages defaultBytes edits ↔ Along HasRoom t edits :=
    hchecked.isSome_iff
  refine ⟨?_, ?_, ?_, fun domain => ?_, ?_, hstops, fun r hr => ((hchecked r).1 hr).2.symm,
    fun h => neverFalls_of_along_hasRoom (hstops.1 h)⟩
  · rw [neverFalls_iff_risesAlong, countsUp_totalRequests.risesAlong_iff,
      countsUp_totalBlocked.risesAlong_iff]
    simp only [(countsUp_domainCount _).risesAlong_iff]
    rfl
  · rw [ht']
    exact countsUp_totalRequests.toNat_foldl t edits
  · rw [ht']
    exact countsUp_totalBlocked.toNat_foldl t edits
  · rw [ht']
    exact (countsUp_domainCount domain).toNat_foldl t edits
  · rw [ht']
    exact bandwidthSavedBytes_foldl t edits

end StatisticsTracker

end ContentBlocking
