import ContentBlocking.Proofs.BlockDecision.Calls

/-!
# Pages that pass once

The user lets a page pass once, on whatever surface it is blocked next. So a blocked page
is loaded at most as often as the user has let it pass, unless it is on the whitelist.

* `Call.allows`, `Call.usesPass`: the user lets a page pass, and it passes because of that;
* `hasBypass_call`, `hasBypass_after`: whether a page is let pass;
* `passes_used_le`: as often as the user lets it pass, at most;
* `passes_only_if_allowed`: when a blocked page passes, and when the user is asked.
-/

namespace ContentBlocking.BlockDecisions

/-- The user lets the page pass once. -/
def Call.allows (b : BlockDecisions) (url : String) : Call → Bool
  | .continueOnce id => (b.take id).2.toOption.any (·.url == url)
  | _ => false

/-- The page was blocked, and the user does not let it pass any more. -/
def Call.usesPass (b : BlockDecisions) (url : String) : Call → Bool
  | .signal w id s url' code =>
    url' == url && b.hasBypass url && !(b.signal w id s url' code).1.hasBypass url
  | _ => false

/-- How often the user lets the page pass. -/
def allowed (b : BlockDecisions) (url : String) (calls : List Call) : Nat :=
  (b.moments calls).countP fun m => m.2.allows m.1 url

/-- How often that is used up. -/
def used (b : BlockDecisions) (url : String) (calls : List Call) : Nat :=
  (b.moments calls).countP fun m => m.2.usesPass m.1 url

variable {b b' : BlockDecisions} {c : Call} {w : Whitelist} {id : SessionId} {s : Surface}
  {url : String}

/-! ### Whether a page is let pass -/

theorem hasBypass_congr (h : b'.bypass = b.bypass) (url : String) :
    b'.hasBypass url = b.hasBypass url := by
  rw [hasBypass, h]
  rfl

theorem hasBypass_filter {url' : String} (h : b'.bypass = b.bypass.filter (· ≠ url')) :
    b'.hasBypass url = (b.hasBypass url && url != url') := by
  rw [Bool.eq_iff_iff]
  simp [hasBypass, h]

theorem hasBypass_cons {url' : String} (h : b'.bypass = url' :: b.bypass.filter (· ≠ url')) :
    b'.hasBypass url = (url' == url || b.hasBypass url) := by
  rw [Bool.eq_iff_iff]
  by_cases hurl : url' = url
  · simp [hasBypass, h, hurl]
  · simp [hasBypass, h, hurl, Ne.symm hurl]

theorem bypass_take (b : BlockDecisions) (id : SessionId) : (b.take id).1.bypass = b.bypass := by
  rcases b.take_cases id with htake | ⟨x, y, -, -, htake⟩ <;> rw [htake]

/-- The other answers of the user let no page pass a second time. -/
theorem bypass_whitelistPermanently (b : BlockDecisions) (id : SessionId) :
    (b.whitelistPermanently id).1.bypass = b.bypass := by
  rcases b.whitelistPermanently_cases id with
    heq | ⟨x, -, ⟨e, -, heq⟩ | ⟨domain, b', y, -, htake, heq⟩⟩ <;> rw [heq]
  have hbypass := b.bypass_take id
  rwa [htake] at hbypass

theorem bypass_cancel (b : BlockDecisions) (id : SessionId) :
    (b.cancel id).1.bypass = b.bypass := by
  rcases b.take_cases id with htake | ⟨x, y, -, -, htake⟩
  · rw [cancel_of_take_eq_error htake]
  · rw [cancel_of_take htake]

theorem hasBypass_signal (b : BlockDecisions) (w : Whitelist) (id : SessionId) (s : Surface)
    (url' : String) (code : Int) (url : String) : (b.signal w id s url' code).1.hasBypass url =
      (b.hasBypass url && !(Call.signal w id s url' code).usesPass b url) := by
  rw [Call.usesPass]
  rcases b.signal_cases w id s url' code with hsame | ⟨rfl, hnew, hpass⟩ | ⟨rfl, hnew, hpass⟩
  · rw [hsame]
    cases b.hasBypass url <;> simp
  · rw [signal_of_mayPass hnew hpass, hasBypass_filter rfl, bne_comm]
    cases b.hasBypass url <;> cases h : url' == url <;> simp [bne, h]
  · have hsame : (b.signal w id s url' blockedCode).1.hasBypass url = b.hasBypass url := by
      rw [signal_of_not_mayPass hnew hpass]
      exact hasBypass_congr rfl url
    rw [hsame]
    cases b.hasBypass url <;> simp

/-- The user lets a page pass from when it was allowed until that is used. -/
theorem hasBypass_call (b : BlockDecisions) (c : Call) (url : String) :
    (b.call c).1.hasBypass url = (c.allows b url || (b.hasBypass url && !c.usesPass b url)) := by
  cases c with
  | signal w id s url' code => exact b.hasBypass_signal w id s url' code url
  | continueOnce id =>
    show (withEffects (b.continueOnce id)).1.hasBypass url =
      ((b.take id).2.toOption.any (·.url == url) || (b.hasBypass url && !false))
    rw [Bool.not_false, Bool.and_true]
    rcases b.take_cases id with htake | ⟨x, y, -, -, htake⟩
    · rw [continueOnce_of_take_eq_error htake, htake]
      rfl
    · rw [continueOnce_of_take htake, htake]
      exact hasBypass_cons rfl
  | whitelistPermanently id =>
    exact (hasBypass_congr (b.bypass_whitelistPermanently id) url).trans (Bool.and_true _).symm
  | cancel id => exact (hasBypass_congr (b.bypass_cancel id) url).trans (Bool.and_true _).symm
  | close s =>
    rw [call, close_fst]
    exact (Bool.and_true _).symm

theorem usesPass_imp (h : c.usesPass b url = true) :
    b.hasBypass url = true ∧ (b.call c).1.hasBypass url = false := by
  cases c with
  | signal w id s url' code =>
    simp only [Call.usesPass, Bool.and_eq_true, Bool.not_eq_true'] at h
    exact ⟨h.1.2, h.2⟩
  | _ => cases h

/-- The user lets a page pass only if it was so before, or if it was allowed since. -/
theorem hasBypass_after {calls : List Call}
    (hno : ∀ m ∈ b.moments calls, m.2.allows m.1 url = false) (h : b.hasBypass url = false) :
    (b.after calls).hasBypass url = false := by
  induction calls generalizing b with
  | nil => exact h
  | cons c calls ih =>
    obtain ⟨hc, hcalls⟩ := List.forall_mem_cons.1 hno
    refine ih hcalls ?_
    rw [hasBypass_call, hc, h]
    rfl

/-! ### How often a page passes -/

theorem allowed_cons (b : BlockDecisions) (url : String) (c : Call) (calls : List Call) :
    b.allowed url (c :: calls) =
      (b.call c).1.allowed url calls + if c.allows b url then 1 else 0 :=
  List.countP_cons

theorem used_cons (b : BlockDecisions) (url : String) (c : Call) (calls : List Call) :
    b.used url (c :: calls) = (b.call c).1.used url calls + if c.usesPass b url then 1 else 0 :=
  List.countP_cons

theorem passes_used_le_call (b : BlockDecisions) (c : Call) (url : String) :
    (if c.usesPass b url then 1 else 0) + (if (b.call c).1.hasBypass url then 1 else 0) ≤
      (if c.allows b url then 1 else 0) + (if b.hasBypass url then 1 else 0) := by
  have huses (h : c.usesPass b url = true) : b.hasBypass url = true := (usesPass_imp h).1
  rw [hasBypass_call]
  grind

/-- A page has passed as often as the user has allowed it, at most, and not so often if
    the user lets it pass now. -/
theorem passes_used_le (b : BlockDecisions) (url : String) (calls : List Call) :
    b.used url calls + (if (b.after calls).hasBypass url then 1 else 0) ≤
      b.allowed url calls + (if b.hasBypass url then 1 else 0) := by
  induction calls generalizing b with
  | nil => exact Nat.le_refl _
  | cons c calls ih =>
    have hcall := passes_used_le_call b c url
    have hcalls := ih (b.call c).1
    rw [used_cons, allowed_cons]
    change _ + (if ((b.call c).1.after calls).hasBypass url then 1 else 0) ≤ _
    omega

/-! ### What a failed navigation leads to -/

theorem mayPass_of_reload {code : Int} (h : .reload s url ∈ (b.signal w id s url code).2) :
    b.MayPass w url := by
  rcases b.signal_cases w id s url code with hsame | ⟨-, -, hpass⟩ | ⟨rfl, hnew, hpass⟩
  · rw [hsame] at h
    cases h
  · exact hpass
  · have hclose : .reload s url ∉ (b.close s).2 := not_mem_close (by simp)
    rw [signal_of_not_mayPass hnew hpass] at h
    simp [hclose] at h

theorem exists_sessionOn?_of_signal (h : ¬b.MayPass w url) (id : SessionId) (s : Surface) :
    ∃ x, (b.signal w id s url blockedCode).1.sessionOn? s = some x ∧ x.url = url := by
  by_cases hnew : b.IsNewOn s url
  · rw [signal_of_not_mayPass hnew h]
    exact ⟨⟨id, s, url⟩, sessionOn?_of_set rfl, rfl⟩
  · rw [signal_of_not fun _ => hnew]
    rw [IsNewOn] at hnew
    push Not at hnew
    exact hnew

/-- Whatever the decisions are asked to do, a page that was blocked is loaded only if it
    is on the whitelist, or if the user has let it pass more often than that was used.
    When that has been used, and the user has not let the page pass since, then the next
    time that it is blocked a decision about it is pending. -/
theorem passes_only_if_allowed (url : String) (calls : List Call) :
    (∀ w id s code, .reload s url ∈ ((after {} calls).signal w id s url code).2 →
      w.coversUrl url = true ∨ used {} url calls < allowed {} url calls) ∧
    ∀ before c between, calls = before ++ c :: between → c.usesPass (after {} before) url = true →
      (∀ m ∈ (after {} (before ++ [c])).moments between, m.2.allows m.1 url = false) →
      ∀ w id s, w.coversUrl url = false →
        ∃ x, ((after {} calls).signal w id s url blockedCode).1.sessionOn? s = some x ∧
          x.url = url := by
  constructor
  · intro w id s code hreload
    refine (mayPass_of_reload hreload).symm.imp_right fun hbypass => ?_
    have hle := passes_used_le {} url calls
    rw [if_pos hbypass] at hle
    exact hle
  · rintro before c between rfl huses hno w id s hcovers
    refine exists_sessionOn?_of_signal (not_or.2 ⟨?_, ?_⟩) id s
    · have hgone : (after {} (before ++ [c])).hasBypass url = false := by
        rw [after_append]
        exact (usesPass_imp huses).2
      rw [List.append_cons, after_append, hasBypass_after hno hgone]
      exact Bool.false_ne_true
    · rw [hcovers]
      exact Bool.false_ne_true

/-- The same page is blocked on two surfaces, and the user lets it pass on the first. -/
def blockedTwice : List Call :=
  [.signal {} ⟨1⟩ 1 "https://one.test/" blockedCode,
    .signal {} ⟨2⟩ 2 "https://one.test/" blockedCode,
    .continueOnce ⟨1⟩]

/-- It passes on a third surface, and after that the user is asked again. -/
theorem passes_only_if_allowed_blockedTwice :
    let b := after {} blockedTwice
    let signal : Call := .signal {} ⟨3⟩ 3 "https://one.test/" blockedCode
    .reload 3 "https://one.test/" ∈ (b.call signal).2 ∧
    used {} "https://one.test/" blockedTwice < allowed {} "https://one.test/" blockedTwice ∧
    signal.usesPass b "https://one.test/" = true ∧
    ∃ x, ((after {} (blockedTwice ++ signal :: [.cancel ⟨2⟩])).signal {} ⟨4⟩ 2 "https://one.test/"
      blockedCode).1.sessionOn? 2 = some x ∧ x.url = "https://one.test/" := by
  intro b signal
  have hreload : .reload 3 "https://one.test/" ∈ (b.call signal).2 := by decide +kernel
  have huses : signal.usesPass b "https://one.test/" = true := by decide +kernel
  refine ⟨hreload, ?_, huses, ?_⟩
  · have hcases := (passes_only_if_allowed "https://one.test/" blockedTwice).1 {} ⟨3⟩ 3 blockedCode
      hreload
    exact hcases.resolve_left (by decide +kernel)
  · refine (passes_only_if_allowed "https://one.test/" _).2 blockedTwice signal [.cancel ⟨2⟩] rfl
      huses ?_ {} ⟨4⟩ 2 (by decide +kernel)
    intro m hm
    obtain rfl := List.mem_singleton.1 hm
    rfl

end ContentBlocking.BlockDecisions
