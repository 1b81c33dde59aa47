import ContentBlocking.Proofs.Artifact.SuspensionNumbers
import ContentBlocking.Proofs.Service.Suspensions

/-!
# Suspensions that are lifted

When a page is let pass its surface is suspended, and the suspension is to be lifted under its
number some time later. Until then the surface may be suspended again, or be forgotten and
registered anew, so that several numbers are pending for it. They come up in any order, but only
the one that was noted last lifts anything.

* `Service.Timed`: pending numbers are in order, and none is greater than that of the surface;
* `timed_step`: every step keeps that up;
* `Service.IsLatest`: no later number is pending for the same surface;
* `only_newest_suspension_is_lifted`: which number lifts a suspension, in the store after any
  calls and in the service after any events.
-/

namespace ContentBlocking

namespace Service

variable {s s' : Service} {r : Reattachment}

/-- The pending numbers are in the order in which they were given, and a surface that is
    suspended is so under the greatest of those that are pending for it. -/
structure Timed (s : Service) : Prop where
  ascending : (s.reattachments.map (·.number)).Pairwise (· < ·)
  given : ∀ r ∈ s.reattachments, r.number ≤ s.store.suspensions
  greatest : ∀ x number, s.store.suspended.get? x = some number →
    ∀ r ∈ s.reattachments, r.surface = x → r.number ≤ number

/-- What frees surfaces of suspensions at most, and adds no number, keeps that up. -/
theorem Timed.frees (h : s.Timed) (hstore : s.store.Frees s'.store)
    (hpending : s'.reattachments.Sublist s.reattachments) : s'.Timed where
  ascending := h.ascending.sublist (hpending.map _)
  given r hr := by
    rw [hstore.suspensions]
    exact h.given r (hpending.subset hr)
  greatest x number hx r hr :=
    h.greatest x number (hstore.suspended x number hx) r (hpending.subset hr)

theorem Timed.frees_of_eq (h : s.Timed) (hstore : s.store.Frees s'.store)
    (hpending : s'.reattachments = s.reattachments) : s'.Timed :=
  h.frees hstore (hpending ▸ List.Sublist.refl _)

/-! ### Parts of steps -/

/-- A surface that is suspended anew gets a greater number than all that are pending. -/
theorem timed_reload (h : s.Timed) (surface : Surface) (url : String) :
    (s.reload surface url).Timed := by
  have hmoves := s.store.moves_suspend surface
  rw [reload]
  generalize s.store.suspend surface = suspended at hmoves ⊢
  obtain ⟨store, number⟩ := suspended
  cases hmoves with
  | other ends hnumber suspended suspensions knows =>
    obtain rfl : number = none := hnumber
    have hfrees : s.store.Frees store :=
      ArtifactStore.frees_of_suspended_eq suspensions suspended
    exact h.frees_of_eq ⟨hfrees.suspensions, hfrees.suspended⟩ rfl
  | suspend known suspended suspensions knows =>
    have hnext : ∀ r ∈ s.reattachments, r.number < s.store.suspensions + 1 :=
      fun r hr => Nat.lt_succ_of_le (h.given r hr)
    refine ⟨?_, fun r hr => ?_, fun x number hx r hr hsurface => ?_⟩
    · dsimp only
      rw [List.map_append, List.pairwise_append]
      refine ⟨h.ascending, List.pairwise_singleton _ _, fun n hn m hm => ?_⟩
      obtain ⟨r, hr, rfl⟩ := List.mem_map.1 hn
      obtain rfl := List.mem_singleton.1 hm
      exact hnext r hr
    · show r.number ≤ store.suspensions
      rw [suspensions]
      rcases List.mem_append.1 hr with hr | hr
      · exact Nat.le_of_lt (hnext r hr)
      · exact Nat.le_of_eq (congrArg Reattachment.number (List.mem_singleton.1 hr))
    · have hx : store.suspended.get? x = some number := hx
      rw [suspended, Table.get?_set] at hx
      split at hx
      · obtain rfl := Option.some.inj hx
        rcases List.mem_append.1 hr with hr | hr
        · exact Nat.le_of_lt (hnext r hr)
        · exact Nat.le_of_eq (congrArg Reattachment.number (List.mem_singleton.1 hr))
      · next hne =>
        rcases List.mem_append.1 hr with hr | hr
        · exact h.greatest x number hx r hr hsurface
        · obtain rfl := List.mem_singleton.1 hr
          exact absurd hsurface.symm hne

theorem frees_register (s : Service) (surface : Surface) :
    s.store.Frees (s.register surface).store := by
  have hregister : s.store.Frees (s.store.register surface).1 :=
    s.store.frees_call (c := .register surface) rfl
  rw [register]
  split
  · next store heq =>
    rw [heq] at hregister
    split
    · exact hregister.trans (store.frees_call (c := .apply surface) rfl)
    · exact hregister
  · next store heq =>
    rw [heq] at hregister
    exact hregister

theorem frees_ended (st : ArtifactStore) (enabled : Bool) (g : Nat)
    (output : Except Failure RunOutput) : st.Frees (st.ended enabled g output) := by
  cases output with
  | error e => exact .refl st
  | ok output =>
    rw [ArtifactStore.ended]
    dsimp only
    split
    · exact .refl st
    · split
      · let st' := { st with current := output.artifacts, installedGeneration := g }
        have hinstall : st.Frees st' := ArtifactStore.frees_of_suspended_eq rfl rfl
        exact hinstall.trans (st'.frees_call (c := .applyAll) rfl)
      · exact ArtifactStore.frees_of_suspended_eq rfl rfl

theorem frees_reattach (s : Service) (surface : Surface) (number : Nat) :
    s.store.Frees (s.reattach surface number).store := by
  have hresume : s.store.Frees (s.store.resume surface number).1 :=
    s.store.frees_call (c := .resume surface number) rfl
  rw [reattach]
  split
  · next store heq =>
    rw [heq] at hresume
    show s.store.Frees (if s.isEnabled then (store.apply surface).1 else store)
    split
    · exact hresume.trans (store.frees_call (c := .apply surface) rfl)
    · exact hresume
  · exact .refl s.store

theorem reattachments_reattach (s : Service) (surface : Surface) (number : Nat) :
    (s.reattach surface number).reattachments = s.reattachments := by
  rw [reattach]
  split <;> rfl

theorem timed_reattach (h : s.Timed) (surface : Surface) (number : Nat) :
    (s.reattach surface number).Timed :=
  h.frees_of_eq (s.frees_reattach surface number) (s.reattachments_reattach surface number)

theorem keptByParts_timed : KeptByParts Timed where
  quiet s s' hq h := by
    refine h.frees_of_eq ?_ hq.reattachments
    rw [hq.store]
    exact ArtifactStore.frees_of_suspended_eq rfl rfl
  startRun _ _ _ _ h := ⟨h.ascending, h.given, h.greatest⟩
  reload _ surface url h := timed_reload h surface url
  toggle s h := by
    have hfrees : s.store.Frees s.toggle.store := by
      rw [toggle]
      split
      · exact .refl s.store
      · exact s.store.frees_call (c := .detachAll) rfl
    refine h.frees_of_eq hfrees ?_
    rw [toggle]
    split <;> rfl
  register s surface h :=
    h.frees_of_eq (s.frees_register surface) (s.suspended_register surface).2
  forget s surface h :=
    h.frees_of_eq (s.store.frees_call (c := .unregister surface) rfl) rfl

/-! ### All steps -/

theorem timed_step (s : Service) (event : Event) (h : s.Timed) : (s.step event).1.Timed := by
  have hpart {g : Nat} (hrun : event.run? = some g) : (s.step event).1.Timed := by
    have hdoes := s.doesPart_step hrun
    generalize (s.step event).1 = s' at hdoes ⊢
    cases hdoes with
    | idle => exact h
    | part d e r r' before request attachments => exact ⟨h.ascending, h.given, h.greatest⟩
  cases event with
  | command t c => exact keptByParts_timed.handle h t c
  | lookUp g => exact hpart rfl
  | beginList g now i => exact hpart rfl
  | finishList g now i reply => exact hpart rfl
  | compileRun g => exact hpart rfl
  | finishRun g =>
    rw [step, finishRun]
    split
    · next output _ =>
      obtain ⟨registry, disk, waiters, heq⟩ := s.finishWith_eq g output
      rw [heq]
      exact h.frees_of_eq (frees_ended s.store s.isEnabled g output) rfl
    · exact h
  | elapse ms =>
    -- Of the numbers that were pending those stay whose time has not come.
    have hlater : (s.reattachments.partition fun r => r.due ≤ s.clock + ms).2.Sublist
        s.reattachments := by
      rw [List.partition_eq_filter_filter]
      exact List.filter_sublist
    refine lift_induction (P := Timed) (fun _ surface number hs => timed_reattach hs surface number)
      ?_ _
    exact h.frees (.refl s.store) hlater
  | reattach r =>
    rw [step]
    split
    · refine timed_reattach ?_ r.surface r.number
      exact h.frees (.refl s.store) List.erase_sublist
    · exact h
  | evict =>
    rw [step, evict]
    split
    · exact h
    · exact ⟨h.ascending, h.given, h.greatest⟩
  | fail identifiers => exact ⟨h.ascending, h.given, h.greatest⟩
  | files disk => exact ⟨h.ascending, h.given, h.greatest⟩

/-- At first nothing is suspended, and no number is pending. -/
theorem timed_of_start {config : Config} {around : Surroundings} {first : SessionId}
    (h : start config around first = .ok s) : s.Timed := by
  rw [start] at h
  obtain ⟨config, -, h⟩ := exists_of_bind_eq_ok h
  obtain rfl := Except.ok.inj h
  exact ⟨List.Pairwise.nil, fun _ hr => absurd hr List.not_mem_nil, fun _ _ hx => by cases hx⟩

/-! ### The number that was noted last -/

/-- The number is pending, and no later one is for the same surface. -/
def IsLatest (s : Service) (r : Reattachment) : Prop :=
  ∃ earlier later, s.reattachments = earlier ++ r :: later ∧ ∀ r' ∈ later, r'.surface ≠ r.surface

/-- Numbers that are noted later are greater. -/
theorem Timed.number_lt {r' : Reattachment} {earlier later : List Reattachment} (h : s.Timed)
    (hsplit : s.reattachments = earlier ++ r :: later) (hr' : r' ∈ later) :
    r.number < r'.number := by
  have hascending := h.ascending
  rw [hsplit, List.map_append, List.map_cons, List.pairwise_append] at hascending
  exact (List.pairwise_cons.1 hascending.2.1).1 _ (List.mem_map_of_mem hr')

/-- A surface that is suspended is so under the number that was noted last for it. -/
theorem Timed.number_eq_iff {x : Surface} {number : Nat} (h : s.Timed) (hpends : s.Pends [])
    (hx : s.store.suspended.get? x = some number) (hr : r ∈ s.reattachments)
    (hsurface : r.surface = x) : r.number = number ↔ s.IsLatest r := by
  constructor
  · rintro rfl
    obtain ⟨earlier, later, hsplit⟩ := List.append_of_mem hr
    refine ⟨earlier, later, hsplit, fun r' hr' hsame => ?_⟩
    have hmem : r' ∈ s.reattachments :=
      hsplit ▸ List.mem_append_right _ (List.mem_cons_of_mem _ hr')
    exact absurd (h.number_lt hsplit hr')
      (Nat.not_lt.2 (h.greatest x r.number hx r' hmem (hsame.trans hsurface)))
  · rintro ⟨earlier, later, hsplit, hlast⟩
    -- The number under which the surface is suspended is pending too: before `r` it would be less.
    obtain ⟨r', hr', rfl, rfl⟩ := hpends x number hx
    have hmem := hr'.resolve_left List.not_mem_nil
    rw [hsplit, List.mem_append, List.mem_cons] at hmem
    rcases hmem with hearlier | rfl | hlater
    · obtain ⟨front, middle, rfl⟩ := List.append_of_mem hearlier
      rw [List.append_assoc, List.cons_append] at hsplit
      exact absurd (h.number_lt hsplit (List.mem_append_right _ List.mem_cons_self))
        (Nat.not_lt.2 (h.greatest r'.surface r'.number hx r hr hsurface))
    · rfl
    · exact absurd hsurface.symm (hlast r' hlater)

/-- A number lifts the suspension that has it, and no other one. -/
theorem suspended_reattach (s : Service) (surface x : Surface) (number : Nat) :
    (s.reattach surface number).store.suspended.get? x =
      if x = surface ∧ s.store.suspended.get? x = some number then none
      else s.store.suspended.get? x := by
  rw [reattach]
  split
  · next store heq =>
    rw [ArtifactStore.resume] at heq
    split at heq
    · next hnumber =>
      obtain rfl := congrArg Prod.fst heq
      have hputs := ArtifactStore.puts_apply
        { s.store with suspended := s.store.suspended.erase surface } surface
      have herased : (if s.isEnabled then
            (ArtifactStore.apply { s.store with suspended := s.store.suspended.erase surface }
              surface).1
          else { s.store with suspended := s.store.suspended.erase surface }).suspended =
          s.store.suspended.erase surface := by
        split
        · exact hputs.suspended
        · rfl
      dsimp only
      rw [herased, Table.get?_erase]
      by_cases hx : x = surface
      · rw [if_pos hx, if_pos ⟨hx, hx ▸ hnumber⟩]
      · rw [if_neg hx, if_neg fun h => hx h.1]
    · cases heq
  · next store heq =>
    rw [ArtifactStore.resume] at heq
    split at heq
    · cases heq
    · next hother =>
      refine (if_neg ?_).symm
      rintro ⟨rfl, hnumber⟩
      exact hother hnumber

/-- Numbers that come up one after the other lift the suspension that has one of them. -/
theorem suspended_lift {x : Surface} (due : List Reattachment) :
    (s.lift due).store.suspended.get? x = none ↔ s.store.suspended.get? x = none ∨
      ∃ r ∈ due, r.surface = x ∧ s.store.suspended.get? x = some r.number := by
  induction due generalizing s with
  | nil => simp [lift]
  | cons r due ih =>
    rw [lift, List.foldl_cons, ← lift, ih, suspended_reattach]
    by_cases hr : x = r.surface ∧ s.store.suspended.get? x = some r.number
    · rw [if_pos hr]
      exact iff_of_true (.inl rfl) (.inr ⟨r, List.mem_cons_self, hr.1.symm, hr.2⟩)
    · have hother : ¬(r.surface = x ∧ s.store.suspended.get? x = some r.number) := fun h =>
        hr (h.imp_left Eq.symm)
      rw [if_neg hr, List.exists_mem_cons_iff, or_iff_right hother]

/-- What a surface that is suspended is once some of the pending numbers have come up. -/
theorem isSuspended_lift {x : Surface} (h : s.Timed) (hpends : s.Pends [])
    (hx : s.store.isSuspended x = true) (s' : Service) (due : List Reattachment)
    (hstore : s'.store = s.store) (hdue : ∀ r ∈ due, r ∈ s.reattachments) :
    (s'.lift due).store.isSuspended x = false ↔ ∃ r ∈ due, r.surface = x ∧ s.IsLatest r := by
  obtain ⟨number, hnumber⟩ := Option.isSome_iff_exists.1 hx
  have hlatest : ∀ r ∈ due, r.surface = x ∧ s'.store.suspended.get? x = some r.number ↔
      r.surface = x ∧ s.IsLatest r := by
    intro r hr
    refine and_congr_right fun hsurface => ?_
    rw [hstore, hnumber, Option.some.injEq, eq_comm]
    exact h.number_eq_iff hpends hnumber (hdue r hr) hsurface
  rw [ArtifactStore.isSuspended, Table.has, Option.isSome_eq_false_iff, Option.isNone_iff_eq_none,
    suspended_lift, or_iff_right (by rw [hstore, hnumber]; exact Option.some_ne_none _)]
  exact exists_congr fun r => and_congr_right fun hr => hlatest r hr

/-- Only the number of the newest suspension of a surface lifts it. The store resumes a surface
    under the number of its latest suspension, if the surface was neither forgotten nor resumed
    since; under a number that was given before it resumes nothing, on no surface. In the service,
    pending numbers come up early or late, alone or with others, and of those only the one that
    was noted last for a surface lifts its suspension. -/
theorem only_newest_suspension_is_lifted (engine : Engine) (shell : Shell)
    (calls : List ArtifactStore.Call) (config : Config) (around : Surroundings)
    (first : SessionId) (events : List Event) :
    let store₀ : ArtifactStore := { engine := engine, shell := shell }
    let resumes := fun x number => ((store₀.after calls).resume x number).2
    (∀ x number,
      resumes x number = true ↔ ArtifactStore.IsNewest (store₀.log calls) x number) ∧
    (∀ before since y number,
      store₀.log calls = before ++ ⟨.suspend y, .number (some number)⟩ :: since →
      (∀ x, x ≠ y → resumes x number = false) ∧
      ((∃ e ∈ since, e.ends y = true) → ∀ x, resumes x number = false)) ∧
    ∀ s₀, start config around first = .ok s₀ →
      let s := s₀.after events
      ∀ x, s.store.isSuspended x = true →
        (∀ r ∈ s.reattachments, (s.step (.reattach r)).1.store.isSuspended x = false ↔
          r.surface = x ∧ s.IsLatest r) ∧
        ∀ ms, (s.step (.elapse ms)).1.store.isSuspended x = false ↔
          ∃ r ∈ s.reattachments, r.surface = x ∧ s.IsLatest r ∧ r.due ≤ s.clock + ms := by
  have hreplays := ArtifactStore.Replays.after engine shell calls
  refine ⟨fun x number => hreplays.resume_iff, fun before since y number hsplit => ⟨?_, ?_⟩, ?_⟩
  · intro x hne
    rw [Bool.eq_false_iff]
    exact fun hresumes => hne (hreplays.of_resume hsplit hresumes).1
  · rintro ⟨e, he, hends⟩ x
    rw [Bool.eq_false_iff]
    intro hresumes
    rw [(hreplays.of_resume hsplit hresumes).2 e he] at hends
    cases hends
  · intro s₀ hstart s x hx
    have htimed : s.Timed :=
      after_induction timed_step (timed_of_start hstart) events
    have hpends : s.Pends [] :=
      after_induction pends_step (pends_of_fresh (fresh_of_start hstart)) events
    clear_value s
    refine ⟨fun r hr => ?_, fun ms => ?_⟩
    · have hone := isSuspended_lift htimed hpends hx
        { s with reattachments := s.reattachments.erase r } [r] rfl
        fun r' hr' => List.mem_singleton.1 hr' ▸ hr
      rw [step, if_pos hr]
      simpa [lift] using hone
    · let later := (s.reattachments.partition fun r => r.due ≤ s.clock + ms).2
      have hdue : ∀ r, r ∈ (s.reattachments.partition fun r => r.due ≤ s.clock + ms).1 ↔
          r ∈ s.reattachments ∧ r.due ≤ s.clock + ms := by
        simp [List.partition_eq_filter_filter]
      refine (isSuspended_lift htimed hpends hx
        { s with clock := s.clock + ms, reattachments := later } _ rfl
        fun r hr => ((hdue r).1 hr).1).trans (exists_congr fun r => ?_)
      rw [hdue, and_assoc, and_comm (a := r.due ≤ s.clock + ms), and_assoc]

/-- A surface is suspended, forgotten, registered again and suspended again. -/
def forgottenCalls : List ArtifactStore.Call :=
  [.register 3, .suspend 3, .unregister 3, .register 3, .suspend 3]

/-- The same in the service: a page passes twice, and its tab is closed in between. -/
def forgottenEvents : List Event :=
  [.command 1 (.register 3), .command 2 (.reportBlock 3 "http://a.org" 104),
    .command 3 (.continueOnce .nil), .command 4 (.unregister 3), .command 5 (.register 3),
    .command 6 (.reportBlock 3 "http://b.org" 104), .command 7 (.continueOnce SessionId.nil.next)]

theorem pending_forgottenEvents : ∀ s ∈ (start {} {} .nil).toOption,
    (s.after forgottenEvents).store.isSuspended 3 = true ∧
      (s.after forgottenEvents).reattachments = [⟨2000, 3, 1⟩, ⟨2000, 3, 2⟩] := by
  decide +kernel

/-- The number from before the surface was forgotten lifts nothing. -/
theorem only_newest_suspension_is_lifted_forgotten :
    let st := ArtifactStore.after {} forgottenCalls
    (st.resume 3 1).2 = false ∧ (st.resume 3 2).2 = true ∧
    ∃ s₀, start {} {} .nil = .ok s₀ ∧
      let s := s₀.after forgottenEvents
      s.store.isSuspended 3 = true ∧
      (s.step (.reattach ⟨2000, 3, 1⟩)).1.store.isSuspended 3 = true ∧
      (s.step (.reattach ⟨2000, 3, 2⟩)).1.store.isSuspended 3 = false := by
  obtain ⟨hiff, hgiven, hservice⟩ :=
    only_newest_suspension_is_lifted {} {} forgottenCalls {} {} .nil forgottenEvents
  obtain ⟨s₀, hstart⟩ := exists_start (show Config.validate {} = .ok {} from rfl) {} .nil
  obtain ⟨hsuspended, hpending⟩ :=
    pending_forgottenEvents s₀ (hstart ▸ (rfl : some s₀ = some s₀))
  have hreattach := (hservice s₀ hstart 3 hsuspended).1
  rw [hpending] at hreattach
  refine ⟨(hgiven [⟨.register 3, .flag true⟩] _ 3 1 rfl).2
      ⟨⟨.unregister 3, .flag true⟩, List.mem_cons_self, rfl⟩ 3,
    (hiff 3 2).2 ⟨ArtifactStore.log {} (forgottenCalls.take 4), [], rfl,
      fun _ he => absurd he List.not_mem_nil⟩,
    s₀, hstart, hsuspended, ?_, ?_⟩
  · rw [← Bool.not_eq_false, hreattach _ List.mem_cons_self]
    rintro ⟨-, earlier, later, hsplit, hlast⟩
    rw [hpending] at hsplit
    rcases earlier with _ | ⟨r, _ | ⟨r', earlier⟩⟩
    · obtain rfl := (List.cons.inj hsplit).2
      exact hlast _ List.mem_cons_self rfl
    · simp at hsplit
    · simp at hsplit
  · refine (hreattach _ (List.mem_cons_of_mem _ List.mem_cons_self)).2 ⟨rfl, [⟨2000, 3, 1⟩], [], ?_⟩
    exact ⟨hpending, fun _ hr => absurd hr List.not_mem_nil⟩

end Service

end ContentBlocking
