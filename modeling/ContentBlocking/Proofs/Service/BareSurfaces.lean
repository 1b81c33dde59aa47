import ContentBlocking.Proofs.Service.Attachments
import ContentBlocking.Proofs.Service.RunNumbers
import ContentBlocking.Proofs.Service.Suspensions

/-!
# Surfaces that are left bare

To turn blocking on applies no rules. The run that it starts does, but only when its
artifacts are put in force, and if the run fails then the surfaces are left bare,
although blocking is on and there are artifacts in force.

* `Service.IsBare`: the surfaces on which nothing was applied since blocking was
  turned on;
* `Service.Turns`: what a step does to the surfaces;
* `attached_iff_not_bare`: the surfaces that run the artifacts in force.
-/

namespace ContentBlocking

namespace Service

/-- The surfaces that are bare after a step from `s` to `s'`: they were so before, or
    blocking was off, and now it is on. They are awake, and nothing has been put in
    force. -/
def stillBare (s s' : Service) (bare : Surface → Prop) (x : Surface) : Prop :=
  (s.isEnabled = false ∨ bare x) ∧ s'.isEnabled = true ∧ s'.store.IsAwake x ∧
    s'.store.installedGeneration = s.store.installedGeneration

/-- The surfaces that are bare after some events, if these were before. -/
def bareAfter (s : Service) (bare : Surface → Prop) : List Event → Surface → Prop
  | [] => bare
  | event :: events =>
    (s.step event).1.bareAfter (stillBare s (s.step event).1 bare) events

/-- Some of the events has turned blocking on, and it has been on since. Ever since
    the surface was registered and not suspended, and nothing was put in force. -/
def IsBare (s : Service) (events : List Event) (x : Surface) : Prop :=
  s.bareAfter (fun _ => False) events x

variable {s s' : Service}

/-! ### What a step does to the surfaces -/

/-- What a step does to the surfaces. -/
inductive Turns (s s' : Service) : Prop
  | lulls (isEnabled : s'.isEnabled = s.isEnabled) (store : s.store.Lulls s'.store)
  | wakes (isEnabled : s'.isEnabled = s.isEnabled) (store : s.store.Wakes s.isEnabled s'.store)
  | installs (isEnabled : s'.isEnabled = s.isEnabled) (g : Nat)
      (unlike : g ≠ s.store.installedGeneration) (store : Installs s.isEnabled s.store g s'.store)
  | off (isEnabled : s'.isEnabled = false)
  /-- No rules are applied when blocking is turned on, but a run starts. -/
  | on (isEnabled : s.isEnabled = false) (store : s'.store = s.store) (g : Nat) (r : CompileRun)
      (run : s'.runs.get? g = some r) (latest : s.store.installedGeneration < g)

/-- Most commands put surfaces to sleep, but wake none up. -/
theorem keptByMostParts_lulls (s₀ : Service) :
    KeptByMostParts fun s => s.isEnabled = s₀.isEnabled ∧ s₀.store.Lulls s.store where
  quiet s s' hq h := by
    refine ⟨hq.isEnabled.trans h.1, h.2.trans ?_⟩
    rw [hq.store]
    exact s.store.lulls_of_attachments s.store.engine _ rfl
  startRun _ _ _ _ h := h
  reload s surface _ h := by
    have hlulls := ArtifactStore.lulls_suspend s.store surface
    exact ⟨h.1, h.2.trans ⟨hlulls.1, hlulls.2, hlulls.3⟩⟩
  forget s surface h := ⟨h.1, h.2.trans (ArtifactStore.lulls_unregister s.store surface)⟩

theorem turns_toggle (hn : s.Numbered) (waiter : Option Waiter) :
    Turns s (s.toggle.startRun none false waiter) := by
  rw [toggle]
  cases hon : s.isEnabled with
  | true => exact .off rfl
  | false =>
    exact .on hon rfl (s.generation + 1) _ ((Table.get?_set _ _ _ _).trans (if_pos rfl))
      (Nat.lt_succ_of_le hn.installed)

theorem turns_register (h : s.Settled) (surface : Surface) : Turns s (s.register surface) := by
  have hregister := ArtifactStore.Settled.register h surface
  rw [register]
  split
  · next store heq =>
    have hrouses := ArtifactStore.rouses_register heq
    rw [heq] at hregister
    split
    · exact .wakes rfl (hrouses.wakes_apply _)
    · next hnot =>
      refine .wakes rfl (hrouses.wakes fun hon => ?_)
      -- Blocking is on, so nothing is in force and there is nothing to apply.
      have hnone : store.current = [] := by simpa [hon] using hnot
      have hids : store.identifiers = [] := by rw [ArtifactStore.identifiers, hnone, List.map_nil]
      have hruns := (hregister surface).runs.1
      rw [hids] at hruns ⊢
      exact hruns.elim id id
  · next store heq =>
    -- The surface was registered before.
    have hsame : store = s.store := by
      rw [ArtifactStore.register] at heq
      split at heq
      · exact (congrArg Prod.fst heq).symm
      · cases heq
    exact .lulls rfl (hsame ▸ s.store.lulls_refl)

theorem wakes_reattach (s : Service) (surface : Surface) (number : Nat) :
    (s.reattach surface number).isEnabled = s.isEnabled ∧
      s.store.Wakes s.isEnabled (s.reattach surface number).store := by
  rw [reattach]
  split
  · next store heq =>
    have hrouses := ArtifactStore.rouses_resume heq
    refine ⟨rfl, ?_⟩
    show ArtifactStore.Wakes s.isEnabled s.store (if s.isEnabled then _ else _)
    split
    · exact hrouses.wakes_apply _
    · next hoff => exact hrouses.wakes fun hon => absurd hon hoff
  · exact ⟨rfl, ArtifactStore.wakes_refl _ _⟩

theorem wakes_lift (s : Service) (due : List Reattachment) :
    (s.lift due).isEnabled = s.isEnabled ∧ s.store.Wakes s.isEnabled (s.lift due).store := by
  refine lift_induction (P := fun s' => s'.isEnabled = s.isEnabled ∧
    s.store.Wakes s.isEnabled s'.store) (fun s' x number h => ?_)
    ⟨rfl, ArtifactStore.wakes_refl s.isEnabled s.store⟩ due
  obtain ⟨hon, hwakes⟩ := s'.wakes_reattach x number
  rw [h.1] at hon hwakes
  exact ⟨hon, h.2.trans hwakes⟩

theorem turns_step (h : s.Settled) (hn : s.Numbered) (event : Event) :
    Turns s (s.step event).1 := by
  have hstep := s.stepped event
  generalize (s.step event).1 = s' at hstep ⊢
  cases hstep with
  | command t c =>
    have hcommon (hc : c.IsCommon) : Turns s (s.handle t c).1 := by
      obtain ⟨hon, hlulls⟩ :=
        (keptByMostParts_lulls s).handle ⟨rfl, s.store.lulls_refl⟩ t hc
      exact .lulls hon hlulls
    cases c with
    | toggle => exact turns_toggle hn (some ⟨t, .enabled⟩)
    | register surface => exact turns_register h surface
    | _ => exact hcommon trivial
  | part g hpart =>
    cases hpart with
    | idle => exact .lulls rfl s.store.lulls_refl
    | part d e r r' before request attachments =>
      exact .lulls rfl (s.store.lulls_of_attachments e s.store.shell attachments)
  | finish g r output before done =>
    obtain ⟨registry, disk, waiters, heq⟩ := s.finishWith_eq g output
    rw [heq]
    rcases ended_cases s.store s.isEnabled g output with ⟨hsame, -⟩ | hinstalls
    · rw [hsame]
      exact .lulls rfl s.store.lulls_refl
    · exact .installs rfl g (hn.unlike g r before) hinstalls
  | lift clock due later pending =>
    obtain ⟨hon, hwakes⟩ := wakes_lift { s with clock := clock, reattachments := later } due
    exact .wakes hon hwakes
  | around disk evictions failing =>
    have hlulls := s.store.lulls_of_attachments { s.store.engine with failing := failing }
      s.store.shell rfl
    exact .lulls rfl hlulls

/-- While blocking is on, the surfaces that are awake run the artifacts in force,
    apart from the bare ones, which run nothing. -/
structure Covered (s : Service) (bare : Surface → Prop) : Prop where
  idle : ∀ x, bare x → s.store.IsAwake x ∧ s.store.engine.attached x = []
  others : s.isEnabled = true → ∀ x, s.store.IsAwake x → ¬bare x →
    s.store.engine.attached x = s.store.identifiers

theorem Covered.turns {bare : Surface → Prop} (h : s.Covered bare) (hs : s.Settled)
    (ht : Turns s s') : s'.Covered (stillBare s s' bare) := by
  -- While blocking stays on, a surface is bare if it was so and is still awake.
  have hbare (hon : s'.isEnabled = s.isEnabled) {x : Surface} (hx : stillBare s s' bare x) :
      bare x := by
    obtain ⟨hoff | hx, hon', -, -⟩ := hx
    · rw [hon, hoff] at hon'
      exact absurd hon' Bool.false_ne_true
    · exact hx
  cases ht with
  | lulls isEnabled store =>
    refine ⟨fun x hx => ?_, fun hon x hx hnot => ?_⟩
    · have hawake := hx.2.2.1
      exact ⟨hawake, (store.awake x hawake).2.trans (h.idle x (hbare isEnabled hx)).2⟩
    · obtain ⟨hawake, hattached⟩ := store.awake x hx
      have hnot' : ¬bare x := fun hx' => hnot ⟨.inr hx', hon, hx, store.installedGeneration⟩
      rw [hattached, h.others (isEnabled ▸ hon) x hawake hnot', ArtifactStore.identifiers,
        ArtifactStore.identifiers, store.current]
  | wakes isEnabled store =>
    refine ⟨fun x hx => ?_, fun hon x hx hnot => ?_⟩
    · obtain ⟨hawake, hnone⟩ := h.idle x (hbare isEnabled hx)
      obtain ⟨hawake', hattached⟩ := store.awake x hawake
      exact ⟨hawake', hattached.trans hnone⟩
    · by_cases hawake : s.store.IsAwake x
      · have hnot' : ¬bare x := fun hx' => hnot ⟨.inr hx', hon, hx, store.installedGeneration⟩
        rw [(store.awake x hawake).2, h.others (isEnabled ▸ hon) x hawake hnot',
          ArtifactStore.identifiers, ArtifactStore.identifiers, store.current]
      · exact store.woken (isEnabled ▸ hon) x hawake hx
  | installs isEnabled g unlike store =>
    refine ⟨fun x hx => ?_, fun hon x hx _ => store.attached (isEnabled ▸ hon) x hx⟩
    exact absurd (store.installedGeneration.symm.trans hx.2.2.2) unlike
  | off isEnabled =>
    refine ⟨fun x hx => ?_, fun hon => ?_⟩
    · exact absurd (isEnabled.symm.trans hx.2.1) Bool.false_ne_true
    · exact absurd (isEnabled.symm.trans hon) Bool.false_ne_true
  | on isEnabled store g r run latest =>
    -- Nothing ran while blocking was off, and every surface that is awake is bare.
    refine ⟨fun x hx => ⟨hx.2.2.1, ?_⟩, fun hon x hx hnot => ?_⟩
    · rw [store]
      exact (hs x).runs.2.1 isEnabled
    · exact absurd ⟨.inl isEnabled, hon, hx, congrArg _ store⟩ hnot

theorem covered_of_fresh {around : Surroundings} (h : Fresh around s) :
    s.Covered fun _ => False where
  idle _ := False.elim
  others _ x hx := by
    -- No surface is registered.
    have hknows := hx.1
    rw [h.store] at hknows
    cases hknows

theorem Covered.after (hs : s.Settled) (hn : s.Numbered) {bare : Surface → Prop}
    (h : s.Covered bare) (events : List Event) :
    (s.after events).Covered (s.bareAfter bare events) := by
  induction events generalizing s bare with
  | nil => exact h
  | cons event events ih =>
    exact ih (settled_step s event hs) (hn.step event) (h.turns hs (turns_step hs hn event))

/-! ### Runs that fail -/

/-- As long as no run fails, a surface is bare only until a run in flight is over. -/
theorem exists_run_of_bare (hs : s.Settled) (hn : s.Numbered) {bare : Surface → Prop}
    (h : ∀ x, bare x → ∃ g r, s.runs.get? g = some r ∧ s.store.installedGeneration < g)
    {events : List Event} (hf : s.NoneFails events) {x : Surface} (hx : s.bareAfter bare events x) :
    ∃ g r, (s.after events).runs.get? g = some r := by
  induction events generalizing s bare with
  | nil =>
    obtain ⟨g, r, hr, -⟩ := h x hx
    exact ⟨g, r, hr⟩
  | cons event events ih =>
    refine ih (settled_step s event hs) (hn.step event) (fun y hy => ?_) hf.2 hx
    obtain ⟨hbare, hon, -, hsame⟩ := hy
    rcases hbare with hoff | hbare
    · -- Blocking was turned on, which started a run.
      have hturns := turns_step hs hn event
      have hchanged : (s.step event).1.isEnabled ≠ s.isEnabled := by simp [hon, hoff]
      cases hturns with
      | lulls isEnabled store => exact absurd isEnabled hchanged
      | wakes isEnabled store => exact absurd isEnabled hchanged
      | installs isEnabled g unlike store => exact absurd isEnabled hchanged
      | off isEnabled => exact absurd (isEnabled.symm.trans hon) Bool.false_ne_true
      | on isEnabled store g r run latest => exact ⟨g, r, run, hsame ▸ latest⟩
    · obtain ⟨g, r, hr, hg⟩ := h y hbare
      obtain ⟨r', hr'⟩ := exists_run_step hr hg hf.1 hsame
      exact ⟨g, r', hr', hsame ▸ hg⟩

/-! ### All events -/

/-- After any events, when blocking is on, no run is in flight and no suspension is
    to be lifted, a registered surface runs the artifacts in force exactly if there
    are none or it was not left bare. As long as no run fails, no surface is. -/
theorem attached_iff_not_bare {config : Config} {around : Surroundings} {first : SessionId}
    {s₀ : Service} (hstart : start config around first = .ok s₀)
    (hnone : ∀ x, around.engine.attached x = []) (events : List Event)
    (hon : (s₀.after events).isEnabled = true)
    (hruns : ∀ g, (s₀.after events).runs.get? g = none)
    (hcalm : (s₀.after events).reattachments = []) {x : Surface}
    (hx : (s₀.after events).store.surfaceState x ≠ none) :
    let s := s₀.after events
    let inForce := s.store.current.map (·.identifier)
    (s.store.engine.attached x = inForce ↔ s.store.current = [] ∨ ¬s₀.IsBare events x) ∧
      (s₀.NoneFails events → s.store.engine.attached x = inForce) := by
  intro s inForce
  have hfresh := fresh_of_start hstart
  have hsettled₀ : s₀.Settled := settled_of_fresh hfresh hnone
  have hnumbered₀ := numbered_of_fresh hfresh
  have hsettled : s.Settled := after_induction settled_step hsettled₀ events
  have hcovered : s.Covered (s₀.IsBare events) :=
    (covered_of_fresh hfresh).after hsettled₀ hnumbered₀ events
  have hawake : s.store.IsAwake x := by
    refine ⟨Option.isSome_iff_ne_none.2 hx, ?_⟩
    rw [ArtifactStore.isSuspended, Table.has]
    cases hnumber : s.store.suspended.get? x with
    | none => rfl
    | some number =>
      -- The suspension would still have to be lifted.
      have hpends : s.Pends [] :=
        after_induction (P := (·.Pends [])) pends_step (pends_of_fresh hfresh) events
      obtain ⟨r, hr | hr, -⟩ := hpends x number hnumber
      · exact absurd hr List.not_mem_nil
      · exact absurd (hcalm ▸ hr) List.not_mem_nil
  have hothers (hnot : ¬s₀.IsBare events x) : s.store.engine.attached x = inForce :=
    hcovered.others hon x hawake hnot
  refine ⟨⟨fun hattached => ?_, fun h => ?_⟩, fun hf => hothers fun hbare => ?_⟩
  · by_cases hbare : s₀.IsBare events x
    · refine .inl (List.map_eq_nil_iff.1 (hattached.symm.trans ?_))
      exact (hcovered.idle x hbare).2
    · exact .inr hbare
  · rcases h with hnil | hnot
    · -- There is nothing that could run.
      have hids : inForce = [] := List.map_eq_nil_iff.2 hnil
      rw [hids]
      exact (hsettled x).runs.1.elim id fun heq => heq.trans hids
    · exact hothers hnot
  · obtain ⟨g, r, hr⟩ := exists_run_of_bare hsettled₀ hnumbered₀ (fun _ => False.elim) hf hbare
    cases hr.symm.trans (hruns g)

/-- Blocking is off. The engine holds an artifact that may be used again, but will not
    compile any more. -/
def beforeFailure : Surroundings where
  disk := ((Manifest.mk 1 ["shard_0"]).save
    ((SettingsStore.mk (Config.settingsPath {}) { isEnabled := false }).save {}).1
    (Config.artifactsPath {})).1
  engine := { (({} : Engine).compile "shard_0" "[]").1 with failing := ["shard_0", "minimal"] }

/-- An artifact is in force when blocking is turned on, but the run that starts then
    fails. -/
def failureEvents : List Event :=
  [.command 1 (.register 3), .command 2 .startUp, .lookUp 1, .finishRun 1, .command 3 .toggle] ++
    findNoList 2 ++ toFinish 2 1

/-- All is over in the end, and nothing runs on the surface. -/
structure EndsBare (s : Service) : Prop where
  isEnabled : s.isEnabled = true
  runs : s.runs.isEmpty = true
  reattachments : s.reattachments = []
  surfaceState : s.store.surfaceState 3 = some .registered
  attached : s.store.engine.attached 3 = []
  inForce : s.store.current.map (·.identifier) = ["shard_0"]

instance (s : Service) : Decidable s.EndsBare :=
  decidable_of_iff (s.isEnabled = true ∧ s.runs.isEmpty = true ∧ s.reattachments = [] ∧
      s.store.surfaceState 3 = some .registered ∧ s.store.engine.attached 3 = [] ∧
      s.store.current.map (·.identifier) = ["shard_0"])
    ⟨fun ⟨hon, hruns, hcalm, hstate, hattached, hids⟩ =>
      ⟨hon, hruns, hcalm, hstate, hattached, hids⟩,
    fun h => ⟨h.isEnabled, h.runs, h.reattachments, h.surfaceState, h.attached, h.inForce⟩⟩

theorem attached_beforeFailure (x : Surface) : beforeFailure.engine.attached x = [] :=
  Engine.attached_compile {} "shard_0" "[]" x

theorem endsBare_failureEvents :
    ∀ s₀ ∈ (start {} beforeFailure .nil).toOption, (s₀.after failureEvents).EndsBare := by
  decide +kernel

theorem attached_iff_not_bare_failure : ∃ s₀, start {} beforeFailure .nil = .ok s₀ ∧
    (s₀.after failureEvents).EndsBare ∧ s₀.IsBare failureEvents 3 ∧
      ¬s₀.NoneFails failureEvents := by
  obtain ⟨s₀, hstart⟩ :=
    exists_start (show Config.validate {} = .ok {} from rfl) beforeFailure .nil
  have hends := endsBare_failureEvents s₀ (by rw [hstart]; rfl)
  obtain ⟨hiff, hfails⟩ := attached_iff_not_bare hstart attached_beforeFailure failureEvents
    hends.isEnabled (fun g => by rw [List.isEmpty_iff.1 hends.runs]; rfl) hends.reattachments
    (by rw [hends.surfaceState]; nofun)
  -- The surface runs nothing, so it cannot be one that was not left bare.
  have hnot : (s₀.after failureEvents).store.engine.attached 3 ≠
      (s₀.after failureEvents).store.current.map (·.identifier) := by
    rw [hends.attached, hends.inForce]
    decide
  refine ⟨s₀, hstart, hends, ?_, fun hf => hnot (hfails hf)⟩
  by_contra hbare
  exact hnot (hiff.2 (.inr hbare))

/-- Blocking may be on, with artifacts in force, while a registered surface runs
    nothing. -/
theorem not_forall_attached_current : ¬∀ (config : Config) (around : Surroundings)
    (first : SessionId) (s₀ : Service) (events : List Event),
    start config around first = .ok s₀ → (∀ x, around.engine.attached x = []) →
    (s₀.after events).isEnabled = true → (∀ g, (s₀.after events).runs.get? g = none) →
    (s₀.after events).reattachments = [] →
    ∀ x, (s₀.after events).store.surfaceState x ≠ none →
      (s₀.after events).store.engine.attached x =
        (s₀.after events).store.current.map (·.identifier) := by
  intro hall
  obtain ⟨s₀, hstart⟩ :=
    exists_start (show Config.validate {} = .ok {} from rfl) beforeFailure .nil
  have hends := endsBare_failureEvents s₀ (by rw [hstart]; rfl)
  have heq := hall {} beforeFailure .nil s₀ failureEvents hstart attached_beforeFailure
    hends.isEnabled (fun g => by rw [List.isEmpty_iff.1 hends.runs]; rfl) hends.reattachments 3
    (by rw [hends.surfaceState]; nofun)
  rw [hends.attached, hends.inForce] at heq
  cases heq

end Service

end ContentBlocking
