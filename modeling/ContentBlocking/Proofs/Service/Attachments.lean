import ContentBlocking.Proofs.Artifact.StoreSurfaces
import ContentBlocking.Proofs.CompileRun
import ContentBlocking.Proofs.Service.Steps

/-!
# What runs on the surfaces of a service

However commands, runs and timers follow one another, a surface runs the
artifacts in force or nothing. It runs nothing while blocking is off, while it is
suspended and while it is not registered.

* `settled_step`: every step keeps up that surfaces run what their state says;
* `attached_after`: what the surfaces run after any events.
-/

namespace ContentBlocking

namespace Service

/-- The surfaces run what their states say. -/
def Settled (s : Service) : Prop := s.store.Settled s.isEnabled

variable {s : Service}

/-! ### Commands -/

theorem settled_reload (h : s.Settled) (surface : Surface) (url : String) :
    (s.reload surface url).Settled := by
  have hstore := ArtifactStore.Settled.suspend h surface
  exact hstore.congr rfl rfl rfl rfl

theorem settled_toggle (h : s.Settled) : s.toggle.Settled := by
  rw [toggle]
  cases hon : s.isEnabled with
  | true => exact ArtifactStore.Settled.detachAll h
  | false =>
    -- Nothing runs yet when blocking is turned on: the run that starts then applies rules.
    have hoff : s.store.Settled false := hon ▸ h
    exact hoff.enable true

theorem settled_register (h : s.Settled) (surface : Surface) : (s.register surface).Settled := by
  have hregister := ArtifactStore.Settled.register h surface
  rw [register]
  split
  · next store heq =>
    rw [heq] at hregister
    split
    · next hon =>
      -- Rules are applied at once only while blocking is on, and a new surface is not suspended.
      have hon : s.isEnabled = true := (Bool.and_eq_true_iff.1 hon).1
      have hsuspended := ArtifactStore.Settled.isSuspended_of_register h heq
      rw [hon] at hregister
      have happly := hregister.apply hsuspended
      rw [← hon] at happly
      exact happly
    · exact hregister
  · next store heq =>
    rw [heq] at hregister
    exact hregister

theorem keptByParts_settled : KeptByParts Settled where
  quiet s s' hq h := by
    rw [Settled, hq.isEnabled, hq.store]
    exact h.congr rfl rfl rfl rfl
  startRun _ _ _ _ h := h
  reload _ surface url h := settled_reload h surface url
  toggle _ h := settled_toggle h
  register _ surface h := settled_register h surface
  forget _ surface h := ArtifactStore.Settled.unregister h surface

/-! ### Runs and timers -/

theorem settled_changeRun (h : s.Settled) (generation : Nat) (change : CompileRun → CompileRun) :
    (s.changeRun generation change).Settled := by
  rw [changeRun]
  split <;> exact h

theorem settled_compileRun (h : s.Settled) (generation : Nat) :
    (s.compileRun generation).Settled := by
  rw [compileRun]
  split
  · next r _ =>
    exact h.congr rfl rfl rfl (r.compiles s.store.engine).goes.attachments
  · exact h

theorem settled_install (h : s.Settled) (generation : Nat) (artifacts : List Artifact) :
    (s.install generation artifacts).1.Settled := by
  rw [install]
  split
  · exact h
  · next store heq => exact ArtifactStore.Settled.install h heq

theorem settled_outcomeOf (h : s.Settled) (generation : Nat)
    (output : Except Failure RunOutput) : (s.outcomeOf generation output).1.Settled := by
  cases output with
  | error e => exact h
  | ok output =>
    -- The times of the downloads are noted first, which the surfaces do not see.
    have hmarked := keptByParts_settled.quiet _ _ (s.quiet_markUpdated output.refreshed) h
    exact settled_install hmarked generation output.artifacts

theorem settled_finishRun (h : s.Settled) (generation : Nat) :
    (s.finishRun generation).1.Settled := by
  rw [finishRun]
  split
  · next output _ =>
    have hstart : Settled { s with runs := s.runs.erase generation } := h
    have houtcome := settled_outcomeOf hstart generation output
    rw [finishWith]
    generalize outcomeOf _ generation output = outcome at houtcome
    obtain ⟨s', outcome⟩ := outcome
    dsimp only
    split <;> exact houtcome
  · exact h

theorem settled_reattach (h : s.Settled) (surface : Surface) (number : Nat) :
    (s.reattach surface number).Settled := by
  rw [reattach]
  split
  · next store heq =>
    obtain ⟨hresume, hsuspended⟩ := ArtifactStore.Settled.resume h heq
    show ArtifactStore.Settled s.isEnabled (if s.isEnabled then _ else _)
    -- While blocking is off the surface stays without rules.
    split
    · next hon =>
      rw [hon] at hresume ⊢
      exact hresume.apply hsuspended
    · exact hresume
  · exact h

/-! ### All steps -/

/-- Every step keeps up that the surfaces run what their states say. -/
theorem settled_step (s : Service) (event : Event) (h : s.Settled) : (s.step event).1.Settled := by
  cases event with
  | command t c => exact keptByParts_settled.handle h t c
  | lookUp generation => exact settled_changeRun h generation _
  | beginList generation now i => exact settled_changeRun h generation _
  | finishList generation now i reply =>
    rw [step, finishList]
    split <;> exact h
  | compileRun generation => exact settled_compileRun h generation
  | finishRun generation => exact settled_finishRun h generation
  | elapse ms => exact s.elapse_induction ms (fun _ => h) fun _ surface number h =>
    settled_reattach h surface number
  | reattach r =>
    rw [step]
    split
    · exact settled_reattach (s := { s with reattachments := s.reattachments.erase r }) h _ _
    · exact h
  | evict =>
    rw [step, evict]
    split <;> exact h
  | fail identifiers => exact h
  | files disk => exact h

theorem settled_of_fresh {around : Surroundings} (hs : Fresh around s)
    (hnone : ∀ x, around.engine.attached x = []) : s.Settled := by
  intro x
  -- No surface is registered, and the engine has nothing attached.
  rw [hs.store]
  show ArtifactStore.Fits _ _ none false (around.engine.attached x)
  rw [hnone]
  exact .unknown

/-- After any events, each surface runs the artifacts in force in their order or
    nothing. -/
theorem attached_after {config : Config} {around : Surroundings} {first : SessionId}
    {s₀ : Service} (hstart : start config around first = .ok s₀)
    (hnone : ∀ x, around.engine.attached x = []) (events : List Event) (x : Surface) :
    let s := s₀.after events
    let inForce := s.store.current.map (·.identifier)
    let attached := s.store.engine.attached x
    (attached = [] ∨ attached = inForce) ∧
      (s.isEnabled = false → attached = []) ∧
      (s.store.surfaceState x = none → attached = []) ∧
      (s.store.isSuspended x = true → attached = []) ∧
      (s.store.surfaceState x = some .rulesApplied → attached = inForce) ∧
      (s.store.surfaceState x = some .registered → attached = []) := by
  intro s inForce attached
  have hsettled : s.Settled := after_induction settled_step
    (settled_of_fresh (fresh_of_start hstart) hnone) events
  exact (hsettled x).runs

/-- The engine holds two artifacts of an earlier service, which may be used again. -/
def twoArtifacts : Surroundings where
  disk := ((Manifest.mk 1 ["shard_0", "shard_1"]).save {} (Config.artifactsPath {})).1
  engine := ((({} : Engine).compile "shard_0"
    (Payload.encode [⟨⟨"ads", ∅, none, none⟩, .block⟩])).1.compile "shard_1" "[]").1

/-- A run puts artifacts in force for two surfaces, and on one of them the user lets a
    page pass. -/
def passEvents : List Event :=
  [.command 1 (.register 3), .command 2 (.register 4), .command 3 .startUp, .lookUp 1,
    .finishRun 1, .command 4 (.reportBlock 4 "http://a.org" BlockDecisions.blockedCode),
    .command 5 (.continueOnce .nil)]

/-- The first surface runs the artifacts in force, and the second one is suspended. -/
structure IsDivided (s : Service) : Prop where
  isEnabled : s.isEnabled = true
  inForce : s.store.current.map (·.identifier) = ["shard_0", "shard_1"]
  runs : s.store.surfaceState 3 = some .rulesApplied
  attached : s.store.engine.attached 3 = ["shard_0", "shard_1"]
  registered : s.store.surfaceState 4 = some .registered
  suspended : s.store.isSuspended 4 = true

instance (s : Service) : Decidable s.IsDivided :=
  decidable_of_iff (s.isEnabled = true ∧
      s.store.current.map (·.identifier) = ["shard_0", "shard_1"] ∧
      s.store.surfaceState 3 = some .rulesApplied ∧
      s.store.engine.attached 3 = ["shard_0", "shard_1"] ∧
      s.store.surfaceState 4 = some .registered ∧ s.store.isSuspended 4 = true)
    ⟨fun ⟨hon, hids, hruns, hattached, hregistered, hsuspended⟩ =>
      ⟨hon, hids, hruns, hattached, hregistered, hsuspended⟩,
    fun h => ⟨h.isEnabled, h.inForce, h.runs, h.attached, h.registered, h.suspended⟩⟩

theorem attached_twoArtifacts (x : Surface) : twoArtifacts.engine.attached x = [] := by
  rw [twoArtifacts, Engine.attached_compile, Engine.attached_compile]
  rfl

theorem isDivided_passEvents :
    ∀ s₀ ∈ (start {} twoArtifacts .nil).toOption, (s₀.after passEvents).IsDivided := by
  decide +kernel

/-- One surface runs what a run has put in force and another one is suspended; then
    blocking is turned off. -/
theorem attached_after_pass : ∃ s₀, start {} twoArtifacts .nil = .ok s₀ ∧
    (s₀.after passEvents).IsDivided ∧
    ∀ events ∈ [passEvents, passEvents ++ [.command 6 .toggle]], ∀ x,
      let s := s₀.after events
      let inForce := s.store.current.map (·.identifier)
      let attached := s.store.engine.attached x
      (attached = [] ∨ attached = inForce) ∧
        (s.isEnabled = false → attached = []) ∧
        (s.store.surfaceState x = none → attached = []) ∧
        (s.store.isSuspended x = true → attached = []) ∧
        (s.store.surfaceState x = some .rulesApplied → attached = inForce) ∧
        (s.store.surfaceState x = some .registered → attached = []) := by
  obtain ⟨s₀, hstart⟩ := exists_start (show Config.validate {} = .ok {} from rfl) twoArtifacts .nil
  exact ⟨s₀, hstart, isDivided_passEvents s₀ (by rw [hstart]; rfl), fun events _ =>
    attached_after hstart attached_twoArtifacts events⟩

end Service

end ContentBlocking
