import ContentBlocking.Artifact.Store
import ContentBlocking.Proofs.Artifact.Attaching
import ContentBlocking.Proofs.Table

/-!
# What runs on the surfaces

A surface on which rules apply runs the artifacts in force, and any other runs
nothing. The operations of the store keep that up. To apply or detach puts some
registered surfaces into a state and leaves all others alone, so it is enough to
say which ones.

* `ArtifactStore.Puts`: some surfaces are put into a state;
* `ArtifactStore.Settled`: every surface runs what its state says;
* `Settled.install`, `Settled.suspend`, …: the operations keep that up.
-/

namespace ContentBlocking

namespace ArtifactStore

/-- The identifiers of the artifacts in force. -/
def identifiers (st : ArtifactStore) : List String := st.current.map (·.identifier)

/-- The surface is registered. -/
def Knows (st : ArtifactStore) (x : Surface) : Prop := (st.surfaceState x).isSome = true

/-! ### Surfaces that are put into a state -/

/-- The surfaces of `on` are put into a state in which they run `ids`. Nothing
    else happens. -/
structure Puts (st : ArtifactStore) (on : Surface → Prop) (state : SurfaceState)
    (ids : List String) (st' : ArtifactStore) : Prop where
  current : st'.current = st.current
  installedGeneration : st'.installedGeneration = st.installedGeneration
  engine : st.engine.SameButAttachments st'.engine
  suspended : st'.suspended = st.suspended
  knows : ∀ x, on x → st.Knows x
  state : ∀ x, on x → st'.surfaceState x = some state
  attached : ∀ x, on x → st'.engine.attached x = ids
  otherState : ∀ x, ¬on x → st'.surfaceState x = st.surfaceState x
  otherAttached : ∀ x, ¬on x → st'.engine.attached x = st.engine.attached x

variable {st st' st'' : ArtifactStore} {state : SurfaceState} {ids : List String}

theorem Puts.refl (st : ArtifactStore) (state : SurfaceState) (ids : List String) :
    st.Puts (fun _ => False) state ids st :=
  ⟨rfl, rfl, rfl, rfl, nofun, nofun, nofun, fun _ _ => rfl, fun _ _ => rfl⟩

theorem Puts.knows_iff {on : Surface → Prop} (h : st.Puts on state ids st') (x : Surface) :
    st'.Knows x ↔ st.Knows x := by
  by_cases hx : on x
  · -- A surface that is put into a state is registered before and after.
    simp [Knows, h.state x hx, show (st.surfaceState x).isSome = true from h.knows x hx]
  · rw [Knows, Knows, h.otherState x hx]

theorem Puts.trans {on on' : Surface → Prop} (h : st.Puts on state ids st')
    (h' : st'.Puts on' state ids st'') : st.Puts (fun x => on x ∨ on' x) state ids st'' where
  current := h'.current.trans h.current
  installedGeneration := h'.installedGeneration.trans h.installedGeneration
  engine := h.engine.trans h'.engine
  suspended := h'.suspended.trans h.suspended
  knows x hx := by
    rcases hx with hx | hx
    · exact h.knows x hx
    · exact (h.knows_iff x).1 (h'.knows x hx)
  state x hx := by
    -- Both changes put it into the same state, so it does not matter which one was last.
    by_cases hx' : on' x
    · exact h'.state x hx'
    · exact (h'.otherState x hx').trans (h.state x (hx.resolve_right hx'))
  attached x hx := by
    by_cases hx' : on' x
    · exact h'.attached x hx'
    · exact (h'.otherAttached x hx').trans (h.attached x (hx.resolve_right hx'))
  otherState x hx := by
    rw [not_or] at hx
    exact (h'.otherState x hx.2).trans (h.otherState x hx.1)
  otherAttached x hx := by
    rw [not_or] at hx
    exact (h'.otherAttached x hx.2).trans (h.otherAttached x hx.1)

theorem Puts.congr {on on' : Surface → Prop} (h : st.Puts on state ids st')
    (hon : ∀ x, on x ↔ on' x) : st.Puts on' state ids st' := by
  obtain rfl : on = on' := funext fun x => propext (hon x)
  exact h

theorem puts_apply (st : ArtifactStore) (x : Surface) :
    st.Puts (fun y => y = x ∧ st.Knows x) .rulesApplied st.identifiers (st.apply x).1 := by
  by_cases hx : st.surfaces.has x = true
  · have hattach : st.attachCurrent x = (st.engine.detachAll x).attachAll x st.current := rfl
    rw [apply, if_pos hx]
    refine ⟨rfl, rfl, ?_, rfl, ?_, ?_, ?_, ?_, ?_⟩
    · exact (Engine.detachAll_same _ _).trans (Engine.attachAll_same _ _ _)
    · rintro y ⟨rfl, hy⟩
      exact hy
    · rintro y ⟨rfl, -⟩
      rw [surfaceState, Table.get?_set, if_pos rfl]
    · rintro y ⟨rfl, -⟩
      rw [hattach, Engine.attached_attachAll, if_pos rfl, Engine.attached_detachAll, if_pos rfl]
      rfl
    · intro y hy
      rw [surfaceState, Table.get?_set, if_neg fun h => hy ⟨h, hx⟩]
      rfl
    · intro y hy
      have hne : y ≠ x := fun h => hy ⟨h, hx⟩
      rw [hattach, Engine.attached_attachAll, if_neg hne, Engine.attached_detachAll, if_neg hne]
  · rw [apply, if_neg hx]
    exact (Puts.refl st _ _).congr fun y => ⟨False.elim, fun h => hx h.2⟩

theorem puts_detach (st : ArtifactStore) (x : Surface) :
    st.Puts (fun y => y = x ∧ st.Knows x) .registered [] (st.detach x).1 := by
  by_cases hx : st.surfaces.has x = true
  · rw [detach, if_pos hx]
    refine ⟨rfl, rfl, rfl, rfl, ?_, ?_, ?_, ?_, ?_⟩
    · rintro y ⟨rfl, hy⟩
      exact hy
    · rintro y ⟨rfl, -⟩
      rw [surfaceState, Table.get?_set, if_pos rfl]
    · rintro y ⟨rfl, -⟩
      rw [Engine.attached_detachAll, if_pos rfl]
    · intro y hy
      rw [surfaceState, Table.get?_set, if_neg fun h => hy ⟨h, hx⟩]
      rfl
    · intro y hy
      rw [Engine.attached_detachAll, if_neg fun h => hy ⟨h, hx⟩]
  · rw [detach, if_neg hx]
    exact (Puts.refl st _ _).congr fun y => ⟨False.elim, fun h => hx h.2⟩

/-- Surfaces are put into a state one after the other. -/
theorem puts_foldl {op : ArtifactStore → Surface → ArtifactStore}
    (ids : List Artifact → List String)
    (hop : ∀ (st : ArtifactStore) x,
      st.Puts (fun y => y = x ∧ st.Knows x) state (ids st.current) (op st x))
    (surfaces : List Surface) (st : ArtifactStore) :
    st.Puts (fun y => y ∈ surfaces ∧ st.Knows y) state (ids st.current) (surfaces.foldl op st) := by
  induction surfaces generalizing st with
  | nil => exact (Puts.refl st _ _).congr fun y => by simp
  | cons x surfaces ih =>
    have hx := hop st x
    -- The first change leaves what is in force, so the others put surfaces into the same
    -- state.
    have hrest := ih (op st x)
    rw [hx.current] at hrest
    refine (hx.trans hrest).congr fun y => ?_
    rw [hx.knows_iff, List.mem_cons]
    grind

theorem puts_applyAll (st : ArtifactStore) :
    st.Puts (fun y => st.Knows y ∧ st.isSuspended y = false) .rulesApplied st.identifiers
      st.applyAll.1 := by
  refine (puts_foldl (List.map (·.identifier)) puts_apply st.targets st).congr fun y => ?_
  rw [targets, List.mem_filter, Table.mem_keys]
  simp [Knows, surfaceState, Table.has, and_comm]

theorem puts_detachAll (st : ArtifactStore) : st.Puts st.Knows .registered [] st.detachAll := by
  refine (puts_foldl (fun _ => []) puts_detach st.surfaces.keys st).congr fun y => ?_
  rw [Table.mem_keys]
  simp [Knows, surfaceState, Table.has]

/-! ### Surfaces that run what their state says -/

/-- What a surface runs fits its state. Only while blocking is on, and only on
    surfaces that are not suspended, do rules apply. -/
inductive Fits (enabled : Bool) (ids : List String) :
    Option SurfaceState → Bool → List String → Prop
  | unknown : Fits enabled ids none false []
  | idle (suspended : Bool) : Fits enabled ids (some .registered) suspended []
  | running (on : enabled = true) : Fits enabled ids (some .rulesApplied) false ids

theorem Fits.runs {enabled : Bool} {ids attached : List String} {state : Option SurfaceState}
    {suspended : Bool} (h : Fits enabled ids state suspended attached) :
    (attached = [] ∨ attached = ids) ∧ (enabled = false → attached = []) ∧
      (state = none → attached = []) ∧ (suspended = true → attached = []) ∧
      (state = some .rulesApplied → attached = ids) ∧
      (state = some .registered → attached = []) := by
  cases h with
  | unknown => simp
  | idle => simp
  | running on => simp [on]

/-- While blocking is off nothing runs, so it makes no difference what is in force
    and whether blocking is on. -/
theorem Fits.of_disabled {ids attached : List String} {state : Option SurfaceState}
    {suspended : Bool} (h : Fits false ids state suspended attached) (enabled : Bool)
    (ids' : List String) : Fits enabled ids' state suspended attached := by
  cases h with
  | unknown => exact .unknown
  | idle => exact .idle suspended
  | running on => exact absurd on Bool.false_ne_true

/-- Every surface runs what its state says. -/
def Settled (enabled : Bool) (st : ArtifactStore) : Prop :=
  ∀ x, Fits enabled st.identifiers (st.surfaceState x) (st.isSuspended x) (st.engine.attached x)

variable {enabled : Bool}

/-- A store that has the same artifacts in force and the same surfaces. -/
theorem Settled.congr (h : st.Settled enabled) (hc : st'.current = st.current)
    (hs : st'.surfaces = st.surfaces) (hu : st'.suspended = st.suspended)
    (ha : st'.engine.attachments = st.engine.attachments) : st'.Settled enabled := by
  intro x
  rw [identifiers, surfaceState, isSuspended, Engine.attached, hc, hs, hu, ha]
  exact h x

/-- While nothing runs it makes no difference whether blocking is on. -/
theorem Settled.enable (h : st.Settled false) (enabled : Bool) : st.Settled enabled := by
  intro x
  exact (h x).of_disabled _ _

theorem Settled.fits_of_not_knows {x : Surface} (h : st.Settled enabled) (hx : ¬st.Knows x) :
    st.surfaceState x = none ∧ st.isSuspended x = false ∧ st.engine.attached x = [] := by
  have hfits := h x
  have hnone : st.surfaceState x = none := by simpa [Knows] using hx
  rw [hnone] at hfits
  generalize st.isSuspended x = suspended, st.engine.attached x = attached at hfits ⊢
  cases hfits with
  | unknown => exact ⟨hnone, rfl, rfl⟩

theorem Settled.fits_of_isSuspended {x : Surface} (h : st.Settled enabled)
    (hx : st.isSuspended x = true) :
    st.surfaceState x = some .registered ∧ st.engine.attached x = [] := by
  have hfits := h x
  rw [hx] at hfits
  generalize st.surfaceState x = state, st.engine.attached x = attached at hfits ⊢
  cases hfits with
  | idle => exact ⟨rfl, rfl⟩

theorem Settled.register (h : st.Settled enabled) (x : Surface) :
    (st.register x).1.Settled enabled := by
  rw [ArtifactStore.register]
  split
  · exact h
  · next hx =>
    intro y
    by_cases hy : y = x
    · -- It was not registered before, so nothing runs on it.
      obtain ⟨-, hsuspended, hattached⟩ := h.fits_of_not_knows hx
      subst hy
      have hstate : (st.surfaces.set y SurfaceState.registered).get? y = some .registered := by
        rw [Table.get?_set, if_pos rfl]
      show Fits _ _ _ (st.isSuspended y) (st.engine.attached y)
      rw [surfaceState, hsuspended, hattached]
      exact hstate ▸ .idle false
    · have hstate : (st.surfaces.set x SurfaceState.registered).get? y = st.surfaceState y := by
        rw [Table.get?_set, if_neg hy]
        rfl
      rw [surfaceState]
      exact hstate ▸ h y

/-- A surface that was not registered is not suspended. -/
theorem Settled.isSuspended_of_register {x : Surface} (h : st.Settled enabled)
    (hr : st.register x = (st', true)) : st'.isSuspended x = false := by
  rw [ArtifactStore.register] at hr
  split at hr
  · cases hr
  · next hx =>
    obtain rfl := congrArg Prod.fst hr
    exact (h.fits_of_not_knows hx).2.1

theorem Settled.unregister (h : st.Settled enabled) (x : Surface) :
    (st.unregister x).1.Settled enabled := by
  rw [ArtifactStore.unregister]
  split
  · intro y
    have hstate : (st.surfaces.erase x).get? y = if y = x then none else st.surfaceState y :=
      Table.get?_erase _ _ _
    have hsuspended : (st.suspended.erase x).has y = if y = x then false else st.isSuspended y := by
      rw [Table.has, Table.get?_erase]
      split <;> rfl
    have hattached : (st.engine.detachAll x).attached y =
        if y = x then [] else st.engine.attached y := Engine.attached_detachAll _ _ _
    -- The surface is gone from all three tables, and no other is.
    show Fits _ _ ((st.surfaces.erase x).get? y) ((st.suspended.erase x).has y)
      ((st.engine.detachAll x).attached y)
    rw [hstate, hsuspended, hattached]
    split
    · exact .unknown
    · exact h y
  · exact h

/-- When some surfaces are put into a state that fits what they run then, the
    others have to be as they should be already. -/
theorem Puts.settled {on : Surface → Prop} (h : st.Puts on state ids st')
    (hon : ∀ x, on x → Fits enabled st.identifiers (some state) (st.isSuspended x) ids)
    (hoff : ∀ x, ¬on x → Fits enabled st.identifiers (st.surfaceState x) (st.isSuspended x)
      (st.engine.attached x)) : st'.Settled enabled := by
  intro x
  rw [identifiers, h.current, ← identifiers, isSuspended, h.suspended, ← isSuspended]
  by_cases hx : on x
  · rw [h.state x hx, h.attached x hx]
    exact hon x hx
  · rw [h.otherState x hx, h.otherAttached x hx]
    exact hoff x hx

theorem Settled.apply {x : Surface} (h : st.Settled true) (hx : st.isSuspended x = false) :
    (st.apply x).1.Settled true := by
  refine (puts_apply st x).settled (fun y hy => ?_) fun y _ => h y
  rw [hy.1, hx]
  exact .running rfl

theorem Settled.detach (h : st.Settled enabled) (x : Surface) :
    (st.detach x).1.Settled enabled :=
  (puts_detach st x).settled (fun _ _ => .idle _) fun y _ => h y

/-- When everything is detached, blocking may be off. -/
theorem Settled.detachAll (h : st.Settled enabled) : st.detachAll.Settled false := by
  refine (puts_detachAll st).settled (fun _ _ => .idle _) fun x hx => ?_
  obtain ⟨hstate, hsuspended, hattached⟩ := h.fits_of_not_knows hx
  rw [hstate, hsuspended, hattached]
  exact .unknown

theorem Settled.suspend (h : st.Settled enabled) (x : Surface) :
    (st.suspend x).1.Settled enabled := by
  have hdetach := h.detach x
  have hputs := puts_detach st x
  rw [ArtifactStore.suspend]
  split
  · next heq =>
    rw [heq] at hdetach
    exact hdetach
  · next st' heq =>
    rw [heq] at hdetach hputs
    have hx : st.Knows x := by
      rw [ArtifactStore.detach] at heq
      split at heq
      · assumption
      · cases heq
    intro y
    have hsuspended : (st'.suspended.set x (st'.suspensions + 1)).has y =
        if y = x then true else st'.isSuspended y := by
      rw [Table.has, Table.get?_set]
      split <;> rfl
    show Fits _ _ (st'.surfaceState y) ((st'.suspended.set x (st'.suspensions + 1)).has y)
      (st'.engine.attached y)
    rw [hsuspended]
    -- Only the surface itself is suspended, and it has just been detached.
    split
    · next hy =>
      rw [hputs.state y ⟨hy, hx⟩, hputs.attached y ⟨hy, hx⟩]
      exact .idle true
    · exact hdetach y

theorem Settled.resume {x : Surface} {number : Nat} (h : st.Settled enabled)
    (hr : st.resume x number = (st', true)) : st'.Settled enabled ∧ st'.isSuspended x = false := by
  rw [ArtifactStore.resume] at hr
  split at hr
  · next hx =>
    obtain rfl := congrArg Prod.fst hr
    have hsuspended (y : Surface) : (st.suspended.erase x).has y =
        if y = x then false else st.isSuspended y := by
      rw [Table.has, Table.get?_erase]
      split <;> rfl
    refine ⟨fun y => ?_, (hsuspended x).trans (if_pos rfl)⟩
    show Fits _ _ (st.surfaceState y) ((st.suspended.erase x).has y) (st.engine.attached y)
    rw [hsuspended]
    split
    · next hy =>
      -- While it was suspended nothing ran on it, and nothing does yet.
      have hx' : st.isSuspended y = true := by
        rw [hy, isSuspended, Table.has, hx]
        rfl
      obtain ⟨hstate, hattached⟩ := h.fits_of_isSuspended hx'
      rw [hstate, hattached]
      exact .idle false
    · exact h y
  · cases hr

/-- Artifacts are put in force, and applied if blocking is on. -/
theorem Settled.install {generation : Nat} {artifacts : List Artifact} (h : st.Settled enabled)
    (hi : st.install generation artifacts = (st', true)) :
    (if enabled then st'.applyAll.1 else st').Settled enabled := by
  rw [ArtifactStore.install] at hi
  split at hi
  · cases hi
  · obtain rfl := congrArg Prod.fst hi
    cases enabled with
    | false =>
      intro x
      exact (h x).of_disabled _ _
    | true =>
      -- Before they are applied, surfaces may still run the artifacts of before.
      -- All of these are put into their state, since the others run nothing.
      refine (puts_applyAll _).settled (fun x hx => ?_) fun x hx => ?_
      · rw [hx.2]
        exact .running rfl
      · show Fits _ _ (st.surfaceState x) (st.isSuspended x) (st.engine.attached x)
        by_cases hknows : st.Knows x
        · have hnot : ¬(st.Knows x ∧ st.isSuspended x = false) := hx
          have hsuspended : st.isSuspended x = true := by simpa [hknows] using hnot
          obtain ⟨hstate, hattached⟩ := h.fits_of_isSuspended hsuspended
          rw [hstate, hattached]
          exact .idle _
        · obtain ⟨hstate, hsuspended, hattached⟩ := h.fits_of_not_knows hknows
          rw [hstate, hsuspended, hattached]
          exact .unknown

end ArtifactStore

end ContentBlocking
