import ContentBlocking.Proofs.Artifact.StoreSurfaces

/-!
# Awake surfaces

A surface is awake while it is registered and not suspended: then rules should
apply to it, if blocking is on. What is done to single surfaces either puts some of
them to sleep or wakes some of them up, and a surface that wakes up has the
artifacts in force applied.

* `ArtifactStore.Lulls`: no surface wakes up;
* `ArtifactStore.Wakes`: no surface falls asleep, and rules apply to those that wake
  up.
-/

namespace ContentBlocking.ArtifactStore

/-- The surface is registered and not suspended. -/
def IsAwake (st : ArtifactStore) (x : Surface) : Prop := st.Knows x ∧ st.isSuspended x = false

/-- No surface wakes up, and those that stay awake run what they ran. -/
structure Lulls (st st' : ArtifactStore) : Prop where
  current : st'.current = st.current
  installedGeneration : st'.installedGeneration = st.installedGeneration
  awake : ∀ x, st'.IsAwake x → st.IsAwake x ∧ st'.engine.attached x = st.engine.attached x

/-- No surface falls asleep. Those that were awake run what they ran, and those that
    wake up while blocking is on run the artifacts in force. -/
structure Wakes (enabled : Bool) (st st' : ArtifactStore) : Prop where
  current : st'.current = st.current
  installedGeneration : st'.installedGeneration = st.installedGeneration
  awake : ∀ x, st.IsAwake x → st'.IsAwake x ∧ st'.engine.attached x = st.engine.attached x
  woken : enabled = true → ∀ x, ¬st.IsAwake x → st'.IsAwake x →
    st'.engine.attached x = st'.identifiers

variable {st st' st'' : ArtifactStore} {enabled : Bool} {x : Surface}

theorem lulls_refl (st : ArtifactStore) : st.Lulls st := ⟨rfl, rfl, fun _ h => ⟨h, rfl⟩⟩

theorem wakes_refl (enabled : Bool) (st : ArtifactStore) : st.Wakes enabled st :=
  ⟨rfl, rfl, fun _ h => ⟨h, rfl⟩, fun _ _ h h' => absurd h' h⟩

theorem Lulls.trans (h : st.Lulls st') (h' : st'.Lulls st'') : st.Lulls st'' where
  current := h'.current.trans h.current
  installedGeneration := h'.installedGeneration.trans h.installedGeneration
  awake x hx := by
    obtain ⟨hx', hattached'⟩ := h'.awake x hx
    obtain ⟨hx, hattached⟩ := h.awake x hx'
    exact ⟨hx, hattached'.trans hattached⟩

theorem Wakes.trans (h : st.Wakes enabled st') (h' : st'.Wakes enabled st'') :
    st.Wakes enabled st'' where
  current := h'.current.trans h.current
  installedGeneration := h'.installedGeneration.trans h.installedGeneration
  awake x hx := by
    obtain ⟨hx', hattached⟩ := h.awake x hx
    obtain ⟨hx'', hattached'⟩ := h'.awake x hx'
    exact ⟨hx'', hattached'.trans hattached⟩
  woken hon x hx hx'' := by
    by_cases hx' : st'.IsAwake x
    · -- It woke up before and has not been touched since.
      rw [(h'.awake x hx').2, h.woken hon x hx hx', identifiers, identifiers, h'.current]
    · exact h'.woken hon x hx' hx''

/-- What runs on the surfaces does not depend on the rest of the engine and on the
    shell. -/
theorem lulls_of_attachments (st : ArtifactStore) (e : Engine) (shell : Shell)
    (ha : e.attachments = st.engine.attachments) :
    st.Lulls { st with engine := e, shell := shell } := by
  refine ⟨rfl, rfl, fun x hx => ⟨hx, ?_⟩⟩
  rw [Engine.attached, Engine.attached, ha]

theorem Puts.isAwake_iff {on : Surface → Prop} {state : SurfaceState} {ids : List String}
    (h : st.Puts on state ids st') (x : Surface) : st'.IsAwake x ↔ st.IsAwake x := by
  rw [IsAwake, IsAwake, h.knows_iff, isSuspended, isSuspended, h.suspended]

/-! ### Surfaces that fall asleep -/

theorem lulls_unregister (st : ArtifactStore) (x : Surface) : st.Lulls (st.unregister x).1 := by
  rw [unregister]
  split
  · refine ⟨rfl, rfl, fun y hy => ?_⟩
    obtain ⟨hknows, hsuspended⟩ := hy
    have hne : y ≠ x := by
      rintro rfl
      simp [Knows, surfaceState, tell, Table.get?_erase] at hknows
    have hstate : (st.surfaces.erase x).get? y = st.surfaceState y := by
      rw [Table.get?_erase, if_neg hne]
      rfl
    have hawake : (st.suspended.erase x).has y = st.isSuspended y := by
      rw [Table.has, Table.get?_erase, if_neg hne]
      rfl
    refine ⟨⟨?_, hawake ▸ hsuspended⟩, ?_⟩
    · rw [Knows, ← hstate]
      exact hknows
    · exact (Engine.attached_detachAll _ _ _).trans (if_neg hne)
  · exact st.lulls_refl

theorem lulls_suspend (st : ArtifactStore) (x : Surface) : st.Lulls (st.suspend x).1 := by
  have hputs := puts_detach st x
  rw [suspend]
  split
  · next st' heq =>
    -- The surface is not registered, so nothing happens.
    rw [detach] at heq
    split at heq
    · cases heq
    · obtain rfl := congrArg Prod.fst heq
      exact st.lulls_refl
  · next st' heq =>
    rw [heq] at hputs
    refine ⟨hputs.current, hputs.installedGeneration, fun y hy => ?_⟩
    obtain ⟨hknows, hsuspended⟩ := hy
    have hne : y ≠ x := by
      rintro rfl
      simp [isSuspended, Table.has, Table.get?_set] at hsuspended
    have hawake : (st'.suspended.set x (st'.suspensions + 1)).has y = st'.isSuspended y := by
      rw [Table.has, Table.get?_set, if_neg hne]
      rfl
    have hy : st'.IsAwake y := ⟨hknows, hawake ▸ hsuspended⟩
    exact ⟨(hputs.isAwake_iff y).1 hy, hputs.otherAttached y fun h => hne h.1⟩

/-! ### Surfaces that wake up -/

/-- Only this surface may have woken up, and nothing has happened otherwise. -/
structure Rouses (st : ArtifactStore) (x : Surface) (st' : ArtifactStore) : Prop where
  current : st'.current = st.current
  installedGeneration : st'.installedGeneration = st.installedGeneration
  attachments : st'.engine.attachments = st.engine.attachments
  asleep : ¬st.IsAwake x
  others : ∀ y, y ≠ x → (st'.IsAwake y ↔ st.IsAwake y)

theorem Rouses.awake (h : st.Rouses x st') {y : Surface} (hy : st.IsAwake y) :
    y ≠ x ∧ st'.IsAwake y ∧ st'.engine.attached y = st.engine.attached y := by
  have hne : y ≠ x := by
    rintro rfl
    exact h.asleep hy
  refine ⟨hne, (h.others y hne).2 hy, ?_⟩
  rw [Engine.attached, Engine.attached, h.attachments]

/-- Before rules are applied, a surface that was roused may run nothing while blocking
    is off, or while nothing is in force. -/
theorem Rouses.wakes (h : st.Rouses x st')
    (hx : enabled = true → st'.engine.attached x = st'.identifiers) : st.Wakes enabled st' where
  current := h.current
  installedGeneration := h.installedGeneration
  awake _ hy := (h.awake hy).2
  woken hon y hy hy' := by
    obtain rfl : y = x := by
      by_contra hne
      exact hy ((h.others y hne).1 hy')
    exact hx hon

theorem Rouses.wakes_apply (h : st.Rouses x st') (enabled : Bool) :
    st.Wakes enabled (st'.apply x).1 := by
  have hputs := puts_apply st' x
  refine ⟨hputs.current.trans h.current,
    hputs.installedGeneration.trans h.installedGeneration, fun y hy => ?_, fun _ y hy hy' => ?_⟩
  · obtain ⟨hne, hawake, hattached⟩ := h.awake hy
    exact ⟨(hputs.isAwake_iff y).2 hawake,
      (hputs.otherAttached y fun hon => hne hon.1).trans hattached⟩
  · have hawake := (hputs.isAwake_iff y).1 hy'
    obtain rfl : y = x := by
      by_contra hne
      exact hy ((h.others y hne).1 hawake)
    rw [hputs.attached y ⟨rfl, hawake.1⟩, identifiers, identifiers, hputs.current]

theorem rouses_resume {number : Nat} (h : st.resume x number = (st', true)) :
    st.Rouses x st' := by
  rw [resume] at h
  split at h
  · next hnumber =>
    obtain rfl := congrArg Prod.fst h
    refine ⟨rfl, rfl, rfl, fun hawake => ?_, fun y hne => ?_⟩
    · have hsuspended : st.isSuspended x = true := by
        rw [isSuspended, Table.has, hnumber]
        rfl
      exact Bool.false_ne_true (hawake.2.symm.trans hsuspended)
    · have hsame : (st.suspended.erase x).has y = st.isSuspended y := by
        rw [Table.has, Table.get?_erase, if_neg hne]
        rfl
      rw [IsAwake, IsAwake, isSuspended, hsame]
      rfl
  · cases h

theorem rouses_register (h : st.register x = (st', true)) : st.Rouses x st' := by
  rw [register] at h
  split at h
  · cases h
  · next hnot =>
    obtain rfl := congrArg Prod.fst h
    refine ⟨rfl, rfl, rfl, fun hawake => hnot hawake.1, fun y hne => ?_⟩
    have hsame : (st.surfaces.set x SurfaceState.registered).get? y = st.surfaceState y := by
      rw [Table.get?_set, if_neg hne]
      rfl
    show ((st.surfaces.set x SurfaceState.registered).get? y).isSome = true ∧
      st.isSuspended y = false ↔ st.IsAwake y
    rw [hsame]
    rfl

end ContentBlocking.ArtifactStore
