import ContentBlocking.Proofs.Artifact.StoreSurfaces
import ContentBlocking.Proofs.Logs

/-!
# Numbers of suspensions

The store counts the suspensions of all surfaces together, and each is lifted under its number.
Surfaces may be forgotten, registered again and suspended again in any order, while others still
know earlier numbers. What the store was asked and what it answered is a log, and the log alone
tells which number lifts what: that of the latest suspension of a surface, as long as the surface
was neither forgotten nor resumed since. No number is given twice, so an earlier one lifts
nothing, on any surface.

* `ArtifactStore.Call`, `ArtifactStore.log`: what is asked and answered;
* `ArtifactStore.IsNewest`: the number of the latest suspension in a log, if that lasts;
* `ArtifactStore.Moves`: what a call does to the suspensions;
* `ArtifactStore.Replays`: a log tells how the surfaces are suspended;
* `Replays.resume_iff`: under which number a surface is resumed, after any calls;
* `Replays.of_resume`: a number that was given before resumes nothing else.
-/

namespace ContentBlocking

namespace ArtifactStore

/-! ### Calls and answers -/

/-- What the store is asked to do. -/
inductive Call where
  | register (s : Surface)
  | unregister (s : Surface)
  | apply (s : Surface)
  | applyAll
  | detach (s : Surface)
  | detachAll
  | suspend (s : Surface)
  | resume (s : Surface) (number : Nat)
  | install (generation : Nat) (artifacts : List Artifact)
  /-- Others do something with the engine and the shell. -/
  | around (engine : Engine) (shell : Shell)

/-- What the store answers. -/
inductive Answer where
  | flag (done : Bool)
  | count (surfaces : Nat)
  | number (given : Option Nat)
  | nothing

/-- The store after a call, and its answer. -/
def call (st : ArtifactStore) : Call → ArtifactStore × Answer
  | .register s => ((st.register s).1, .flag (st.register s).2)
  | .unregister s => ((st.unregister s).1, .flag (st.unregister s).2)
  | .apply s => ((st.apply s).1, .flag (st.apply s).2)
  | .applyAll => (st.applyAll.1, .count st.applyAll.2)
  | .detach s => ((st.detach s).1, .flag (st.detach s).2)
  | .detachAll => (st.detachAll, .nothing)
  | .suspend s => ((st.suspend s).1, .number (st.suspend s).2)
  | .resume s number => ((st.resume s number).1, .flag (st.resume s number).2)
  | .install generation artifacts =>
    ((st.install generation artifacts).1, .flag (st.install generation artifacts).2)
  | .around engine shell => ({ st with engine := engine, shell := shell }, .nothing)

/-- A call with its answer. -/
structure Entry where
  call : Call
  answer : Answer

/-- The store after a call, and the entry of it. -/
def enter (st : ArtifactStore) (c : Call) : ArtifactStore × Entry :=
  ((st.call c).1, ⟨c, (st.call c).2⟩)

/-- The store after some calls. -/
def after (st : ArtifactStore) (calls : List Call) : ArtifactStore := afterCalls enter st calls

/-- The entries of some calls. -/
def log (st : ArtifactStore) (calls : List Call) : List Entry := logOf enter st calls

/-! ### Suspensions in a log -/

/-- The number of the suspension that an entry begins. -/
def Entry.number? : Entry → Option Nat
  | ⟨.suspend _, .number given⟩ => given
  | _ => none

/-- The surface is forgotten, or resumed, or suspended anew. -/
def Entry.ends (x : Surface) : Entry → Bool
  | ⟨.unregister s, _⟩ => s = x
  | ⟨.resume s _, .flag true⟩ => s = x
  | ⟨.suspend s, .number (some _)⟩ => s = x
  | _ => false

/-- The latest suspension of the surface has this number, and the surface was neither forgotten
    nor resumed since. -/
def IsNewest (entries : List Entry) (x : Surface) (number : Nat) : Prop :=
  ∃ before since, entries = before ++ ⟨.suspend x, .number (some number)⟩ :: since ∧
    ∀ e ∈ since, e.ends x = false

variable {entries : List Entry} {e : Entry} {x y : Surface} {number : Nat}

theorem not_isNewest_nil : ¬IsNewest [] x number := by
  rintro ⟨before, since, h, -⟩
  simp at h

theorem isNewest_concat : IsNewest (entries ++ [e]) x number ↔
    e = ⟨.suspend x, .number (some number)⟩ ∨ e.ends x = false ∧ IsNewest entries x number := by
  constructor
  · rintro ⟨before, since, hsplit, hsince⟩
    rcases List.eq_nil_or_concat' since with rfl | ⟨since, last, rfl⟩
    · exact .inl (List.append_inj_right' hsplit rfl |> List.singleton_inj.1)
    · rw [← List.cons_append, ← List.append_assoc] at hsplit
      obtain ⟨rfl, hlast⟩ := List.append_inj' hsplit rfl
      obtain rfl := List.singleton_inj.1 hlast
      exact .inr ⟨hsince _ (List.mem_append_right _ List.mem_cons_self), before, since, rfl,
        fun e' he' => hsince e' (List.mem_append_left _ he')⟩
  · rintro (rfl | ⟨hlast, before, since, rfl, hsince⟩)
    · exact ⟨entries, [], rfl, fun e' he' => absurd he' List.not_mem_nil⟩
    · refine ⟨before, since ++ [e], by simp, fun e' he' => ?_⟩
      rcases List.mem_append.1 he' with he' | he'
      · exact hsince e' he'
      · exact List.mem_singleton.1 he' ▸ hlast

/-! ### What a call does -/

/-- What a call does to the suspensions, and that it leaves surfaces registered. -/
inductive Moves (st : ArtifactStore) : Entry → ArtifactStore → Prop
  | other {e : Entry} {st' : ArtifactStore} (ends : ∀ x, e.ends x = false)
      (number : e.number? = none) (suspended : st'.suspended = st.suspended)
      (suspensions : st'.suspensions = st.suspensions) (knows : ∀ x, st.Knows x → st'.Knows x) :
      Moves st e st'
  /-- A surface that is not registered is not suspended either. -/
  | unknown {x : Surface} (a : Answer) (unknown : ¬st.Knows x) : Moves st ⟨.unregister x, a⟩ st
  | unregister {x : Surface} {st' : ArtifactStore} (a : Answer)
      (suspended : st'.suspended = st.suspended.erase x)
      (suspensions : st'.suspensions = st.suspensions)
      (knows : ∀ y, y ≠ x → st.Knows y → st'.Knows y) : Moves st ⟨.unregister x, a⟩ st'
  | suspend {x : Surface} {st' : ArtifactStore} (known : st'.Knows x)
      (suspended : st'.suspended = st.suspended.set x (st.suspensions + 1))
      (suspensions : st'.suspensions = st.suspensions + 1)
      (knows : ∀ y, st.Knows y → st'.Knows y) :
      Moves st ⟨.suspend x, .number (some (st.suspensions + 1))⟩ st'
  | resume {x : Surface} {number : Nat} {st' : ArtifactStore}
      (before : st.suspended.get? x = some number)
      (suspended : st'.suspended = st.suspended.erase x)
      (suspensions : st'.suspensions = st.suspensions) (knows : ∀ y, st.Knows y → st'.Knows y) :
      Moves st ⟨.resume x number, .flag true⟩ st'

variable {st st' : ArtifactStore}

theorem suspensions_apply (st : ArtifactStore) (x : Surface) :
    (st.apply x).1.suspensions = st.suspensions := by
  rw [apply]
  split <;> rfl

theorem suspensions_detach (st : ArtifactStore) (x : Surface) :
    (st.detach x).1.suspensions = st.suspensions := by
  rw [detach]
  split <;> rfl

theorem suspensions_foldl {op : ArtifactStore → Surface → ArtifactStore}
    (hop : ∀ st x, (op st x).suspensions = st.suspensions) (surfaces : List Surface)
    (st : ArtifactStore) : (surfaces.foldl op st).suspensions = st.suspensions := by
  induction surfaces generalizing st with
  | nil => rfl
  | cons x surfaces ih => exact (ih _).trans (hop st x)

/-- To put surfaces into a state leaves the suspensions alone. -/
theorem Puts.moves {on : Surface → Prop} {state : SurfaceState} {ids : List String}
    (h : st.Puts on state ids st') (hsuspensions : st'.suspensions = st.suspensions)
    (hends : ∀ x, e.ends x = false) (hnumber : e.number? = none) : st.Moves e st' :=
  .other hends hnumber h.suspended hsuspensions fun x hx => (h.knows_iff x).2 hx

theorem moves_register (st : ArtifactStore) (x : Surface) (a : Answer) :
    st.Moves ⟨.register x, a⟩ (st.register x).1 := by
  rw [register]
  split
  · exact .other (fun _ => rfl) rfl rfl rfl fun _ hy => hy
  · refine .other (fun _ => rfl) rfl rfl rfl fun y hy => ?_
    show ((st.surfaces.set x SurfaceState.registered).get? y).isSome = true
    rw [Table.get?_set]
    split
    · rfl
    · exact hy

theorem moves_unregister (st : ArtifactStore) (x : Surface) (a : Answer) :
    st.Moves ⟨.unregister x, a⟩ (st.unregister x).1 := by
  rw [unregister]
  split
  · refine .unregister a rfl rfl fun y hne hy => ?_
    show ((st.surfaces.erase x).get? y).isSome = true
    rw [Table.get?_erase, if_neg hne]
    exact hy
  · next hx => exact .unknown a hx

theorem moves_suspend (st : ArtifactStore) (x : Surface) :
    st.Moves ⟨.suspend x, .number (st.suspend x).2⟩ (st.suspend x).1 := by
  have hputs := puts_detach st x
  have hsuspensions := suspensions_detach st x
  rw [suspend]
  split
  · next heq =>
    rw [heq] at hputs hsuspensions
    exact hputs.moves hsuspensions (fun _ => rfl) rfl
  · next st' heq =>
    rw [heq] at hputs hsuspensions
    have hx : st.Knows x := by
      rw [detach] at heq
      split at heq
      · assumption
      · cases heq
    rw [hsuspensions]
    refine .suspend ((hputs.knows_iff x).2 hx) ?_ rfl fun y hy => (hputs.knows_iff y).2 hy
    rw [hputs.suspended]

theorem moves_resume (st : ArtifactStore) (x : Surface) (number : Nat) :
    st.Moves ⟨.resume x number, .flag (st.resume x number).2⟩ (st.resume x number).1 := by
  rw [resume]
  split
  · next hnumber => exact .resume hnumber rfl rfl fun _ hy => hy
  · exact .other (fun _ => rfl) rfl rfl rfl fun _ hy => hy

theorem moves_call (st : ArtifactStore) (c : Call) : st.Moves ⟨c, (st.call c).2⟩ (st.call c).1 := by
  cases c with
  | register x => exact st.moves_register x _
  | unregister x => exact st.moves_unregister x _
  | apply x => exact (st.puts_apply x).moves (st.suspensions_apply x) (fun _ => rfl) rfl
  | applyAll =>
    exact st.puts_applyAll.moves (suspensions_foldl suspensions_apply _ st) (fun _ => rfl) rfl
  | detach x => exact (st.puts_detach x).moves (st.suspensions_detach x) (fun _ => rfl) rfl
  | detachAll =>
    exact st.puts_detachAll.moves (suspensions_foldl suspensions_detach _ st) (fun _ => rfl) rfl
  | suspend x => exact st.moves_suspend x
  | resume x number => exact st.moves_resume x number
  | install generation artifacts =>
    show st.Moves _ (st.install generation artifacts).1
    rw [install]
    split <;> exact .other (fun _ => rfl) rfl rfl rfl fun _ hy => hy
  | around engine shell => exact .other (fun _ => rfl) rfl rfl rfl fun _ hy => hy

/-! ### Logs that tell the suspensions -/

/-- The numbers of all suspensions that a log tells of. -/
def numbers (entries : List Entry) : List Nat := entries.filterMap Entry.number?

/-- The log tells which surfaces are suspended, and under which numbers. These were given in
    ascending order, and a surface that is suspended is registered. -/
structure Replays (entries : List Entry) (st : ArtifactStore) : Prop where
  suspended : ∀ x number, st.suspended.get? x = some number ↔ IsNewest entries x number
  known : ∀ x number, st.suspended.get? x = some number → st.Knows x
  ascending : (numbers entries).Pairwise (· < ·)
  given : ∀ number ∈ numbers entries, number ≤ st.suspensions

theorem numbers_concat (entries : List Entry) (e : Entry) :
    numbers (entries ++ [e]) = numbers entries ++ e.number?.toList := by
  rw [numbers, List.filterMap_append]
  refine congrArg _ ?_
  cases h : e.number? <;> simp [h]

theorem numbers_concat_of_none (entries : List Entry) (h : e.number? = none) :
    numbers (entries ++ [e]) = numbers entries := by
  rw [numbers_concat, h]
  exact List.append_nil _

/-- An entry that begins no suspension ends some, at most. -/
theorem isNewest_concat_of_none (h : e.number? = none) :
    IsNewest (entries ++ [e]) x number ↔ e.ends x = false ∧ IsNewest entries x number := by
  rw [isNewest_concat, or_iff_right]
  rintro rfl
  cases h

namespace Replays

theorem empty (engine : Engine) (shell : Shell) :
    Replays [] { engine := engine, shell := shell } where
  suspended _ _ := iff_of_false nofun not_isNewest_nil
  known _ _ := nofun
  ascending := List.Pairwise.nil
  given _ h := absurd h List.not_mem_nil

/-- One more entry, which begins no suspension. -/
theorem concat (h : Replays entries st) (hnumber : e.number? = none)
    (hsuspensions : st'.suspensions = st.suspensions)
    (hsuspended : ∀ x number, st'.suspended.get? x = some number ↔
      e.ends x = false ∧ st.suspended.get? x = some number)
    (hknown : ∀ x, e.ends x = false → st.Knows x → st'.Knows x) :
    Replays (entries ++ [e]) st' where
  suspended x number := by rw [hsuspended, h.suspended, isNewest_concat_of_none hnumber]
  known x number hx := by
    obtain ⟨hends, hbefore⟩ := (hsuspended x number).1 hx
    exact hknown x hends (h.known x number hbefore)
  ascending := numbers_concat_of_none entries hnumber ▸ h.ascending
  given := by
    rw [numbers_concat_of_none entries hnumber, hsuspensions]
    exact h.given

/-- One more entry, for a suspension under the next number. -/
theorem suspend (h : Replays entries st) (hx : st'.Knows x)
    (hsuspended : st'.suspended = st.suspended.set x (st.suspensions + 1))
    (hsuspensions : st'.suspensions = st.suspensions + 1)
    (hknows : ∀ y, st.Knows y → st'.Knows y) :
    Replays (entries ++ [⟨.suspend x, .number (some (st.suspensions + 1))⟩]) st' where
  suspended y number := by
    rw [hsuspended, Table.get?_set, isNewest_concat, ← h.suspended]
    by_cases hy : y = x
    · simp [Entry.ends, hy]
    · simp [Entry.ends, hy, Ne.symm hy]
  known y number hy := by
    rw [hsuspended, Table.get?_set] at hy
    split at hy
    · next heq => exact heq ▸ hx
    · exact hknows y (h.known y number hy)
  ascending := by
    rw [numbers_concat]
    refine List.pairwise_append.2 ⟨h.ascending, List.pairwise_singleton _ _, fun n hn m hm => ?_⟩
    obtain rfl := List.mem_singleton.1 hm
    exact Nat.lt_succ_of_le (h.given n hn)
  given n hn := by
    rw [numbers_concat] at hn
    rw [hsuspensions]
    rcases List.mem_append.1 hn with hn | hn
    · exact Nat.le_succ_of_le (h.given n hn)
    · exact Nat.le_of_eq (List.mem_singleton.1 hn)

/-- The log is continued by what a call does. -/
theorem moves (h : Replays entries st) (hm : st.Moves e st') : Replays (entries ++ [e]) st' := by
  cases hm with
  | other ends number suspended suspensions knows =>
    refine h.concat number suspensions (fun x n => ?_) fun x _ => knows x
    rw [suspended, ends x]
    exact (and_iff_right rfl).symm
  | @unknown x a unknown =>
    refine h.concat rfl rfl (fun y n => ⟨fun hy => ⟨?_, hy⟩, And.right⟩) fun _ _ hy => hy
    have hne : x ≠ y := by
      rintro rfl
      exact unknown (h.known x n hy)
    simpa [Entry.ends] using hne
  | @unregister x st' a suspended suspensions knows =>
    refine h.concat rfl suspensions (fun y n => ?_) fun y hends hy => knows y ?_ hy
    · rw [suspended, Table.get?_erase]
      by_cases hy : y = x
      · simp [Entry.ends, hy]
      · simp [Entry.ends, hy, Ne.symm hy]
    · rintro rfl
      simp [Entry.ends] at hends
  | suspend known suspended suspensions knows => exact h.suspend known suspended suspensions knows
  | resume before suspended suspensions knows =>
    refine h.concat rfl suspensions (fun y n => ?_) fun y _ => knows y
    rw [suspended, Table.get?_erase]
    split
    · next heq => simp [Entry.ends, heq]
    · next hne => simp [Entry.ends, Ne.symm hne]

/-- The log of any calls tells how the surfaces are suspended after them. -/
theorem after (engine : Engine) (shell : Shell) (calls : List Call) :
    Replays (log { engine := engine, shell := shell } calls)
      (ArtifactStore.after { engine := engine, shell := shell } calls) :=
  log_induction (P := fun _ => Replays) (empty engine shell)
    (fun _ _ st c h => h.moves (st.moves_call c)) calls

end Replays

/-! ### What resumes a surface -/

theorem resume_snd_iff : (st.resume x number).2 = true ↔ st.suspended.get? x = some number := by
  rw [resume]
  split
  · next h => exact iff_of_true rfl h
  · next h => exact iff_of_false Bool.false_ne_true h

/-- Numbers that are given later are greater. -/
theorem number_lt {front middle back : List Entry} {e' : Entry} {number' : Nat}
    (hascending : (numbers (front ++ e :: (middle ++ e' :: back))).Pairwise (· < ·))
    (he : e.number? = some number) (he' : e'.number? = some number') : number < number' := by
  have hmem : number' ∈ numbers (middle ++ e' :: back) :=
    List.mem_filterMap.2 ⟨e', List.mem_append_right _ List.mem_cons_self, he'⟩
  rw [numbers, List.filterMap_append, List.filterMap_cons_some he] at hascending
  exact (List.pairwise_cons.1 (List.pairwise_append.1 hascending).2.1).1 number' hmem

/-- A number is given at one place in a log only. -/
theorem Replays.eq_of_number (h : Replays entries st) {before before' since since' : List Entry}
    {e' : Entry} (hsplit : entries = before ++ e :: since)
    (hsplit' : entries = before' ++ e' :: since') (he : e.number? = some number)
    (he' : e'.number? = some number) : e = e' ∧ since = since' := by
  have hascending := h.ascending
  rcases List.append_eq_append_iff.1 (hsplit.symm.trans hsplit') with
    ⟨middle, rfl, hrest⟩ | ⟨middle, rfl, hrest⟩
  · rcases middle with _ | ⟨first, middle⟩
    · exact List.cons.inj hrest
    · obtain ⟨rfl, rfl⟩ := List.cons.inj hrest
      rw [hsplit] at hascending
      exact absurd (number_lt hascending he he') (Nat.lt_irrefl number)
  · rcases middle with _ | ⟨first, middle⟩
    · exact (List.cons.inj hrest).imp Eq.symm Eq.symm
    · obtain ⟨rfl, rfl⟩ := List.cons.inj hrest
      rw [hsplit'] at hascending
      exact absurd (number_lt hascending he' he) (Nat.lt_irrefl number)

/-- A surface is resumed under the number of its latest suspension, if that lasts, and under no
    other one. -/
theorem Replays.resume_iff (h : Replays entries st) :
    (st.resume x number).2 = true ↔ IsNewest entries x number := by
  rw [resume_snd_iff, h.suspended]

/-- What was known of a suspension lifts no other one. -/
theorem Replays.of_resume (h : Replays entries st) {before since : List Entry}
    (hsplit : entries = before ++ ⟨.suspend y, .number (some number)⟩ :: since)
    (hresumes : (st.resume x number).2 = true) : x = y ∧ ∀ e ∈ since, e.ends y = false := by
  obtain ⟨before', since', hsplit', hlasts⟩ := h.resume_iff.1 hresumes
  obtain ⟨hentry, rfl⟩ := h.eq_of_number hsplit hsplit' rfl rfl
  obtain rfl : y = x := Call.suspend.inj (congrArg Entry.call hentry)
  exact ⟨rfl, hlasts⟩

/-! ### Changes without new suspensions -/

/-- No suspension is new, and none is counted. -/
structure Frees (st st' : ArtifactStore) : Prop where
  suspensions : st'.suspensions = st.suspensions
  suspended : ∀ x number, st'.suspended.get? x = some number → st.suspended.get? x = some number

theorem frees_of_suspended_eq (hsuspensions : st'.suspensions = st.suspensions)
    (hsuspended : st'.suspended = st.suspended) : st.Frees st' :=
  ⟨hsuspensions, fun _ _ h => hsuspended ▸ h⟩

theorem Frees.refl (st : ArtifactStore) : st.Frees st := frees_of_suspended_eq rfl rfl

theorem frees_of_suspended_erase (hsuspensions : st'.suspensions = st.suspensions)
    (hsuspended : st'.suspended = st.suspended.erase x) : st.Frees st' := by
  refine ⟨hsuspensions, fun y number h => ?_⟩
  rw [hsuspended, Table.get?_erase] at h
  split at h
  · cases h
  · exact h

theorem Frees.trans {st'' : ArtifactStore} (h : st.Frees st') (h' : st'.Frees st'') :
    st.Frees st'' :=
  ⟨h'.suspensions.trans h.suspensions,
    fun x number hx => h.suspended x number (h'.suspended x number hx)⟩

theorem Moves.frees (h : st.Moves e st') (hnumber : e.number? = none) : st.Frees st' := by
  cases h with
  | other ends number suspended suspensions knows =>
    exact frees_of_suspended_eq suspensions suspended
  | unknown a unknown => exact frees_of_suspended_eq rfl rfl
  | unregister a suspended suspensions knows => exact frees_of_suspended_erase suspensions suspended
  | suspend known suspended suspensions knows => cases hnumber
  | resume before suspended suspensions knows =>
    exact frees_of_suspended_erase suspensions suspended

/-- A call whose answer is no number begins no suspension. -/
theorem frees_call (st : ArtifactStore) {c : Call}
    (hnumber : Entry.number? ⟨c, (st.call c).2⟩ = none) : st.Frees (st.call c).1 :=
  (st.moves_call c).frees hnumber

end ArtifactStore

end ContentBlocking
