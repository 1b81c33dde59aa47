import ContentBlocking.Proofs.BlockDecision.Calls

/-!
# Pop-ups

The shell asks the user about a page while a decision about it is pending, and no
longer. So the effects of all calls go up and down with the decisions that are kept:
whoever was asked about is dismissed once, when the decision is gone, and nobody else is.

* `BlockDecisions.PopsUp`: effects, one by one, and the decisions kept along them;
* `popsUp_call`: the effects of a call;
* `BlockDecisions.Balanced`: pop-ups and the decisions that are kept;
* `popUps_balance`: they are balanced after all calls.
-/

namespace ContentBlocking.BlockDecisions

/-- The decisions that the user was asked about, in their order. -/
def presented (effects : List DecisionEffect) : List BlockedSession :=
  effects.filterMap fun
    | .present x => some x
    | _ => none

/-- The surfaces on which a decision with the identifier was dismissed. -/
def dismissals (id : SessionId) (effects : List DecisionEffect) : List Surface :=
  effects.filterMap fun
    | .dismiss id' s => if id' = id then some s else none
    | _ => none

/-- Pop-ups and the decisions that are kept. -/
structure Balanced (b : BlockDecisions) (effects : List DecisionEffect) : Prop where
  kept : b.IsKept
  /-- A decision that the user was asked about is pending, or was dismissed once, and
      after that. -/
  once : ∀ before x rest, effects = before ++ .present x :: rest →
    dismissals x.id before = [] ∧
      (b.sessionOn? x.surface = some x ∧ dismissals x.id rest = [] ∨
        b.sessionOn? x.surface ≠ some x ∧ dismissals x.id rest = [x.surface])
  /-- Nothing else was dismissed. -/
  known : ∀ before id s rest, effects = before ++ .dismiss id s :: rest →
    ∃ x, .present x ∈ before ∧ x.id = id ∧ x.surface = s
  pending : ∀ s x, b.sessionOn? s = some x → .present x ∈ effects

section

variable {b b' b'' : BlockDecisions} {effects effects' : List DecisionEffect}
  {e : DecisionEffect} {x y : BlockedSession}

/-! ### Effects -/

theorem mem_presented : x ∈ presented effects ↔ .present x ∈ effects := by
  rw [presented, List.mem_filterMap]
  constructor
  · rintro ⟨e, he, heq⟩
    cases e with
    | present y => exact Option.some.inj heq ▸ he
    | _ => cases heq
  · exact fun h => ⟨_, h, rfl⟩

theorem mem_dismissals {id : SessionId} {s : Surface} :
    s ∈ dismissals id effects ↔ .dismiss id s ∈ effects := by
  rw [dismissals, List.mem_filterMap]
  constructor
  · rintro ⟨e, he, heq⟩
    cases e with
    | dismiss id' s' =>
      dsimp only at heq
      split at heq
      · next hid => rw [← hid, ← Option.some.inj heq]; exact he
      · cases heq
    | _ => cases heq
  · exact fun h => ⟨_, h, if_pos rfl⟩

theorem mem_presented_append_cons (before rest : List DecisionEffect) (x : BlockedSession) :
    x ∈ presented (before ++ .present x :: rest) :=
  mem_presented.2 (List.mem_append_right _ List.mem_cons_self)

theorem presented_append (effects effects' : List DecisionEffect) :
    presented (effects ++ effects') = presented effects ++ presented effects' :=
  List.filterMap_append

theorem dismissals_append (id : SessionId) (effects effects' : List DecisionEffect) :
    dismissals id (effects ++ effects') = dismissals id effects ++ dismissals id effects' :=
  List.filterMap_append

theorem dismissals_concat_of_not (id : SessionId) (effects : List DecisionEffect)
    (h : ∀ s, e ≠ .dismiss id s) : dismissals id (effects ++ [e]) = dismissals id effects := by
  have hnone : dismissals id [e] = [] :=
    List.eq_nil_iff_forall_not_mem.2 fun s hs =>
      h s (List.mem_singleton.1 (mem_dismissals.1 hs)).symm
  rw [dismissals_append, hnone, List.append_nil]

theorem dismissals_concat (effects : List DecisionEffect) (id : SessionId) (s : Surface) :
    dismissals id (effects ++ [.dismiss id s]) = dismissals id effects ++ [s] := by
  have hone : dismissals id [.dismiss id s] = [s] :=
    List.filterMap_cons_some (if_pos rfl)
  rw [dismissals_append, hone]

/-- Where an effect stands when one more has come. -/
theorem concat_eq_append_cons {e' : DecisionEffect} {before rest : List DecisionEffect}
    (h : effects ++ [e] = before ++ e' :: rest) :
    (rest = [] ∧ e = e' ∧ effects = before) ∨
      ∃ rest', rest = rest' ++ [e] ∧ effects = before ++ e' :: rest' := by
  rcases List.eq_nil_or_concat rest with rfl | ⟨rest', e'', rfl⟩
  · obtain ⟨heffects, he⟩ := List.append_inj' h rfl
    exact .inl ⟨rfl, List.singleton_inj.1 he, heffects⟩
  · rw [List.concat_eq_append, ← List.cons_append, ← List.append_assoc] at h
    obtain ⟨heffects, he⟩ := List.append_inj' h rfl
    obtain rfl := List.singleton_inj.1 he
    exact .inr ⟨rest', List.concat_eq_append, heffects⟩

/-! ### Decisions that are kept -/

theorem IsKept.congr (h : b.IsKept) (hs : b'.sessions = b.sessions) : b'.IsKept := by
  obtain ⟨keys, own⟩ := h
  rw [← hs] at keys
  refine ⟨keys, fun s x hx => own s x ?_⟩
  rw [BlockDecisions.sessionOn?, hs] at hx
  exact hx

theorem sessionOn?_erase {s : Surface} (hs : b'.sessions = b.sessions.erase s) (s' : Surface) :
    b'.sessionOn? s' = if s' = s then none else b.sessionOn? s' := by
  rw [sessionOn?, hs, Table.get?_erase]
  rfl

theorem sessionOn?_set (hs : b'.sessions = b.sessions.set x.surface x) (s : Surface) :
    b'.sessionOn? s = if s = x.surface then some x else b.sessionOn? s := by
  rw [sessionOn?, hs, Table.get?_set]
  rfl

theorem IsKept.erase (h : b.IsKept) {s : Surface} (hs : b'.sessions = b.sessions.erase s) :
    b'.IsKept where
  keys := by
    rw [hs]
    exact Table.nodup_keys_erase h.keys s
  own s' y hy := by
    rw [sessionOn?_erase hs] at hy
    split at hy
    · cases hy
    · exact h.own s' y hy

theorem IsKept.set (h : b.IsKept) (hfree : b.sessionOn? x.surface = none)
    (hs : b'.sessions = b.sessions.set x.surface x) : b'.IsKept where
  keys := by
    rw [hs]
    exact Table.nodup_keys_set h.keys hfree x
  own s y hy := by
    rw [sessionOn?_set hs] at hy
    split at hy
    · next heq => rw [← Option.some.inj hy, heq]
    · exact h.own s y hy

/-! ### One effect more -/

namespace Balanced

theorem quiet (h : b.Balanced effects) (he : e.isPopUp = false)
    (hs : b'.sessions = b.sessions) : b'.Balanced (effects ++ [e]) where
  kept := h.kept.congr hs
  once before y rest heq := by
    rcases concat_eq_append_cons heq with ⟨-, rfl, -⟩ | ⟨rest', rfl, heffects⟩
    · cases he
    · have hnot : ∀ s, e ≠ .dismiss y.id s := fun s heq => by
        rw [heq] at he
        cases he
      rw [dismissals_concat_of_not _ _ hnot, BlockDecisions.sessionOn?, hs]
      exact h.once before y rest' heffects
  known before id s rest heq := by
    rcases concat_eq_append_cons heq with ⟨-, rfl, -⟩ | ⟨rest', rfl, heffects⟩
    · cases he
    · exact h.known before id s rest' heffects
  pending s y hy := by
    rw [BlockDecisions.sessionOn?, hs] at hy
    exact List.mem_append_left _ (h.pending s y hy)

theorem dismiss (h : b.Balanced effects) (hids : ((presented effects).map (·.id)).Nodup)
    (hx : b.sessionOn? x.surface = some x) (hs : b'.sessions = b.sessions.erase x.surface) :
    b'.Balanced (effects ++ [.dismiss x.id x.surface]) where
  kept := h.kept.erase hs
  once before y rest heq := by
    rcases concat_eq_append_cons heq with ⟨-, he, -⟩ | ⟨rest', rfl, heffects⟩
    · cases he
    have hy : y ∈ presented effects := heffects ▸ mem_presented_append_cons before rest' y
    obtain ⟨hbefore, hcases⟩ := h.once before y rest' heffects
    refine ⟨hbefore, ?_⟩
    rw [sessionOn?_erase hs]
    by_cases hid : y.id = x.id
    · -- No two decisions have the same identifier, so it was pending until now.
      have hxmem := mem_presented.2 (h.pending _ x hx)
      obtain rfl := List.inj_on_of_nodup_map hids hy hxmem hid
      have hnone : dismissals y.id rest' = [] := by
        rcases hcases with ⟨-, hrest⟩ | ⟨hgone, -⟩
        · exact hrest
        · exact absurd hx hgone
      right
      rw [if_pos rfl, dismissals_concat, hnone]
      exact ⟨nofun, rfl⟩
    · have hnot (s : Surface) : DecisionEffect.dismiss x.id x.surface ≠ .dismiss y.id s :=
        fun heq => hid (DecisionEffect.dismiss.inj heq).1.symm
      rw [dismissals_concat_of_not _ _ hnot]
      split
      · next hsurface =>
        -- The decision of the surface was another one.
        rcases hcases with ⟨hpending, -⟩ | ⟨-, hrest⟩
        · rw [hsurface, hx] at hpending
          exact absurd (congrArg (·.id) (Option.some.inj hpending)).symm hid
        · exact .inr ⟨nofun, hrest⟩
      · exact hcases
  known before id s rest heq := by
    rcases concat_eq_append_cons heq with ⟨-, he, rfl⟩ | ⟨rest', rfl, heffects⟩
    · cases he
      exact ⟨x, h.pending _ x hx, rfl, rfl⟩
    · exact h.known before id s rest' heffects
  pending s y hy := by
    rw [sessionOn?_erase hs] at hy
    split at hy
    · cases hy
    · exact List.mem_append_left _ (h.pending s y hy)

theorem dismissals_eq_nil (h : b.Balanced effects) {id : SessionId}
    (hid : id ∉ (presented effects).map (·.id)) : dismissals id effects = [] := by
  refine List.eq_nil_iff_forall_not_mem.2 fun s hs => hid ?_
  obtain ⟨before, rest, heffects⟩ := List.append_of_mem (mem_dismissals.1 hs)
  obtain ⟨x, hx, rfl, -⟩ := h.known before id s rest heffects
  refine List.mem_map_of_mem (mem_presented.2 ?_)
  rw [heffects]
  exact List.mem_append_left _ hx

theorem present (h : b.Balanced effects)
    (hid : x.id ∉ (presented effects).map (·.id))
    (hfree : b.sessionOn? x.surface = none) (hs : b'.sessions = b.sessions.set x.surface x) :
    b'.Balanced (effects ++ [.present x]) where
  kept := h.kept.set hfree hs
  once before y rest heq := by
    rw [sessionOn?_set hs]
    rcases concat_eq_append_cons heq with ⟨rfl, he, rfl⟩ | ⟨rest', rfl, heffects⟩
    · cases he
      exact ⟨h.dismissals_eq_nil hid, .inl ⟨if_pos rfl, rfl⟩⟩
    obtain ⟨hbefore, hcases⟩ := h.once before y rest' heffects
    have hnot (s : Surface) : DecisionEffect.present x ≠ .dismiss y.id s := nofun
    rw [dismissals_concat_of_not _ _ hnot]
    refine ⟨hbefore, ?_⟩
    split
    · next hsurface =>
      rcases hcases with ⟨hpending, -⟩ | ⟨-, hrest⟩
      · rw [hsurface, hfree] at hpending
        cases hpending
      · refine .inr ⟨fun hsame => hid ?_, hrest⟩
        rw [Option.some.inj hsame]
        exact List.mem_map_of_mem (heffects ▸ mem_presented_append_cons before rest' y)
    · exact hcases
  known before id s rest heq := by
    rcases concat_eq_append_cons heq with ⟨-, he, -⟩ | ⟨rest', rfl, heffects⟩
    · cases he
    · exact h.known before id s rest' heffects
  pending s y hy := by
    rw [sessionOn?_set hs] at hy
    split at hy
    · obtain rfl := Option.some.inj hy
      exact List.mem_concat_self
    · exact List.mem_append_left _ (h.pending s y hy)

end Balanced

/-! ### Effects one by one -/

/-- An effect goes with a change of the decisions that are kept. -/
inductive Pops (b b' : BlockDecisions) : DecisionEffect → Prop
  | quiet {e : DecisionEffect} (he : e.isPopUp = false) (hs : b'.sessions = b.sessions) :
      Pops b b' e
  | dismiss {x : BlockedSession} (hx : b.sessionOn? x.surface = some x)
      (hs : b'.sessions = b.sessions.erase x.surface) : Pops b b' (.dismiss x.id x.surface)
  | present {x : BlockedSession} (hfree : b.sessionOn? x.surface = none)
      (hs : b'.sessions = b.sessions.set x.surface x) : Pops b b' (.present x)

/-- Effects go, one by one, with changes of the decisions that are kept. -/
inductive PopsUp : BlockDecisions → List DecisionEffect → BlockDecisions → Prop
  | nil (b : BlockDecisions) : PopsUp b [] b
  | cons {b b' b'' : BlockDecisions} {e : DecisionEffect} {effects : List DecisionEffect}
      (pops : Pops b b' e) (rest : PopsUp b' effects b'') : PopsUp b (e :: effects) b''

theorem Pops.isKept (hp : Pops b b' e) (h : b.IsKept) : b'.IsKept := by
  cases hp with
  | quiet he hs => exact h.congr hs
  | dismiss hx hs => exact h.erase hs
  | present hfree hs => exact h.set hfree hs

theorem PopsUp.isKept (hp : PopsUp b effects b') (h : b.IsKept) : b'.IsKept := by
  induction hp with
  | nil => exact h
  | cons pops rest ih => exact ih (pops.isKept h)

theorem PopsUp.trans (h : PopsUp b effects b') (h' : PopsUp b' effects' b'') :
    PopsUp b (effects ++ effects') b'' := by
  induction h with
  | nil => exact h'
  | cons pops rest ih => exact .cons pops (ih h')

theorem popsUp_of_quiet (b : BlockDecisions) (h : ∀ e ∈ effects, e.isPopUp = false) :
    PopsUp b effects b := by
  induction effects with
  | nil => exact .nil b
  | cons e effects ih =>
    obtain ⟨he, hrest⟩ := List.forall_mem_cons.1 h
    exact .cons (.quiet he rfl) (ih hrest)

theorem popsUp_close (h : b.IsKept) (s : Surface) : PopsUp b (b.close s).2 (b.close s).1 := by
  rw [close]
  cases hx : b.sessionOn? s with
  | none => exact .nil b
  | some x =>
    obtain rfl := h.own s x hx
    exact .cons (.dismiss hx rfl) (.nil _)

theorem popsUp_call (h : b.IsKept) (c : Call) : PopsUp b (b.call c).2 (b.call c).1 := by
  have hend {id : SessionId} (hc : c.ending? = some id) : PopsUp b (b.call c).2 (b.call c).1 := by
    rcases h.call_of_ending? hc with heq | ⟨x, others, hx, hs, heffects, hothers⟩
    · rw [heq]
      exact .nil b
    · obtain ⟨hon, rfl⟩ := h.sessionOn?_of_session? hx
      rw [heffects]
      exact .cons (.dismiss hon hs) (popsUp_of_quiet _ hothers)
  cases c with
  | continueOnce | whitelistPermanently | cancel => exact hend rfl
  | close s => exact popsUp_close h s
  | signal w id s url code =>
    rw [call]
    have hclose := popsUp_close h s
    rcases b.signal_cases w id s url code with hsame | ⟨rfl, hnew, hpass⟩ | ⟨rfl, hnew, hpass⟩
    · rw [hsame]
      exact .nil b
    · rw [signal_of_mayPass hnew hpass]
      refine hclose.trans (.cons (.quiet rfl ?_) (.nil _))
      rw [close_fst]
    · rw [signal_of_not_mayPass hnew hpass]
      refine hclose.trans (.cons (.present ?_ ?_) (.nil _))
      · exact sessionOn?_of_erase (congrArg sessions (b.close_fst s))
      · rw [close_fst]

theorem popsUp_effects (h : b.IsKept) (calls : List Call) :
    PopsUp b (b.effects calls) (b.after calls) := by
  induction calls generalizing b with
  | nil => exact .nil b
  | cons c calls ih =>
    have hcall := popsUp_call h c
    exact hcall.trans (ih (hcall.isKept h))

/-! ### The balance -/

theorem Balanced.pops (h : b.Balanced effects) (hp : Pops b b' e)
    (hids : ((presented (effects ++ [e])).map (·.id)).Nodup) :
    b'.Balanced (effects ++ [e]) := by
  rw [presented_append, List.map_append, List.nodup_append] at hids
  cases hp with
  | quiet he hs => exact h.quiet he hs
  | dismiss hx hs => exact h.dismiss hids.1 hx hs
  | @present x hfree hs =>
    refine h.present (fun hmem => ?_) hfree hs
    exact hids.2.2 _ hmem x.id List.mem_cons_self rfl

theorem Balanced.popsUp (h : b.Balanced effects) (hp : PopsUp b effects' b')
    (hids : ((presented (effects ++ effects')).map (·.id)).Nodup) :
    b'.Balanced (effects ++ effects') := by
  induction hp generalizing effects with
  | nil => rwa [List.append_nil]
  | cons pops rest ih =>
    rw [List.append_cons] at hids ⊢
    refine ih (h.pops pops ?_) hids
    rw [presented_append, List.map_append] at hids
    exact (List.nodup_append.1 hids).1

theorem balanced_empty : Balanced {} [] where
  kept := isKept_empty
  once before x rest heq := absurd heq (by simp)
  known before id s rest heq := absurd heq (by simp)
  pending s x hx := nomatch hx

theorem sessionOn?_of_present (hkept : b.IsKept) {c : Call} (h : .present x ∈ (b.call c).2) :
    (b.call c).1.sessionOn? x.surface = some x := by
  have hend {id : SessionId} (hc : c.ending? = some id) : .present x ∉ (b.call c).2 := by
    rcases hkept.call_of_ending? hc with heq | ⟨y, others, -, -, heffects, hothers⟩
    · rw [heq]
      exact List.not_mem_nil
    · rw [heffects]
      rintro (_ | ⟨_, hmem⟩)
      exact absurd (hothers _ hmem) (by simp [DecisionEffect.isPopUp])
  have hclose (s : Surface) : .present x ∉ (b.close s).2 := not_mem_close (by simp)
  cases c with
  | continueOnce | whitelistPermanently | cancel => exact absurd h (hend rfl)
  | close s => exact absurd h (hclose s)
  | signal w id s url code =>
    rw [call] at h ⊢
    rcases b.signal_cases w id s url code with hsame | ⟨rfl, hnew, hpass⟩ | ⟨rfl, hnew, hpass⟩
    · rw [hsame] at h
      cases h
    · rw [signal_of_mayPass hnew hpass] at h
      simp [hclose] at h
    · rw [signal_of_not_mayPass hnew hpass] at h ⊢
      obtain rfl : x = ⟨id, s, url⟩ := by simpa [hclose] using h
      exact sessionOn?_of_set rfl

end

/-- Whatever the decisions are asked to do, if no two of them have the same identifier,
    then at every point a surface has at most one decision, kept under that surface. Every
    decision that the user was asked about is still pending, or was dismissed exactly
    once, on its surface and after that. Nothing else is ever dismissed, and what the
    user is asked about is pending then. -/
theorem popUps_balance (calls : List Call)
    (hids : ((presented (effects {} calls)).map (·.id)).Nodup) :
    Balanced (after {} calls) (effects {} calls) ∧
    ∀ c x, .present x ∈ ((after {} calls).call c).2 →
      ((after {} calls).call c).1.sessionOn? x.surface = some x :=
  ⟨balanced_empty.popsUp (popsUp_effects isKept_empty calls) hids,
    fun _ _ => sessionOn?_of_present ((popsUp_effects isKept_empty calls).isKept isKept_empty)⟩

/-- Two surfaces in turn: one decision gives way to another, one is ended by the user
    and one by the surface. -/
def twoSurfaces : List Call :=
  [.signal {} ⟨1⟩ 1 "https://one.test/" blockedCode,
    .signal {} ⟨2⟩ 2 "https://one.test/" blockedCode,
    .signal ⟨["two.test"]⟩ ⟨3⟩ 1 "https://www.two.test/" blockedCode,
    .signal {} ⟨4⟩ 1 "https://one.test/" blockedCode,
    .continueOnce ⟨2⟩,
    .continueOnce ⟨2⟩,
    .signal {} ⟨5⟩ 3 "https://two.test/" blockedCode,
    .close 1]

theorem popUps_balance_twoSurfaces :
    (presented (effects {} twoSurfaces)).map (·.id) = [⟨1⟩, ⟨2⟩, ⟨4⟩, ⟨5⟩] ∧
    (after {} twoSurfaces).sessions = [(3, ⟨⟨5⟩, 3, "https://two.test/"⟩)] ∧
    Balanced (after {} twoSurfaces) (effects {} twoSurfaces) := by
  have hids : (presented (effects {} twoSurfaces)).map (·.id) =
      [⟨1⟩, ⟨2⟩, ⟨4⟩, ⟨5⟩] := by
    decide +kernel
  refine ⟨hids, by decide +kernel, (popUps_balance twoSurfaces ?_).1⟩
  rw [hids]
  decide

end ContentBlocking.BlockDecisions
