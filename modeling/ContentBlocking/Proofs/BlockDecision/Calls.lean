import ContentBlocking.BlockDecision
import ContentBlocking.Proofs.Except
import ContentBlocking.Proofs.Table

/-!
# Calls of the decisions

Failed navigations, answers of the user and closed surfaces come in any order, and each
of them is one `Call`. What a failed navigation leads to depends on whether the page may
pass: then it is loaded, else a decision becomes pending. A decision that the user ends is
the one that is kept under its own surface, and an answer that fails changes nothing.

* `BlockDecisions.after`, `BlockDecisions.effects`: the decisions after some calls, and
  what followed from them;
* `BlockDecisions.IsKept`: decisions are kept under their surfaces;
* `signal_of_mayPass`, `signal_of_not_mayPass`: what a failed navigation leads to;
* `take_cases`, `whitelistPermanently_cases`: how the user's answers succeed and fail;
* `IsKept.call_of_ending?`: what they lead to.
-/

namespace ContentBlocking

/-- The shell is to ask the user about a page, or not to ask any more. -/
def DecisionEffect.isPopUp : DecisionEffect → Bool
  | .present _ | .dismiss _ _ => true
  | .reload _ _ | .whitelist _ | .leave _ => false

namespace BlockDecisions

/-- What the decisions are asked to do. -/
inductive Call where
  | signal (w : Whitelist) (id : SessionId) (s : Surface) (url : String) (code : Int)
  | continueOnce (id : SessionId)
  | whitelistPermanently (id : SessionId)
  | cancel (id : SessionId)
  | close (s : Surface)

/-- Changed decisions and the effects of the change; a failure has none. -/
def withEffects (change : BlockDecisions × Except Failure (List DecisionEffect)) :
    BlockDecisions × List DecisionEffect :=
  (change.1, change.2.toOption.getD [])

/-- The decisions after a call, and the effects of it. -/
def call (b : BlockDecisions) : Call → BlockDecisions × List DecisionEffect
  | .signal w id s url code => b.signal w id s url code
  | .continueOnce id => withEffects (b.continueOnce id)
  | .whitelistPermanently id => withEffects (b.whitelistPermanently id)
  | .cancel id => withEffects (b.cancel id)
  | .close s => b.close s

/-- The decisions after some calls. -/
def after (b : BlockDecisions) (calls : List Call) : BlockDecisions :=
  calls.foldl (fun b c => (b.call c).1) b

/-- The effects of some calls, in their order. -/
def effects (b : BlockDecisions) : List Call → List DecisionEffect
  | [] => []
  | c :: calls => (b.call c).2 ++ (b.call c).1.effects calls

/-- Some calls, each with the decisions as they were before it. -/
def moments (b : BlockDecisions) : List Call → List (BlockDecisions × Call)
  | [] => []
  | c :: calls => (b, c) :: (b.call c).1.moments calls

theorem after_append (b : BlockDecisions) (calls calls' : List Call) :
    b.after (calls ++ calls') = (b.after calls).after calls' := List.foldl_append

variable {b b' : BlockDecisions} {w : Whitelist} {id : SessionId} {s : Surface} {url : String}
  {x : BlockedSession}

/-! ### Surfaces -/

theorem sessionOn?_of_erase {t : Table Surface BlockedSession} (h : b.sessions = t.erase s) :
    b.sessionOn? s = none := by
  rw [sessionOn?, h, Table.get?_erase, if_pos rfl]

theorem sessionOn?_of_set {t : Table Surface BlockedSession} (h : b.sessions = t.set s x) :
    b.sessionOn? s = some x := by
  rw [sessionOn?, h, Table.get?_set, if_pos rfl]

/-! ### Failed navigations -/

theorem close_fst (b : BlockDecisions) (s : Surface) :
    (b.close s).1 = { b with sessions := b.sessions.erase s } := by
  rw [close]
  cases h : b.sessionOn? s with
  | none => rw [Table.erase_of_get?_eq_none h]
  | some x => rfl

/-- A surface that is closed loses no more than its decision. -/
theorem not_mem_close {e : DecisionEffect} (he : ∀ id, e ≠ .dismiss id s) : e ∉ (b.close s).2 := by
  rw [close]
  split
  · next x _ => exact fun hmem => he x.id (List.mem_singleton.1 hmem)
  · exact List.not_mem_nil

/-- No decision about the page is pending on the surface. -/
def IsNewOn (b : BlockDecisions) (s : Surface) (url : String) : Prop :=
  ∀ x, b.sessionOn? s = some x → x.url ≠ url

/-- A blocked page passes if the user has let it pass, or if its host is on the
    whitelist. -/
def MayPass (b : BlockDecisions) (w : Whitelist) (url : String) : Prop :=
  b.hasBypass url = true ∨ w.coversUrl url = true

instance (b : BlockDecisions) (w : Whitelist) (url : String) : Decidable (b.MayPass w url) :=
  inferInstanceAs (Decidable (_ ∨ _))

theorem any_sessionOn? (b : BlockDecisions) (s : Surface) (url : String) :
    (b.sessionOn? s).any (·.url == url) = true ↔ ¬b.IsNewOn s url := by
  rw [IsNewOn]
  cases b.sessionOn? s <;> simp

/-- A failed navigation that was not blocked, or about which a decision is pending, does
    nothing. -/
theorem signal_of_not {code : Int} (h : code = blockedCode → ¬b.IsNewOn s url) (w : Whitelist)
    (id : SessionId) : b.signal w id s url code = (b, []) := by
  rw [signal, if_pos]
  rw [any_sessionOn?]
  exact (Classical.em (code = blockedCode)).symm.imp_right h

theorem signal_of_isNewOn (h : b.IsNewOn s url) (w : Whitelist) (id : SessionId) :
    b.signal w id s url blockedCode =
      (((b.close s).1.settle w id s url).1,
        (b.close s).2 ++ ((b.close s).1.settle w id s url).2) := by
  rw [signal, if_neg]
  rw [any_sessionOn?]
  simp [h]

/-- A page that may pass is loaded, and the user has not let it pass any more. -/
theorem signal_of_mayPass (h : b.IsNewOn s url) (hpass : b.MayPass w url) (id : SessionId) :
    b.signal w id s url blockedCode =
      ({ sessions := b.sessions.erase s, bypass := b.bypass.filter (· ≠ url) },
        (b.close s).2 ++ [.reload s url]) := by
  rw [signal_of_isNewOn h, close_fst, settle]
  split
  · rfl
  · next hnone =>
    have hcovers : w.coversUrl url = true := hpass.resolve_left hnone
    have hkept : b.bypass.filter (· ≠ url) = b.bypass := by
      rw [List.filter_eq_self]
      rintro url' hmem
      have hne : url' ≠ url := fun heq => hnone (List.contains_iff_mem.2 (heq ▸ hmem))
      simpa using hne
    rw [if_pos hcovers, hkept]

/-- About a page that may not pass a decision becomes pending. -/
theorem signal_of_not_mayPass (h : b.IsNewOn s url) (hpass : ¬b.MayPass w url) (id : SessionId) :
    b.signal w id s url blockedCode =
      ({ b with sessions := (b.sessions.erase s).set s ⟨id, s, url⟩ },
        (b.close s).2 ++ [.present ⟨id, s, url⟩]) := by
  obtain ⟨hbypass, hcovers⟩ := not_or.1 hpass
  rw [signal_of_isNewOn h, close_fst, settle, if_neg hcovers]
  exact congrArg (fun settled : BlockDecisions × List DecisionEffect =>
    (settled.1, (b.close s).2 ++ settled.2)) (if_neg hbypass)

theorem signal_cases (b : BlockDecisions) (w : Whitelist) (id : SessionId) (s : Surface)
    (url : String) (code : Int) :
    b.signal w id s url code = (b, []) ∨
    (code = blockedCode ∧ b.IsNewOn s url ∧ b.MayPass w url) ∨
    (code = blockedCode ∧ b.IsNewOn s url ∧ ¬b.MayPass w url) := by
  by_cases hnot : code = blockedCode → ¬b.IsNewOn s url
  · exact .inl (signal_of_not hnot w id)
  · obtain ⟨hcode, hnew⟩ := Classical.not_imp.1 hnot
    refine .inr ?_
    rw [← and_or_left, ← and_or_left]
    exact ⟨hcode, not_not.1 hnew, Classical.em _⟩

/-! ### Decisions of the user -/

/-- Every decision is kept under its own surface, and a surface has at most one. -/
structure IsKept (b : BlockDecisions) : Prop where
  keys : b.sessions.keys.Nodup
  own : ∀ s x, b.sessionOn? s = some x → x.surface = s

theorem isKept_empty : IsKept {} := ⟨List.nodup_nil, nofun⟩

/-- A decision that is found by its identifier is the one of its surface. -/
theorem IsKept.sessionOn?_of_session? (h : b.IsKept) (hx : b.session? id = some x) :
    b.sessionOn? x.surface = some x ∧ x.id = id := by
  have hid : x.id = id := by simpa using List.find?_some hx
  obtain ⟨⟨s, y⟩, hmem, rfl⟩ := List.mem_map.1 (List.mem_of_find?_eq_some hx)
  have hs : b.sessionOn? s = some y := (Table.get?_eq_some_iff h.keys).2 hmem
  rw [h.own s y hs]
  exact ⟨hs, hid⟩

/-- A decision that is looked up and taken out leaves its surface without one, and otherwise
    nothing is done. -/
theorem take_cases (b : BlockDecisions) (id : SessionId) :
    b.take id = (b, .error (.unknownSession id)) ∨
      ∃ x y, b.session? id = some x ∧ b.sessionOn? x.surface = some y ∧
        b.take id = ({ b with sessions := b.sessions.erase x.surface }, .ok y) := by
  rw [take]
  split
  · exact .inl rfl
  · next x hx =>
    split
    · next y hy => exact .inr ⟨x, y, hx, hy, rfl⟩
    · exact .inl rfl

theorem take_of_session?_eq_none (hx : b.session? id = none) :
    b.take id = (b, .error (.unknownSession id)) := by
  rw [take, hx]

/-- The decision that is taken out is the one that was looked up. -/
theorem IsKept.take_of_session? (h : b.IsKept) (hx : b.session? id = some x) :
    b.take id = ({ b with sessions := b.sessions.erase x.surface }, .ok x) := by
  rw [take, hx]
  dsimp only
  rw [(h.sessionOn?_of_session? hx).1]

theorem continueOnce_of_take {y : BlockedSession} (h : b.take id = (b', .ok y)) :
    b.continueOnce id = ({ b' with bypass := y.url :: b'.bypass.filter (· ≠ y.url) },
      .ok [.dismiss id y.surface, .reload y.surface y.url]) := by
  rw [continueOnce, h]

theorem continueOnce_of_take_eq_error {e : Failure} (h : b.take id = (b', .error e)) :
    b.continueOnce id = (b', .error e) := by
  rw [continueOnce, h]

theorem cancel_of_take {y : BlockedSession} (h : b.take id = (b', .ok y)) :
    b.cancel id = (b', .ok [.dismiss id y.surface, .leave y.surface]) := by
  rw [cancel, h]

theorem cancel_of_take_eq_error {e : Failure} (h : b.take id = (b', .error e)) :
    b.cancel id = (b', .error e) := by
  rw [cancel, h]

theorem whitelistPermanently_of_session?_eq_none (hx : b.session? id = none) :
    b.whitelistPermanently id = (b, .error (.unknownSession id)) := by
  rw [whitelistPermanently, hx]

/-- A page without a domain leaves the decision pending. -/
theorem whitelistPermanently_of_domainOf_eq_error {e : Failure} (hx : b.session? id = some x)
    (he : Whitelist.domainOf x.url = .error e) : b.whitelistPermanently id = (b, .error e) := by
  rw [whitelistPermanently, hx]
  dsimp only
  rw [he]

theorem whitelistPermanently_of_take {y : BlockedSession} {domain : String}
    (hx : b.session? id = some x) (hdomain : Whitelist.domainOf x.url = .ok domain)
    (htake : b.take id = (b', .ok y)) :
    b.whitelistPermanently id = (b', .ok [.dismiss id y.surface, .whitelist domain,
      .reload y.surface y.url]) := by
  rw [whitelistPermanently, hx]
  dsimp only
  rw [hdomain]
  dsimp only
  rw [htake]

/-- The domain of the page is looked for before the decision is taken out. -/
theorem whitelistPermanently_cases (b : BlockDecisions) (id : SessionId) :
    b.whitelistPermanently id = (b, .error (.unknownSession id)) ∨
      ∃ x, b.session? id = some x ∧
        ((∃ e, Whitelist.domainOf x.url = .error e ∧ b.whitelistPermanently id = (b, .error e)) ∨
          ∃ domain b' y, Whitelist.domainOf x.url = .ok domain ∧ b.take id = (b', .ok y) ∧
            b.whitelistPermanently id = (b', .ok [.dismiss id y.surface, .whitelist domain,
              .reload y.surface y.url])) := by
  cases hx : b.session? id with
  | none => exact .inl (whitelistPermanently_of_session?_eq_none hx)
  | some x =>
    cases hdomain : Whitelist.domainOf x.url with
    | error e =>
      exact .inr ⟨x, rfl, .inl ⟨e, hdomain, whitelistPermanently_of_domainOf_eq_error hx hdomain⟩⟩
    | ok domain =>
      rcases b.take_cases id with htake | ⟨x', y, -, -, htake⟩
      · rw [whitelistPermanently, hx]
        dsimp only
        rw [hdomain]
        dsimp only
        rw [htake]
        exact .inl rfl
      · exact .inr ⟨x, rfl, .inr ⟨domain, _, y, hdomain, htake,
          whitelistPermanently_of_take hx hdomain htake⟩⟩

/-- The identifier of the decision that a call is to end. -/
def Call.ending? : Call → Option SessionId
  | .continueOnce id | .whitelistPermanently id | .cancel id => some id
  | .signal .. | .close _ => none

/-- A decision that the user ends is not pending any more, and is dismissed first. -/
theorem IsKept.call_of_ending? (h : b.IsKept) {c : Call} (hc : c.ending? = some id) :
    b.call c = (b, []) ∨ ∃ x others, b.session? id = some x ∧
      (b.call c).1.sessions = b.sessions.erase x.surface ∧
      (b.call c).2 = .dismiss id x.surface :: others ∧ ∀ e ∈ others, e.isPopUp = false := by
  have htake : b.take id = (b, .error (.unknownSession id)) ∨ ∃ b' y, b.session? id = some y ∧
      b'.sessions = b.sessions.erase y.surface ∧ b.take id = (b', .ok y) := by
    cases hx : b.session? id with
    | none => exact .inl (take_of_session?_eq_none hx)
    | some x => exact .inr ⟨_, x, rfl, rfl, h.take_of_session? hx⟩
  cases c with
  | signal | close => cases hc
  | continueOnce id' =>
    obtain rfl : id' = id := Option.some.inj hc
    rw [call]
    rcases htake with htake | ⟨b', y, hy, hs, htake⟩
    · rw [continueOnce_of_take_eq_error htake]
      exact .inl rfl
    · rw [continueOnce_of_take htake]
      exact .inr ⟨y, [.reload y.surface y.url], hy, hs, rfl, by simp [DecisionEffect.isPopUp]⟩
  | cancel id' =>
    obtain rfl : id' = id := Option.some.inj hc
    rw [call]
    rcases htake with htake | ⟨b', y, hy, hs, htake⟩
    · rw [cancel_of_take_eq_error htake]
      exact .inl rfl
    · rw [cancel_of_take htake]
      exact .inr ⟨y, [.leave y.surface], hy, hs, rfl, by simp [DecisionEffect.isPopUp]⟩
  | whitelistPermanently id' =>
    obtain rfl : id' = id := Option.some.inj hc
    rw [call]
    rcases b.whitelistPermanently_cases id' with
      heq | ⟨x, -, ⟨e, -, heq⟩ | ⟨domain, b', y, -, hok, heq⟩⟩ <;> rw [heq]
    · exact .inl rfl
    · exact .inl rfl
    · rcases htake with htake | ⟨b'', y', hy, hs, htake⟩
      · cases hok.symm.trans htake
      · obtain ⟨rfl, hsame⟩ := Prod.mk.inj (hok.symm.trans htake)
        obtain rfl := Except.ok.inj hsame
        exact .inr ⟨y, [.whitelist domain, .reload y.surface y.url], hy, hs, rfl,
          by simp [DecisionEffect.isPopUp]⟩

end BlockDecisions

end ContentBlocking
