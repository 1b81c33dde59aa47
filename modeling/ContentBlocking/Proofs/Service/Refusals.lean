import ContentBlocking.Proofs.Service.PendingDecisions
import ContentBlocking.Proofs.Service.Waiters

/-!
# Refusals

A command that asks for something impossible is refused: an entry of the whitelist that
names no domain, a list that is not there or is there already, a decision that is not
pending. Each of these is found out before anything has been changed. Once a command was accepted
its client is never told so: a run fails only if the engine compiles nothing.

* `Service.Refuses`: the commands that are refused in a state, and why;
* `Service.handle_of_refuses`, `Service.refuses_of_handle`: these are the commands that
  fail at once, and the service stays as it is;
* `refused_command_changes_nothing`: what clients are told that are refused is true, and
  their commands have changed nothing.
-/

namespace ContentBlocking

/-- The failure is due to what was asked for. -/
def Failure.IsRefusal : Failure → Prop
  | .invalidWhitelistInput _ | .invalidFilterListUrl _ | .duplicateFilterList _
  | .unknownFilterList _ | .builtInListRemoval _ | .unknownSession _ => True
  | _ => False

/-- The pending decision that the command ends. -/
def Command.decision? : Command → Option SessionId
  | .continueOnce id | .whitelistPermanently id | .cancel id => some id
  | _ => none

/-! ### Refusals of the parts -/

theorem Whitelist.domainOf_eq_error {entry : String} (h : domainChars? entry.toList = none) :
    domainOf entry = .error (.invalidWhitelistInput entry) := by
  rw [domainOf, h]

theorem Whitelist.of_domainOf_eq_error {entry : String} {e : Failure}
    (h : domainOf entry = .error e) :
    domainChars? entry.toList = none ∧ e = .invalidWhitelistInput entry := by
  rw [domainOf] at h
  split at h
  · cases h
  · next hnone => exact ⟨hnone, (Except.error.inj h).symm⟩

namespace Registry

variable {r : Registry} {d : Disk} {id url : String} {list : FilterList}

theorem get?_eq_none_iff : r.get? id = none ↔ ∀ list ∈ r.lists, list.id ≠ id := by
  simp [get?, List.find?_eq_none]

theorem add_of_invalid (h : FilterList.webUrl? r.urls url = none) (name : String) :
    r.add d name url = (r, d, .error (.invalidFilterListUrl url)) := by
  rw [add, FilterList.normalUrl, h]

theorem add_of_taken {normal : String} (h : FilterList.normalUrl r.urls url = .ok normal)
    (hmem : list ∈ r.lists) (htaken : list.id = FilterList.customId normal ∨ list.url = normal)
    (name : String) : r.add d name url = (r, d, .error (.duplicateFilterList normal)) := by
  have hany : r.lists.any (fun l => l.id == FilterList.customId normal || l.url == normal) = true :=
    List.any_eq_true.2 ⟨list, hmem, by simpa using htaken⟩
  rw [add, h]
  exact if_pos hany

theorem setEnabled_of_unknown (h : ∀ list ∈ r.lists, list.id ≠ id) (enabled : Bool) :
    r.setEnabled d id enabled = (r, d, .error (.unknownFilterList id)) := by
  rw [setEnabled, get?_eq_none_iff.2 h]

theorem remove_of_unknown (h : ∀ list ∈ r.lists, list.id ≠ id) :
    r.remove d id = (r, d, .error (.unknownFilterList id)) := by
  rw [remove, get?_eq_none_iff.2 h]

theorem remove_of_builtIn (h : r.get? id = some list) (hbuiltIn : list.isBuiltIn = true) :
    r.remove d id = (r, d, .error (.builtInListRemoval id)) := by
  rw [remove, h]
  exact if_pos hbuiltIn

end Registry

namespace Service

variable {s : Service} {t : Ticket} {c : Command} {e : Failure}

/-- The service refuses the command, for this reason. -/
inductive Refuses (s : Service) : Command → Failure → Prop
  | addNothing {entry : String} (noDomain : Whitelist.domainChars? entry.toList = none) :
      Refuses s (.addToWhitelist entry) (.invalidWhitelistInput entry)
  | removeNothing {entry : String} (noDomain : Whitelist.domainChars? entry.toList = none) :
      Refuses s (.removeFromWhitelist entry) (.invalidWhitelistInput entry)
  | enableUnknown {id : String} (unknown : ∀ list ∈ s.registry.lists, list.id ≠ id)
      (enabled : Bool) : Refuses s (.setListEnabled id enabled) (.unknownFilterList id)
  | addInvalid {url : String} (invalid : FilterList.webUrl? s.registry.urls url = none)
      (name : String) : Refuses s (.addList name url) (.invalidFilterListUrl url)
  | addTaken {url normal : String} {list : FilterList}
      (valid : FilterList.normalUrl s.registry.urls url = .ok normal)
      (mem : list ∈ s.registry.lists)
      (taken : list.id = FilterList.customId normal ∨ list.url = normal) (name : String) :
      Refuses s (.addList name url) (.duplicateFilterList normal)
  | removeUnknown {id : String} (unknown : ∀ list ∈ s.registry.lists, list.id ≠ id) :
      Refuses s (.removeList id) (.unknownFilterList id)
  | removeBuiltIn {id : String} {list : FilterList} (found : s.registry.get? id = some list)
      (builtIn : list.isBuiltIn = true) : Refuses s (.removeList id) (.builtInListRemoval id)
  | notPending {c : Command} {id : SessionId} (ends : c.decision? = some id)
      (unknown : s.decisions.session? id = none) : Refuses s c (.unknownSession id)
  /-- The page has no domain that could go on the whitelist. -/
  | pageWithoutDomain {id : SessionId} {session : BlockedSession}
      (pending : s.decisions.session? id = some session)
      (noDomain : Whitelist.domainChars? session.url.toList = none) :
      Refuses s (.whitelistPermanently id) (.invalidWhitelistInput session.url)

/-! ### Refused commands fail at once -/

theorem handle_of_notPending {id : SessionId} (hends : c.decision? = some id)
    (h : s.decisions.session? id = none) (t : Ticket) :
    s.handle t c = (s, some (.failed (.unknownSession id))) := by
  have htake := BlockDecisions.take_of_session?_eq_none h
  cases c with
  | continueOnce id' =>
    obtain rfl := Option.some.inj hends
    rw [handle, BlockDecisions.continueOnce_of_take_eq_error htake]
    rfl
  | whitelistPermanently id' =>
    obtain rfl := Option.some.inj hends
    rw [handle, BlockDecisions.whitelistPermanently_of_session?_eq_none h]
    rfl
  | cancel id' =>
    obtain rfl := Option.some.inj hends
    rw [handle, BlockDecisions.cancel_of_take_eq_error htake]
    rfl
  | _ => cases hends

/-- A refused command fails, and nothing is done. -/
theorem handle_of_refuses (h : s.Refuses c e) (t : Ticket) :
    s.handle t c = (s, some (.failed e)) := by
  rcases h with hnone | hnone | ⟨hunknown, enabled⟩ | ⟨hinvalid, name⟩ |
    ⟨hvalid, hmem, htaken, name⟩ | hunknown | ⟨hfound, hbuiltIn⟩ | ⟨hends, hunknown⟩ |
    ⟨hpending, hnone⟩
  · rw [handle, addToWhitelist, Whitelist.add, Whitelist.domainOf_eq_error hnone]
    rfl
  · rw [handle, removeFromWhitelist, Whitelist.remove, Whitelist.domainOf_eq_error hnone]
    rfl
  · rw [handle, setListEnabled, Registry.setEnabled_of_unknown hunknown]
    rfl
  · rw [handle, addList, Registry.add_of_invalid hinvalid]
  · rw [handle, addList, Registry.add_of_taken hvalid hmem htaken]
  · rw [handle, removeList, Registry.remove_of_unknown hunknown]
    rfl
  · rw [handle, removeList, Registry.remove_of_builtIn hfound hbuiltIn]
    rfl
  · exact handle_of_notPending hends hunknown t
  · rw [handle, BlockDecisions.whitelistPermanently_of_domainOf_eq_error hpending
      (Whitelist.domainOf_eq_error hnone)]
    rfl

/-! ### Commands that fail at once are refused -/

theorem of_thenRun_eq_failed {changed : Service × Except Failure Unit}
    (h : (thenRun t changed).2 = some (.failed e)) : changed.2 = .error e := by
  obtain ⟨s', e' | ⟨⟩⟩ := changed
  · obtain rfl := Reply.failed.inj (Option.some.inj h)
    rfl
  · cases h

theorem refuses_of_addToWhitelist {entry : String} (h : (s.addToWhitelist entry).2 = .error e) :
    s.Refuses (.addToWhitelist entry) e := by
  rw [addToWhitelist] at h
  rcases s.whitelist.add_cases entry with
    ⟨domain, -, -, hadd⟩ | ⟨domain, -, -, hadd⟩ | ⟨e', herror, hadd⟩ <;> rw [hadd] at h
  · cases h
  · cases h
  · obtain rfl := Except.error.inj h
    obtain ⟨hnone, rfl⟩ := Whitelist.of_domainOf_eq_error herror
    exact .addNothing hnone

theorem refuses_of_removeFromWhitelist {entry : String}
    (h : (s.removeFromWhitelist entry).2 = .error e) :
    s.Refuses (.removeFromWhitelist entry) e := by
  rw [removeFromWhitelist] at h
  rcases s.whitelist.remove_cases entry with
    ⟨domain, -, -, hremove⟩ | ⟨domain, -, -, hremove⟩ | ⟨e', herror, hremove⟩ <;>
    rw [hremove] at h
  · cases h
  · cases h
  · obtain rfl := Except.error.inj h
    obtain ⟨hnone, rfl⟩ := Whitelist.of_domainOf_eq_error herror
    exact .removeNothing hnone

theorem refuses_of_setListEnabled {id : String} {enabled : Bool}
    (h : (s.setListEnabled id enabled).2 = .error e) :
    s.Refuses (.setListEnabled id enabled) e := by
  replace h : (s.registry.setEnabled s.disk id enabled).2.2 = .error e :=
    eq_error_of_map_eq_error h
  rw [Registry.setEnabled] at h
  split at h
  · next hnone =>
    obtain rfl := Except.error.inj h
    exact .enableUnknown (Registry.get?_eq_none_iff.1 hnone) enabled
  · split at h <;> cases h

theorem refuses_of_addList {name url : String} (h : (s.addList name url).2 = .error e) :
    s.Refuses (.addList name url) e := by
  rw [addList_snd, Registry.add] at h
  split at h
  · next e' hinvalid =>
    obtain rfl := Except.error.inj h
    rw [FilterList.normalUrl] at hinvalid
    split at hinvalid
    · cases hinvalid
    · next hnone =>
      obtain rfl := Except.error.inj hinvalid
      exact .addInvalid hnone name
  · next normal hvalid =>
    split at h
    · next hany =>
      obtain rfl := Except.error.inj h
      obtain ⟨list, hmem, htaken⟩ := List.any_eq_true.1 hany
      exact .addTaken hvalid hmem (by simpa using htaken) name
    · cases h

theorem refuses_of_removeList {id : String} (h : (s.removeList id).2 = .error e) :
    s.Refuses (.removeList id) e := by
  replace h : (s.registry.remove s.disk id).2.2 = .error e := by
    rcases s.removeList_cases id with ⟨list, -, heq⟩ | ⟨e', he', heq⟩ <;> rw [heq] at h
    · cases h
    · rw [he', Except.error.inj h]
  rw [Registry.remove] at h
  split at h
  · next hnone =>
    obtain rfl := Except.error.inj h
    exact .removeUnknown (Registry.get?_eq_none_iff.1 hnone)
  · next list hfound =>
    split at h
    · next hbuiltIn =>
      obtain rfl := Except.error.inj h
      exact .removeBuiltIn hfound hbuiltIn
    · cases h

/-- A command that ends a decision is refused, or that decision is pending and can be taken
    out. -/
theorem refuses_or_pending (hkept : s.decisions.IsKept) {id : SessionId}
    (hends : c.decision? = some id) (h : (s.handle t c).2 = some (.failed e)) :
    s.Refuses c e ∨ ∃ b x, s.decisions.session? id = some x ∧ s.decisions.take id = (b, .ok x) := by
  cases hx : s.decisions.session? id with
  | none =>
    rw [handle_of_notPending hends hx] at h
    obtain rfl := Reply.failed.inj (Option.some.inj h)
    exact .inl (.notPending hends hx)
  | some x => exact .inr ⟨_, x, rfl, hkept.take_of_session? hx⟩

/-- Only refused commands fail at once. -/
theorem refuses_of_handle (hkept : s.decisions.IsKept)
    (h : (s.handle t c).2 = some (.failed e)) : s.Refuses c e := by
  cases c with
  | addToWhitelist entry => exact refuses_of_addToWhitelist (of_thenRun_eq_failed h)
  | removeFromWhitelist entry => exact refuses_of_removeFromWhitelist (of_thenRun_eq_failed h)
  | setListEnabled id enabled => exact refuses_of_setListEnabled (of_thenRun_eq_failed h)
  | removeList id => exact refuses_of_removeList (of_thenRun_eq_failed h)
  | addList name url =>
    rw [handle] at h
    split at h
    · cases h
    · next e' hadd =>
      obtain rfl := Reply.failed.inj (Option.some.inj h)
      exact refuses_of_addList (congrArg Prod.snd hadd)
  | continueOnce id =>
    rcases refuses_or_pending hkept rfl h with hrefuses | ⟨b, x, -, htake⟩
    · exact hrefuses
    · rw [handle, BlockDecisions.continueOnce_of_take htake] at h
      cases h
  | cancel id =>
    rcases refuses_or_pending hkept rfl h with hrefuses | ⟨b, x, -, htake⟩
    · exact hrefuses
    · rw [handle, BlockDecisions.cancel_of_take htake] at h
      cases h
  | whitelistPermanently id =>
    rcases refuses_or_pending hkept rfl h with hrefuses | ⟨b, x, hx, htake⟩
    · exact hrefuses
    · rcases hdomain : Whitelist.domainOf x.url with e' | domain
      · rw [handle, BlockDecisions.whitelistPermanently_of_domainOf_eq_error hx hdomain] at h
        obtain rfl := Reply.failed.inj (Option.some.inj h)
        obtain ⟨hnone, rfl⟩ := Whitelist.of_domainOf_eq_error hdomain
        exact .pageWithoutDomain hx hnone
      · rw [handle, BlockDecisions.whitelistPermanently_of_take hx hdomain htake] at h
        cases h
  | _ => cases h

end Service

/-! ### Runs are not refused -/

namespace CompileRun

/-- If the run has failed, that is because the engine has compiled nothing. -/
def FailsOnlyToCompile (r : CompileRun) : Prop :=
  ∀ e, r.stage = .done (.error e) → ¬e.IsRefusal

variable {r r' : CompileRun}

theorem FailsOnlyToCompile.looksUp {e : Engine} (hf : r.FailsOnlyToCompile)
    (h : r.LooksUp e r') : r'.FailsOnlyToCompile := by
  cases h with
  | stays going => exact hf
  | finds waiting reuse found => exact fun _ he => by cases he
  | begins waiting => exact fun _ he => by cases he

theorem FailsOnlyToCompile.loads (hf : r.FailsOnlyToCompile) (h : r.Loads r') :
    r'.FailsOnlyToCompile := by
  cases h with
  | stays => exact hf
  | sets loading i stage => exact fun _ he => by cases he

theorem FailsOnlyToCompile.compiles {e e' : Engine} (hf : r.FailsOnlyToCompile)
    (h : r.Compiles e e' r') : r'.FailsOnlyToCompile := by
  cases h with
  | stays => exact hf
  | plans loaded => exact fun _ he => by cases he
  | shard next compile => exact fun _ he => by cases he
  | completes last completes =>
    intro e he
    -- Only the collection that stands in can be compiled in vain.
    cases completes with
    | fails none compile =>
      obtain rfl := Except.error.inj (RunStage.done.inj he)
      exact id
    | _ => cases he

theorem keptByRuns_failsOnlyToCompile : Service.KeptByRuns FailsOnlyToCompile where
  waiting _ _ he := by cases he
  lookUp r e h := h.looksUp (r.looksUp e)
  beginList r source d now i h := h.loads (r.loads_beginList source d now i)
  finishList r source d now i reply h := h.loads (r.loads_finishList source d now i reply)
  compile r e h := h.compiles (r.compiles e)

end CompileRun

namespace Service

variable {s : Service} {t : Ticket} {e : Failure}

/-- A client that waits for a run and is told of a failure is told why the run failed. -/
theorem eq_error_of_finishWith {g : Nat} {output : Except Failure RunOutput}
    (h : (s.finishWith g output).2 = some (t, .failed e)) : output = .error e := by
  rw [(s.finishWith_waiters g output).2] at h
  obtain ⟨w, -, hreply⟩ := Option.map_eq_some_iff.1 h
  replace hreply := congrArg Prod.snd hreply
  rcases output with e' | output
  · obtain rfl := Reply.failed.inj hreply
    rfl
  · rw [Except.map] at hreply
    rcases hawaited : w.awaited with _ | _ | list <;> rw [hawaited] at hreply <;> cases hreply

/-- A client that is told of a refusal is told so as soon as its command is handled. -/
theorem exists_command_of_isRefusal (hruns : EveryRun CompileRun.FailsOnlyToCompile s)
    {event : Event} (he : e.IsRefusal) (h : (s.step event).2 = some (t, .failed e)) :
    ∃ c, event = .command t c ∧ (s.handle t c).2 = some (.failed e) := by
  cases event with
  | command t' c =>
    obtain ⟨reply, hreply, heq⟩ := Option.map_eq_some_iff.1 h
    obtain ⟨rfl, rfl⟩ := Prod.mk.inj heq
    exact ⟨c, rfl, hreply⟩
  | finishRun g =>
    rw [step, finishRun] at h
    split at h
    · next request output hr =>
      obtain rfl := eq_error_of_finishWith h
      exact absurd he (hruns g _ hr e rfl)
    · cases h
  | reattach r =>
    rw [step] at h
    split at h <;> cases h
  | _ => cases h

/-- After any events, a client that is told that its command is refused has asked for
    something that the service refuses, and its command has changed nothing: the service
    with its files, the engine and the shell is as it was before. All commands that the
    service refuses are answered like that. -/
theorem refused_command_changes_nothing {config : Config} {around : Surroundings}
    {first : SessionId} {s₀ : Service} (hstart : start config around first = .ok s₀)
    (events : List Event) (t : Ticket) {e : Failure} (he : e.IsRefusal) :
    let s := s₀.after events
    (∀ event, (s.step event).2 = some (t, .failed e) →
      (∃ c, event = .command t c ∧ s.Refuses c e) ∧ (s.step event).1 = s) ∧
      ∀ c, s.Refuses c e → s.step (.command t c) = (s, some (t, .failed e)) := by
  intro s
  have hfresh := fresh_of_start hstart
  have hkept : s.decisions.IsKept := isKept_after (isKept_of_start hstart) events
  have hruns := everyRun_after CompileRun.keptByRuns_failsOnlyToCompile hfresh events
  refine ⟨fun event h => ?_, fun c hrefuses => ?_⟩
  · obtain ⟨c, rfl, hfailed⟩ := exists_command_of_isRefusal hruns he h
    have hrefuses := refuses_of_handle hkept hfailed
    refine ⟨⟨c, rfl, hrefuses⟩, ?_⟩
    rw [step, handle_of_refuses hrefuses]
  · rw [step, handle_of_refuses hrefuses]
    rfl

/-- The page of a pending decision has no domain that could go on the whitelist: the
    decision stays pending. -/
theorem refused_command_changes_nothing_localhost : ∃ s₀ : Service,
    start {} {} .nil = .ok s₀ ∧
    let s := s₀.after [.command 1 (.reportBlock 4 "http://localhost/ads" 104)]
    let event := Event.command 2 (.whitelistPermanently .nil)
    (s.step event).2 = some (2, .failed (.invalidWhitelistInput "http://localhost/ads")) ∧
      (s.step event).1 = s ∧ s.decisions.pending = 1 := by
  have hvalid : Config.validate {} = .ok {} := by decide +kernel
  obtain ⟨s₀, hstart⟩ := exists_start hvalid {} .nil
  refine ⟨s₀, hstart, ?_⟩
  intro s event
  have hanswer : (start {} {} .nil).toOption.map (fun s₀ =>
      let s := s₀.after [.command 1 (.reportBlock 4 "http://localhost/ads" 104)]
      ((s.step (.command 2 (.whitelistPermanently .nil))).2, s.decisions.pending)) =
        some (some (2, .failed (.invalidWhitelistInput "http://localhost/ads")), 1) := by
    decide +kernel
  rw [hstart] at hanswer
  obtain ⟨hfailed, hpending⟩ := Prod.mk.inj (Option.some.inj hanswer)
  have hrefusal : (Failure.invalidWhitelistInput "http://localhost/ads").IsRefusal := trivial
  have hsame := ((refused_command_changes_nothing hstart
    [.command 1 (.reportBlock 4 "http://localhost/ads" 104)] 2 hrefusal).1 event hfailed).2
  exact ⟨hfailed, hsame, hpending⟩

end Service

end ContentBlocking
