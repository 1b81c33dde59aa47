import ContentBlocking.Proofs.BlockDecision.Calls
import ContentBlocking.Proofs.Service.RunMoves
import Mathlib.Data.List.Induction

/-!
# What runs are asked for

A command starts at most one run. The domains that the run leaves out are those that
are on the whitelist when the command is done, and only the first start-up asks for
artifacts of an earlier run to be used again.

* `Service.Issues`: the run that a command starts;
* `Service.whitelistAt`: the whitelist as it was when a run was issued;
* `Service.issued_after`: what the runs in flight were asked for.
-/

namespace ContentBlocking

namespace Service

/-- A command starts no run, or one. -/
inductive Issues (s : Service) (c : Command) (s' : Service) : Prop
  | none (generation : s'.generation = s.generation) (runs : s'.runs = s.runs)
  | run (request : RunRequest) (generation : s'.generation = s.generation + 1)
      (runs : s'.runs = s.runs.set (s.generation + 1) ⟨request, .waiting⟩)
      (excluded : request.excluded = s'.whitelist.domains)
      (reuse : request.reuse ≠ none → c = .startUp ∧ s.startedUp = false)

variable {s s' : Service} {c : Command}

theorem issues_startRun (hgeneration : s'.generation = s.generation) (hruns : s'.runs = s.runs)
    {reuse : Option (List String)} (refresh : Bool) (waiter : Option Waiter)
    (hreuse : reuse ≠ .none → c = .startUp ∧ s.startedUp = false) :
    Issues s c (s'.startRun reuse refresh waiter) := by
  let request : RunRequest := {
    generation := s'.generation + 1
    lists := s'.registry.enabled
    excluded := s'.whitelist.domains
    refresh := refresh
    reuse := reuse
    options := s'.config.compileOptions
    nameSpace := s'.config.artifactNamespace
    maxRulesPerShard := s'.config.maxRulesPerShard
    maxShards := s'.config.maxShards }
  refine .run request ?_ ?_ rfl hreuse
  · rw [← hgeneration]
    rfl
  · rw [← hgeneration, ← hruns]
    rfl

theorem Quiet.issues_startRun (h : s.Quiet s') (refresh : Bool) (waiter : Option Waiter) :
    Issues s c (s'.startRun none refresh waiter) :=
  Service.issues_startRun h.generation h.runs refresh waiter fun hreuse => absurd rfl hreuse

theorem issues_thenRun (t : Ticket) {changed : Service × Except Failure Unit}
    (hc : s.Quiet changed.1) : Issues s c (thenRun t changed).1 := by
  obtain ⟨s', e | ⟨⟩⟩ := changed
  · exact .none hc.generation hc.runs
  · exact hc.issues_startRun false (some ⟨t, .outcome⟩)

/-! ### Decisions -/

/-- Only when a domain goes on the whitelist does a decision start a run. -/
theorem runs_decide (s : Service) (waiter : Option Waiter)
    (change : BlockDecisions × List DecisionEffect)
    (h : ∀ domain, .whitelist domain ∉ change.2) :
    (s.decide waiter change).generation = s.generation ∧
      (s.decide waiter change).runs = s.runs := by
  refine decide_induction (P := fun s' => s'.generation = s.generation ∧ s'.runs = s.runs)
    ⟨rfl, rfl⟩ fun effect heffect s' hs => ?_
  cases effect with
  | whitelist domain => exact absurd heffect (h domain)
  | _ => exact hs

theorem issues_tryDecide (waiter : Option Waiter)
    {change : BlockDecisions × Except Failure (List DecisionEffect)}
    (h : ∀ effects, change.2 = .ok effects → ∀ domain, .whitelist domain ∉ effects) :
    Issues s c (s.tryDecide waiter change).1 := by
  obtain ⟨b, e | effects⟩ := change
  · exact .none rfl rfl
  · obtain ⟨hgeneration, hruns⟩ := s.runs_decide waiter (b, effects) (h _ rfl)
    exact .none hgeneration hruns

theorem whitelist_not_mem_close (b : BlockDecisions) (x : Surface) (domain : String) :
    .whitelist domain ∉ (b.close x).2 := by
  rw [BlockDecisions.close]
  split <;> simp

theorem whitelist_not_mem_signal (b : BlockDecisions) (w : Whitelist) (id : SessionId) (x : Surface)
    (url : String) (code : Int) (domain : String) :
    .whitelist domain ∉ (b.signal w id x url code).2 := by
  have hclose := whitelist_not_mem_close b x domain
  have hsettle (b : BlockDecisions) : .whitelist domain ∉ (b.settle w id x url).2 := by
    rw [BlockDecisions.settle]
    split
    · simp
    · split <;> simp
  rw [BlockDecisions.signal]
  split
  · exact List.not_mem_nil
  · exact fun hmem => (List.mem_append.1 hmem).elim hclose (hsettle _)

theorem whitelist_not_mem_continueOnce {b : BlockDecisions} {id : SessionId}
    {effects : List DecisionEffect} (h : (b.continueOnce id).2 = .ok effects) (domain : String) :
    .whitelist domain ∉ effects := by
  rw [BlockDecisions.continueOnce] at h
  split at h
  · cases h
  · obtain rfl := Except.ok.inj h
    simp

theorem whitelist_not_mem_cancel {b : BlockDecisions} {id : SessionId}
    {effects : List DecisionEffect} (h : (b.cancel id).2 = .ok effects) (domain : String) :
    .whitelist domain ∉ effects := by
  rw [BlockDecisions.cancel] at h
  split at h
  · cases h
  · obtain rfl := Except.ok.inj h
    simp

theorem effects_whitelistPermanently {b : BlockDecisions} {id : SessionId}
    {effects : List DecisionEffect} (h : (b.whitelistPermanently id).2 = .ok effects) :
    ∃ x url domain, effects = [.dismiss id x, .whitelist domain, .reload x url] := by
  rcases b.whitelistPermanently_cases id with
    heq | ⟨x, -, ⟨e, -, heq⟩ | ⟨domain, b', y, -, -, heq⟩⟩ <;> rw [heq] at h
  · cases h
  · cases h
  · exact ⟨_, _, domain, (Except.ok.inj h).symm⟩

theorem issues_whitelistDomain (hgeneration : s'.generation = s.generation)
    (hruns : s'.runs = s.runs) (domain : String) (waiter : Option Waiter) :
    Issues s c (s'.whitelistDomain domain waiter) := by
  rw [whitelistDomain]
  refine issues_startRun ?_ ?_ false waiter fun hreuse => absurd rfl hreuse
  · split <;> exact hgeneration
  · split <;> exact hruns

/-- A page that passes does not matter to the runs. -/
theorem Issues.reload (h : Issues s c s') (x : Surface) (url : String) :
    Issues s c (s'.reload x url) := by
  cases h with
  | none generation runs => exact .none generation runs
  | run request generation runs excluded reuse =>
    exact .run request generation runs excluded reuse

/-! ### Commands -/

theorem issues_handle (s : Service) (t : Ticket) (c : Command) : Issues s c (s.handle t c).1 := by
  cases c with
  | startUp =>
    have hreuse : s.reusable ≠ none → Command.startUp = .startUp ∧ s.startedUp = false := by
      intro hreuse
      refine ⟨rfl, Bool.eq_false_iff.2 fun hstarted => hreuse ?_⟩
      rw [reusable, if_pos hstarted]
    have hstarted : s.Quiet { s with startedUp := true } := ⟨rfl, rfl, rfl, rfl, rfl, rfl⟩
    exact issues_startRun hstarted.generation hstarted.runs false (some ⟨t, .outcome⟩) hreuse
  | toggle =>
    have hruns : s.toggle.runs = s.runs := by
      rw [toggle]
      split <;> rfl
    exact issues_startRun s.idles_toggle.generation hruns false (some ⟨t, .enabled⟩)
      fun hreuse => absurd rfl hreuse
  | addToWhitelist entry => exact issues_thenRun t (s.edits_addToWhitelist entry).toQuiet
  | removeFromWhitelist entry => exact issues_thenRun t (s.edits_removeFromWhitelist entry).toQuiet
  | updateLists => exact s.quiet_refl.issues_startRun true (some ⟨t, .outcome⟩)
  | setListEnabled id enabled =>
    exact issues_thenRun t (s.edits_setListEnabled id enabled).toQuiet
  | addList name url =>
    have hadded := (s.edits_addList name url).toQuiet
    rw [Service.handle]
    split
    · next s' list hadd =>
      rw [hadd] at hadded
      exact hadded.issues_startRun false (some ⟨t, .added list⟩)
    · next hadd =>
      rw [hadd] at hadded
      exact .none hadded.generation hadded.runs
  | removeList id => exact issues_thenRun t (s.edits_removeList id).toQuiet
  | register surface =>
    rw [Service.handle, register]
    split
    · split <;> exact .none rfl rfl
    · exact .none rfl rfl
  | unregister surface =>
    obtain ⟨hgeneration, hruns⟩ :=
      s.runs_decide none _ (whitelist_not_mem_close s.decisions surface)
    exact .none hgeneration hruns
  | reportBlock surface url code =>
    obtain ⟨hgeneration, hruns⟩ := runs_decide { s with nextSession := s.nextSession.next } none _
      (whitelist_not_mem_signal s.decisions s.whitelist s.nextSession surface url code)
    exact .none hgeneration hruns
  | continueOnce id => exact issues_tryDecide none fun _ => whitelist_not_mem_continueOnce
  | whitelistPermanently id =>
    rw [Service.handle]
    rcases hchange : s.decisions.whitelistPermanently id with ⟨b, e | effects⟩
    · exact .none rfl rfl
    · obtain ⟨x, url, domain, rfl⟩ := effects_whitelistPermanently (congrArg Prod.snd hchange)
      -- The effects before and after the run starts have nothing to do with it.
      let s' := ({ s with decisions := b } : Service).perform (some ⟨t, .outcome⟩) (.dismiss id x)
      have hgeneration : s'.generation = s.generation := rfl
      have hruns : s'.runs = s.runs := rfl
      exact (issues_whitelistDomain hgeneration hruns domain (some ⟨t, .outcome⟩)).reload x url
  | cancel id => exact issues_tryDecide none fun _ => whitelist_not_mem_cancel
  | _ => exact .none rfl rfl

/-! ### The whitelist when a run was issued -/

/-- The domains on the whitelist when run `g` was issued, which is when the latest run
    is not an earlier one any more. -/
def whitelistAt (s : Service) (g : Nat) : List Event → List String
  | [] => s.whitelist.domains
  | event :: events =>
    if g ≤ s.generation then s.whitelist.domains else (s.step event).1.whitelistAt g events

/-- The run was issued by the first of the events that asks for a start-up. -/
def IsFirstStartUp (s : Service) (g : Nat) (events : List Event) : Prop :=
  ∃ before t, before ++ [.command t .startUp] <+: events ∧
    (s.after before).startedUp = false ∧ (s.after before).generation + 1 = g

theorem generation_le_step (s : Service) (event : Event) :
    s.generation ≤ (s.step event).1.generation := by
  have hstep := s.stepped event
  generalize (s.step event).1 = s' at hstep ⊢
  cases hstep with
  | command t c =>
    cases s.issues_handle t c with
    | none generation runs => exact Nat.le_of_eq generation.symm
    | run request generation runs excluded reuse => exact generation ▸ Nat.le_succ _
  | part g hpart => cases hpart <;> exact Nat.le_refl _
  | finish g r output before done =>
    obtain ⟨registry, disk, waiters, heq⟩ := s.finishWith_eq g output
    exact heq ▸ Nat.le_refl _
  | lift clock due later pending =>
    exact Nat.le_of_eq (s.idles_lift clock due later).generation.symm
  | around disk evictions failing => exact Nat.le_refl _

theorem generation_le_after (s : Service) (events : List Event) :
    s.generation ≤ (s.after events).generation := by
  induction events generalizing s with
  | nil => exact Nat.le_refl _
  | cons event events ih => exact Nat.le_trans (s.generation_le_step event) (ih _)

/-- Once a run has been issued, nothing changes the whitelist of that moment. -/
theorem whitelistAt_append {g : Nat} {events : List Event} (hg : g ≤ (s.after events).generation)
    (rest : List Event) : s.whitelistAt g (events ++ rest) = s.whitelistAt g events := by
  induction events generalizing s with
  | nil =>
    have hg : g ≤ s.generation := hg
    cases rest with
    | nil => rfl
    | cons event rest => exact if_pos hg
  | cons event events ih =>
    rw [List.cons_append, whitelistAt, whitelistAt]
    split
    · rfl
    · exact ih hg

theorem whitelistAt_concat {g : Nat} {events : List Event} (hg : (s.after events).generation < g)
    (event : Event) : s.whitelistAt g (events ++ [event]) =
      ((s.after events).step event).1.whitelist.domains := by
  induction events generalizing s with
  | nil => exact if_neg (Nat.not_le.2 hg)
  | cons event' events ih =>
    have hle := Nat.lt_of_le_of_lt (s.generation_le_after (event' :: events)) hg
    rw [List.cons_append, whitelistAt, if_neg (Nat.not_le.2 hle)]
    exact ih hg

theorem IsFirstStartUp.append {g : Nat} {events : List Event} (h : s.IsFirstStartUp g events)
    (rest : List Event) : s.IsFirstStartUp g (events ++ rest) := by
  obtain ⟨before, t, hprefix, hstarted⟩ := h
  exact ⟨before, t, hprefix.trans (List.prefix_append _ _), hstarted⟩

/-- A run leaves out the domains that were on the whitelist when it was issued, and
    only that of the first start-up may use artifacts again. -/
structure Issued (s : Service) (events : List Event) (g : Nat) (request : RunRequest) : Prop where
  known : g ≤ (s.after events).generation
  excluded : request.excluded = s.whitelistAt g events
  reuse : request.reuse ≠ none → s.IsFirstStartUp g events

theorem Issued.append {events : List Event} {g : Nat} {request : RunRequest}
    (h : s.Issued events g request) (rest : List Event) : s.Issued (events ++ rest) g request where
  known := by
    rw [after_append]
    exact Nat.le_trans h.known (generation_le_after _ rest)
  excluded := h.excluded.trans (whitelistAt_append h.known rest).symm
  reuse hreuse := (h.reuse hreuse).append rest

/-- A step keeps the requests of the runs in flight, and what a command starts is
    issued then. -/
theorem runs_step (s : Service) (event : Event) {g : Nat} {r : CompileRun}
    (hr : (s.step event).1.runs.get? g = some r) :
    (∃ r', s.runs.get? g = some r' ∧ r.request = r'.request) ∨
      ((s.step event).1.generation = g ∧ g = s.generation + 1 ∧
        r.request.excluded = (s.step event).1.whitelist.domains ∧
        (r.request.reuse ≠ none → ∃ t, event = .command t .startUp ∧ s.startedUp = false)) := by
  have hstep := s.stepped event
  generalize (s.step event).1 = s' at hstep hr ⊢
  cases hstep with
  | command t c =>
    cases s.issues_handle t c with
    | none generation runs => exact .inl ⟨r, runs ▸ hr, rfl⟩
    | run request generation runs excluded reuse =>
      rw [runs, Table.get?_set] at hr
      split at hr
      · next hg =>
        obtain rfl := Option.some.inj hr
        refine .inr ⟨generation.trans hg.symm, hg, excluded, fun hreuse => ?_⟩
        obtain ⟨rfl, hstarted⟩ := reuse hreuse
        exact ⟨t, rfl, hstarted⟩
      · exact .inl ⟨r, hr, rfl⟩
  | part g' hpart =>
    cases hpart with
    | idle => exact .inl ⟨r, hr, rfl⟩
    | part d e r₀ r₁ before request attachments =>
      have hr : (s.runs.set g' r₁).get? g = some r := hr
      rw [Table.get?_set] at hr
      split at hr
      · next hg =>
        obtain rfl := Option.some.inj hr
        exact .inl ⟨r₀, hg ▸ before, request⟩
      · exact .inl ⟨r, hr, rfl⟩
  | finish g' r' output before done =>
    obtain ⟨registry, disk, waiters, heq⟩ := s.finishWith_eq g' output
    rw [heq] at hr
    have hr : (s.runs.erase g').get? g = some r := hr
    rw [Table.get?_erase] at hr
    split at hr
    · cases hr
    · exact .inl ⟨r, hr, rfl⟩
  | lift clock due later pending =>
    exact .inl ⟨r, (s.idles_lift clock due later).runs g ▸ hr, rfl⟩
  | around disk evictions failing => exact .inl ⟨r, hr, rfl⟩

theorem issued_after (hnone : s.runs = []) (events : List Event) :
    ∀ g r, (s.after events).runs.get? g = some r → s.Issued events g r.request := by
  -- The events are taken from the end, since a run is issued by the latest one or before.
  induction events using List.reverseRecOn with
  | nil =>
    intro g r hr
    have hr : s.runs.get? g = some r := hr
    rw [hnone] at hr
    cases hr
  | append_singleton events event ih =>
    intro g r hr
    have hstep : s.after (events ++ [event]) = ((s.after events).step event).1 :=
      s.after_append events [event]
    rw [hstep] at hr
    rcases (s.after events).runs_step event hr with ⟨r', hr', heq⟩ | ⟨hg, hnext, hexcluded, hreuse⟩
    · exact heq ▸ (ih g r' hr').append [event]
    · refine ⟨Nat.le_of_eq (by rw [hstep, hg]), ?_, fun h => ?_⟩
      · rw [hexcluded, whitelistAt_concat (hnext ▸ Nat.lt_succ_self _)]
      · obtain ⟨t, rfl, hstarted⟩ := hreuse h
        exact ⟨events, t, List.prefix_rfl, hstarted, hnext.symm⟩

end Service

end ContentBlocking
