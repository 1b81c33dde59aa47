import ContentBlocking.Proofs.Service.IssuedRuns
import ContentBlocking.Proofs.Service.PendingDecisions
import ContentBlocking.Proofs.WhitelistedUrls

/-!
# Pages that pass for ever

The user may put the domain of a blocked page on the whitelist. The domain is an entry
then, so what comes on the whitelist is the domain that it names. From then on the page
passes if its host belongs to that, until a domain is taken off the whitelist.

* `Service.Lists.step`: no event but a removal takes a domain off the whitelist;
* `Service.LetsPass`, `letsPass_iff`: a blocked page is loaded, and the user is not asked;
* `Service.Lasts`, `coversUrl_of_lasts`: a page that passes for ever is on the whitelist;
* `whitelisting_lasts_iff`: when a page passes for ever after the command of the user.
-/

namespace ContentBlocking

namespace Service

variable {s s' : Service} {d : String}

/-! ### Domains on the whitelist -/

/-- The domain is on the whitelist. -/
def Lists (s : Service) (d : String) : Prop := d ∈ s.whitelist.domains

theorem lists_startRun (reuse : Option (List String)) (refresh : Bool) (waiter : Option Waiter) :
    (s.startRun reuse refresh waiter).Lists d ↔ s.Lists d := Iff.rfl

theorem lists_changeSettings (change : Settings → Settings) :
    (s.changeSettings change).Lists d ↔ s.Lists d := Iff.rfl

theorem lists_saveWhitelist : s.saveWhitelist.Lists d ↔ s.Lists d := lists_changeSettings _

theorem lists_reload (y : Surface) (url : String) : (s.reload y url).Lists d ↔ s.Lists d := Iff.rfl

theorem whitelist_decide (s : Service) (waiter : Option Waiter)
    (change : BlockDecisions × List DecisionEffect)
    (h : ∀ domain, .whitelist domain ∉ change.2) :
    (s.decide waiter change).whitelist = s.whitelist := by
  refine decide_induction (P := fun s' => s'.whitelist = s.whitelist) rfl
    fun effect heffect s' hs => ?_
  cases effect with
  | whitelist domain => exact absurd heffect (h domain)
  | _ => exact hs

/-- What comes on the whitelist is the domain that a domain names as an entry. -/
theorem lists_whitelistDomain (s : Service) (domain : String) (waiter : Option Waiter) :
    (s.whitelistDomain domain waiter).Lists d ↔
      s.Lists d ∨ Whitelist.domainOf domain = .ok d := by
  rw [whitelistDomain]
  rcases s.whitelist.add_cases domain with
    ⟨e, he, -, hadd⟩ | ⟨e, he, hknown, hadd⟩ | ⟨failure, he, hadd⟩ <;> rw [hadd]
  · rw [lists_startRun, lists_saveWhitelist]
    rw [Lists, Whitelist.mem_insert, or_comm, he, Except.ok.injEq, eq_comm]
    rfl
  · -- It is on the whitelist already.
    rw [lists_startRun, he, Except.ok.injEq]
    exact (or_iff_left_of_imp fun heq => heq ▸ List.contains_iff_mem.1 hknown).symm
  · rw [lists_startRun, he]
    exact (or_iff_left (by simp)).symm

theorem whitelist_reportBlock (s : Service) (y : Surface) (url : String) (code : Int) :
    (s.reportBlock y url code).whitelist = s.whitelist :=
  whitelist_decide { s with nextSession := s.nextSession.next } none _
    (whitelist_not_mem_signal s.decisions s.whitelist s.nextSession y url code)

theorem Lists.congr (h : s.Lists d) (hs : s'.whitelist = s.whitelist) : s'.Lists d := by
  rw [Lists, hs]
  exact h

theorem lists_thenRun (t : Ticket) (changed : Service × Except Failure Unit) :
    (thenRun t changed).1.Lists d ↔ changed.1.Lists d := by
  obtain ⟨s', e | ⟨⟩⟩ := changed <;> rfl

theorem Lists.tryDecide (h : s.Lists d) (waiter : Option Waiter)
    {change : BlockDecisions × Except Failure (List DecisionEffect)}
    (hc : ∀ effects, change.2 = .ok effects → ∀ domain, .whitelist domain ∉ effects) :
    (s.tryDecide waiter change).1.Lists d := by
  obtain ⟨b, e | effects⟩ := change
  · exact h
  · exact h.congr (s.whitelist_decide waiter (b, effects) (hc effects rfl))

/-- The service while the effects of a decision are carried out. -/
def dismissed (s : Service) (b : BlockDecisions) (x : Surface) (id : SessionId) : Service :=
  { s with decisions := b, store := s.store.tell (.dismiss x id) }

theorem handle_whitelistPermanently {id : SessionId} {x : Surface} {url domain : String}
    {b : BlockDecisions} (h : s.decisions.whitelistPermanently id =
      (b, .ok [.dismiss id x, .whitelist domain, .reload x url])) (t : Ticket) :
    s.handle t (.whitelistPermanently id) =
      (((s.dismissed b x id).whitelistDomain domain (some ⟨t, .outcome⟩)).reload x url, none) := by
  rw [handle, h]
  rfl

theorem lists_whitelistPermanently {id : SessionId} {x : Surface} {url domain : String}
    {b : BlockDecisions} (h : s.decisions.whitelistPermanently id =
      (b, .ok [.dismiss id x, .whitelist domain, .reload x url])) (t : Ticket) :
    (s.handle t (.whitelistPermanently id)).1.Lists d ↔
      s.Lists d ∨ Whitelist.domainOf domain = .ok d := by
  have hdone := (s.dismissed b x id).lists_whitelistDomain (d := d) domain (some ⟨t, .outcome⟩)
  rw [handle_whitelistPermanently h]
  dsimp only
  rw [lists_reload, hdone]
  rfl

/-- No command takes a domain off the whitelist, unless it is for that. -/
theorem Lists.handle (h : s.Lists d) (t : Ticket) {c : Command}
    (hc : ∀ entry, c ≠ .removeFromWhitelist entry) : (s.handle t c).1.Lists d := by
  cases c with
  | toggle =>
    refine h.congr ?_
    rw [Service.handle, Service.toggle]
    dsimp only
    split <;> rfl
  | addToWhitelist entry =>
    refine (lists_thenRun t _).2 ?_
    rcases s.addToWhitelist_cases entry with heq | ⟨e, -, heq⟩ <;> rw [heq]
    · exact h
    · exact lists_saveWhitelist.2 (Whitelist.mem_insert.2 (.inr h))
  | removeFromWhitelist entry => exact absurd rfl (hc entry)
  | setListEnabled id enabled => exact (lists_thenRun t _).2 (h.congr rfl)
  | addList name url =>
    have hadded : (s.addList name url).1.Lists d := h.congr rfl
    rw [Service.handle]
    split <;> next hadd =>
      rw [hadd] at hadded
      exact hadded
  | removeList id =>
    refine (lists_thenRun t _).2 ?_
    rcases s.removeList_cases id with ⟨list, -, heq⟩ | ⟨e, -, heq⟩ <;> rw [heq] <;> exact h
  | register surface =>
    rw [Service.handle, Service.register]
    split
    · split <;> exact h
    · exact h
  | unregister surface =>
    exact h.congr (s.whitelist_decide none _ (whitelist_not_mem_close s.decisions surface))
  | reportBlock surface url code => exact h.congr (s.whitelist_reportBlock surface url code)
  | continueOnce id => exact h.tryDecide none fun _ => whitelist_not_mem_continueOnce
  | whitelistPermanently id =>
    rcases hchange : s.decisions.whitelistPermanently id with ⟨b, e | effects⟩
    · rw [Service.handle, hchange]
      exact h
    · obtain ⟨x, url, domain, rfl⟩ := effects_whitelistPermanently (congrArg Prod.snd hchange)
      exact (lists_whitelistPermanently hchange t).2 (.inl h)
  | cancel id => exact h.tryDecide none fun _ => whitelist_not_mem_cancel
  | _ => exact h

/-- The event is a command that takes a domain off the whitelist. -/
def Event.IsRemoval : Event → Prop
  | .command _ (.removeFromWhitelist _) => True
  | _ => False

theorem whitelist_reattach (s : Service) (y : Surface) (number : Nat) :
    (s.reattach y number).whitelist = s.whitelist := by
  rw [reattach]
  split <;> rfl

/-- No event takes a domain off the whitelist, unless it is a command for that. -/
theorem Lists.step (h : s.Lists d) {event : Event} (hevent : ¬event.IsRemoval) :
    (s.step event).1.Lists d := by
  have hstep := s.stepped event
  generalize (s.step event).1 = s' at hstep ⊢
  cases hstep with
  | command t c =>
    refine h.handle t fun entry hc => hevent ?_
    rw [hc]
    trivial
  | part g hpart => cases hpart <;> exact h
  | finish g r output before done =>
    obtain ⟨registry, disk, waiters, heq⟩ := s.finishWith_eq g output
    rw [heq]
    exact h
  | lift clock due later pending =>
    have hstart : { s with clock := clock, reattachments := later }.Lists d := h
    exact lift_induction (P := fun s' => s'.Lists d)
      (fun s' y number hs' => hs'.congr (s'.whitelist_reattach y number)) hstart due
  | around disk evictions failing => exact h

/-- No domain goes from the whitelist among the events. -/
def KeepsWhitelist (s : Service) : List Event → Prop
  | [] => True
  | event :: events =>
    (∀ d, s.Lists d → (s.step event).1.Lists d) ∧ (s.step event).1.KeepsWhitelist events

theorem keepsWhitelist_of_forall {events : List Event} (h : ∀ event ∈ events, ¬event.IsRemoval) :
    s.KeepsWhitelist events := by
  induction events generalizing s with
  | nil => trivial
  | cons event events ih =>
    obtain ⟨hevent, hevents⟩ := List.forall_mem_cons.1 h
    exact ⟨fun d hd => hd.step hevent, ih hevents⟩

theorem Lists.after {events : List Event} (hkeeps : s.KeepsWhitelist events) (h : s.Lists d) :
    (s.after events).Lists d := by
  induction events generalizing s with
  | nil => exact h
  | cons event events ih => exact ih hkeeps.2 (hkeeps.1 d h)

/-! ### Pages that pass -/

/-- A page that is blocked on a surface is loaded, and the user is not asked. -/
structure LetsPass (s : Service) (y : Surface) (url : String) : Prop where
  reloads : .reload y url ∈
    (s.decisions.signal s.whitelist s.nextSession y url BlockDecisions.blockedCode).2
  isSilent : ∀ x, .present x ∉
    (s.decisions.signal s.whitelist s.nextSession y url BlockDecisions.blockedCode).2
  navigates : (s.reportBlock y url BlockDecisions.blockedCode).store.shell.events.getLast? =
    some (.navigate y url)
  reply : ∀ t, (s.handle t (.reportBlock y url BlockDecisions.blockedCode)).2 = some (.session none)

variable {y : Surface} {url : String}

/-- When a page has passed, no decision is pending on the surface, and the user has not let
    the page pass any more. -/
theorem decisions_reportBlock (hnew : s.decisions.IsNewOn y url)
    (hpass : s.decisions.MayPass s.whitelist url) :
    (s.reportBlock y url BlockDecisions.blockedCode).decisions = {
      sessions := s.decisions.sessions.erase y
      bypass := s.decisions.bypass.filter (· ≠ url) } := by
  rw [reportBlock, decisions_decide, BlockDecisions.signal_of_mayPass hnew hpass]

theorem letsPass_iff (hnew : s.decisions.IsNewOn y url) :
    s.LetsPass y url ↔ s.decisions.MayPass s.whitelist url := by
  constructor
  · intro h
    by_contra hnot
    refine h.isSilent ⟨s.nextSession, y, url⟩ ?_
    rw [BlockDecisions.signal_of_not_mayPass hnew hnot]
    exact List.mem_concat_self
  · intro hpass
    have hsignal := BlockDecisions.signal_of_mayPass hnew hpass s.nextSession
    refine ⟨?_, fun x => ?_, ?_, fun t => ?_⟩
    · rw [hsignal]
      exact List.mem_concat_self
    · have hclose : .present x ∉ (s.decisions.close y).2 :=
        BlockDecisions.not_mem_close (by simp)
      rw [hsignal]
      simp [hclose]
    · rw [reportBlock, hsignal, decide]
      dsimp only
      rw [List.foldl_append]
      exact List.getLast?_concat
    · have hdecisions := decisions_reportBlock hnew hpass
      rw [handle]
      dsimp only
      rw [BlockDecisions.sessionOn?_of_erase (congrArg (·.sessions) hdecisions)]

/-- The page passes for ever: whenever it is blocked later, and no domain has gone from
    the whitelist. -/
def Lasts (s : Service) (url : String) : Prop :=
  ∀ events, s.KeepsWhitelist events → ∀ y, (s.after events).decisions.IsNewOn y url →
    (s.after events).LetsPass y url

theorem lasts_of_coversUrl (h : s.whitelist.coversUrl url = true) : s.Lasts url := by
  intro events hkeeps y hnew
  have hcovers : (s.after events).whitelist.coversUrl url = true :=
    Whitelist.coversUrl_mono (fun d hd => Lists.after hkeeps hd) h
  exact (letsPass_iff hnew).2 (.inr hcovers)

/-- A page that passes for ever is on the whitelist: that the user has let it pass is
    used up by the first time. -/
theorem coversUrl_of_lasts (hfree : s.decisions.sessionOn? y = none) (h : s.Lasts url) :
    s.whitelist.coversUrl url = true := by
  have hnew : s.decisions.IsNewOn y url := fun x hx => nomatch hfree.symm.trans hx
  rcases (letsPass_iff hnew).1 (h [] trivial y hnew) with hbypass | hcovers
  · let blocked := s.reportBlock y url BlockDecisions.blockedCode
    have hdecisions := decisions_reportBlock hnew (.inl hbypass)
    have hwhitelist : blocked.whitelist = s.whitelist := s.whitelist_reportBlock y url _
    have hnew' : blocked.decisions.IsNewOn y url := by
      intro x hx
      have hfree := BlockDecisions.sessionOn?_of_erase (congrArg (·.sessions) hdecisions)
      cases hfree.symm.trans hx
    have hlets : blocked.LetsPass y url := h [.command 0 (.reportBlock y url _)]
      ⟨fun d hd => hd.congr hwhitelist, trivial⟩ y hnew'
    rcases (letsPass_iff hnew').1 hlets with hbypass' | hcovers
    · rw [hdecisions] at hbypass'
      simp [BlockDecisions.hasBypass] at hbypass'
    · rwa [hwhitelist] at hcovers
  · exact hcovers

/-! ### Domains that the user puts on the whitelist -/

variable {id : SessionId} {x : BlockedSession} {t : Ticket}

theorem exists_of_handle_eq_none (hx : s.decisions.session? id = some x)
    (haccepted : (s.handle t (.whitelistPermanently id)).2 = none) :
    ∃ domain, ∃ y : BlockedSession, Whitelist.domainOf x.url = .ok domain ∧
      s.decisions.whitelistPermanently id =
        ({ s.decisions with sessions := s.decisions.sessions.erase x.surface },
          .ok [.dismiss id y.surface, .whitelist domain, .reload y.surface y.url]) := by
  rcases s.decisions.whitelistPermanently_cases id with
    heq | ⟨x', hx', ⟨e, -, heq⟩ | ⟨domain, b, y, hdomain, htake, heq⟩⟩
  · rw [handle, heq] at haccepted
    cases haccepted
  · rw [handle, heq] at haccepted
    cases haccepted
  · obtain rfl := Option.some.inj (hx.symm.trans hx')
    rcases s.decisions.take_cases id with hnone | ⟨x', y', hx', -, hsome⟩
    · cases htake.symm.trans hnone
    · obtain rfl := Option.some.inj (hx.symm.trans hx')
      obtain rfl := (Prod.mk.inj (htake.symm.trans hsome)).1
      exact ⟨domain, y, hdomain, heq⟩

theorem decisions_whitelistPermanently (hx : s.decisions.session? id = some x)
    (haccepted : (s.handle t (.whitelistPermanently id)).2 = none) :
    (s.handle t (.whitelistPermanently id)).1.decisions =
      { s.decisions with sessions := s.decisions.sessions.erase x.surface } := by
  obtain ⟨domain, y, -, hchange⟩ := exists_of_handle_eq_none hx haccepted
  rw [handle, hchange]
  exact s.decisions_decide (some ⟨t, .outcome⟩) _

theorem coversUrl_whitelistPermanently (hx : s.decisions.session? id = some x)
    (haccepted : (s.handle t (.whitelistPermanently id)).2 = none) :
    (s.handle t (.whitelistPermanently id)).1.whitelist.coversUrl x.url = true ↔
      s.whitelist.coversUrl x.url = true ∨ Whitelist.ReadsBack x.url := by
  obtain ⟨domain, y, hdomain, hchange⟩ := exists_of_handle_eq_none hx haccepted
  have hlists (d : String) := lists_whitelistPermanently (d := d) hchange t
  simp only [Whitelist.coversUrl_iff, Whitelist.ReadsBack]
  constructor
  · rintro ⟨host, hhost, d, hd, hwithin⟩
    rcases (hlists d).1 hd with hd | hd
    · exact .inl ⟨host, hhost, d, hd, hwithin⟩
    · exact .inr ⟨host, domain, d, hhost, hdomain, hd, hwithin⟩
  · rintro (⟨host, hhost, d, hd, hwithin⟩ | ⟨host, domain', d, hhost, hdomain', hd, hwithin⟩)
    · exact ⟨host, hhost, d, (hlists d).2 (.inl hd), hwithin⟩
    · obtain rfl := Except.ok.inj (hdomain.symm.trans hdomain')
      exact ⟨host, hhost, d, (hlists d).2 (.inr hd), hwithin⟩

/-- When the user has put the domain of a blocked page on the whitelist, the page passes
    for ever if and only if its host was on the whitelist before, or belongs to what the
    domain names as an entry. For most URLs it does so unless the domain is a single label
    after `www.`. -/
theorem whitelisting_lasts_iff (hx : s.decisions.session? id = some x)
    (haccepted : (s.handle t (.whitelistPermanently id)).2 = none) :
    ((s.handle t (.whitelistPermanently id)).1.Lasts x.url ↔
      s.whitelist.coversUrl x.url = true ∨ Whitelist.ReadsBack x.url) ∧
    ∀ d, Whitelist.domainOf x.url = .ok d → Whitelist.IsPlain x.url →
      ((s.handle t (.whitelistPermanently id)).1.Lasts x.url ↔
        s.whitelist.coversUrl x.url = true ∨ ¬Whitelist.IsWwwLabel d) := by
  have hiff : (s.handle t (.whitelistPermanently id)).1.Lasts x.url ↔
      s.whitelist.coversUrl x.url = true ∨ Whitelist.ReadsBack x.url := by
    rw [← coversUrl_whitelistPermanently hx haccepted]
    have hdecisions := decisions_whitelistPermanently hx haccepted
    have hfree := BlockDecisions.sessionOn?_of_erase (congrArg (·.sessions) hdecisions)
    exact ⟨coversUrl_of_lasts hfree, lasts_of_coversUrl⟩
  exact ⟨hiff, fun d hd hplain => by rw [hiff, Whitelist.readsBack_iff hplain hd]⟩

/-- A page is blocked on the first surface. -/
def blockedOnce (url : String) : List Event :=
  [.command 0 (.reportBlock 1 url BlockDecisions.blockedCode)]

/-- Blocking is turned off, and then another page is blocked on the second surface. -/
def laterEvents : List Event :=
  [.command 2 .toggle, .elapse 5000,
    .command 3 (.reportBlock 2 "https://other.test/" BlockDecisions.blockedCode)]

theorem asked_about_example : ∀ s ∈ (start {} {} .nil).toOption,
    let asked := s.after (blockedOnce "https://www.Example.com/a")
    let done := (asked.handle 1 (.whitelistPermanently .nil)).1
    asked.decisions.session? .nil = some ⟨.nil, 1, "https://www.Example.com/a"⟩ ∧
      (asked.handle 1 (.whitelistPermanently .nil)).2 = none ∧
      (done.after laterEvents).decisions.sessionOn? 2 =
        some ⟨.next .nil, 2, "https://other.test/"⟩ := by
  decide +kernel

theorem isPlain_example : Whitelist.IsPlain "https://www.Example.com/a" where
  trimmed := by
    have hall : "https://www.Example.com/a".toList.all (!Text.isBlank ·) = true := by
      decide +kernel
    refine Text.isTrimmed_of_forall_mem fun c hc => ?_
    simpa using List.all_eq_true.1 hall c hc
  host := ⟨"www.Example.com".toList, by decide +kernel, List.all_eq_true.1 (by decide +kernel)⟩

theorem whitelisting_lasts_example : ∃ s₀, start {} {} .nil = .ok s₀ ∧
    let asked := s₀.after (blockedOnce "https://www.Example.com/a")
    let done := (asked.handle 1 (.whitelistPermanently .nil)).1
    done.Lasts "https://www.Example.com/a" ∧
      (done.after laterEvents).LetsPass 2 "https://www.Example.com/a" := by
  obtain ⟨s₀, hstart⟩ := exists_start (show Config.validate {} = .ok {} from rfl) {} .nil
  obtain ⟨hx, haccepted, hother⟩ := asked_about_example s₀ (by rw [hstart]; rfl)
  have hlasts := ((whitelisting_lasts_iff hx haccepted).2 "example.com" (by decide +kernel)
    isPlain_example).2 (.inr ?_)
  · have hkeeps (s : Service) : s.KeepsWhitelist laterEvents :=
      keepsWhitelist_of_forall (by simp [laterEvents, Event.IsRemoval])
    refine ⟨s₀, hstart, hlasts, hlasts laterEvents (hkeeps _) 2 fun x hx => ?_⟩
    rw [hother] at hx
    rw [← Option.some.inj hx]
    decide
  · rintro ⟨label, hlabel, -⟩
    exact nomatch (List.cons.inj hlabel).1

theorem asked_again_about_www : ∀ s ∈ (start {} {} .nil).toOption,
    let asked := s.after (blockedOnce "https://www.www.com/")
    let done := (asked.handle 1 (.whitelistPermanently .nil)).1
    asked.decisions.session? .nil = some ⟨.nil, 1, "https://www.www.com/"⟩ ∧
      (asked.handle 1 (.whitelistPermanently .nil)).2 = none ∧
      done.decisions.sessionOn? 1 = none ∧
      (done.handle 2 (.reportBlock 1 "https://www.www.com/" BlockDecisions.blockedCode)).2 =
        some (.session (some ⟨.next .nil, 1, "https://www.www.com/"⟩)) := by
  decide +kernel

/-- The domain of a blocked page need not come on the whitelist, although the command was
    accepted and the decision is not pending any more: the user is asked again. -/
theorem not_lasts_www : ∃ s₀, start {} {} .nil = .ok s₀ ∧
    let asked := s₀.after (blockedOnce "https://www.www.com/")
    let done := (asked.handle 1 (.whitelistPermanently .nil)).1
    asked.decisions.session? .nil = some ⟨.nil, 1, "https://www.www.com/"⟩ ∧
      (asked.handle 1 (.whitelistPermanently .nil)).2 = none ∧
      done.decisions.IsNewOn 1 "https://www.www.com/" ∧
      (done.handle 2 (.reportBlock 1 "https://www.www.com/" BlockDecisions.blockedCode)).2 =
        some (.session (some ⟨.next .nil, 1, "https://www.www.com/"⟩)) ∧
      ¬done.Lasts "https://www.www.com/" := by
  obtain ⟨s₀, hstart⟩ := exists_start (show Config.validate {} = .ok {} from rfl) {} .nil
  obtain ⟨hx, haccepted, hfree, hreply⟩ := asked_again_about_www s₀ (by rw [hstart]; rfl)
  have hnew : ((s₀.after (blockedOnce "https://www.www.com/")).handle 1
      (.whitelistPermanently .nil)).1.decisions.IsNewOn 1 "https://www.www.com/" :=
    fun x hx => nomatch hfree.symm.trans hx
  refine ⟨s₀, hstart, hx, haccepted, hnew, hreply, fun hlasts => ?_⟩
  have hpasses := (hlasts [] trivial 1 hnew).reply 2
  cases hreply.symm.trans hpasses

end Service

end ContentBlocking
