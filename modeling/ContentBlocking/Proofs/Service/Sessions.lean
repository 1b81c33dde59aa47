import ContentBlocking.Proofs.Service.LatestRun
import ContentBlocking.Proofs.Service.Overwrites
import ContentBlocking.Proofs.Service.WarmStart

/-!
# Sessions

The service is stopped and started again, over the same disk and the same engine. The
engine keeps what was compiled in earlier sessions, and the run of the first start-up
puts that in force without compiling anything, whatever the whitelist is by then. All
other runs compile what they put in force, shard by shard, and leave out the domains
that were on the whitelist when they were issued.

* `Session.Builds`, `Session.Finds`: how a run has got its artifacts;
* `traced_after`: every run in flight has got its artifacts in one of these ways;
* `Lives`: some sessions, one after the other;
* `compiles_or_finds_current`: where the artifacts in force come from.
-/

namespace ContentBlocking

/-- What a run whose lists gave these results may have compiled, by identifier. -/
def RunRequest.payloads (q : RunRequest) (results : List ListResult) : List (String × String) :=
  (q.plan results).shards.zipIdx.map (fun (shard, i) =>
      (shardIdentifier q.nameSpace i, Payload.encode shard)) ++
    [(Config.fallbackIdentifier, Payload.encode (RuleCollection.minimal q.excluded))]

theorem RunRequest.mem_payloads_of_drop {q : RunRequest} {results : List ListResult} {i : Nat}
    {shard : List Rule} {left : List (List Rule)}
    (h : (q.plan results).shards.drop i = shard :: left) :
    (shardIdentifier q.nameSpace i, Payload.encode shard) ∈ q.payloads results := by
  have hget : (q.plan results).shards[i]? = some shard := by
    rw [← List.head?_drop, h]
    rfl
  refine List.mem_append_left _ (List.mem_map.2 ⟨(shard, i), ?_, rfl⟩)
  exact List.mem_zipIdx_iff_getElem?.2 hget

namespace Service

/-- What the service does between a start and a stop. -/
structure Session where
  started : Service
  events : List Event

namespace Session

/-- The service at the end of the session. -/
def ended (x : Session) : Service := x.started.after x.events

/-- In the session run `g` was asked for `q`, and its lists gave these results when it
    planned its shards. -/
def Plans (x : Session) (g : Nat) (q : RunRequest) (results : List ListResult) : Prop :=
  ∃ before r, before ++ [.compileRun g] <+: x.events ∧
    (x.started.after before).runs.get? g = some r ∧ r.request = q ∧ r.loaded? = some results

/-- In the session run `g` has planned shards that leave out some domains, and a part of it
    has compiled the artifact from one of them or from the collection that stands in. -/
def Builds (x : Session) (g : Nat) (excluded : List String) (a : Artifact) : Prop :=
  ∃ q results payload before, x.Plans g q results ∧ q.excluded = excluded ∧
    before ++ [.compileRun g] <+: x.events ∧ (a.identifier, payload) ∈ q.payloads results ∧
    ((x.started.after before).store.engine.compile a.identifier payload).2 = .ok a ∧
    (x.started.after before).commitOf (.compileRun g) = some ⟨g, [a]⟩

/-- In the session run `g` has ended with the artifacts. -/
def Yields (x : Session) (g : Nat) (artifacts : List Artifact) : Prop :=
  ∃ before output, before ++ [.finishRun g] <+: x.events ∧
    (x.started.after before).ending? (.finishRun g) = some ⟨g, .ok output⟩ ∧
    output.artifacts = artifacts

/-- In the session run `g` has compiled its artifacts, and left out some domains. -/
def Compiles (x : Session) (g : Nat) (excluded : List String) (artifacts : List Artifact) : Prop :=
  x.Yields g artifacts ∧ ∀ a ∈ artifacts, x.Builds g excluded a

/-- In the session run `g` was asked to use the artifacts of an earlier run again, and
    has found them. -/
def Finds (x : Session) (g : Nat) (artifacts : List Artifact) : Prop :=
  ∃ before r identifiers, before ++ [.lookUp g] <+: x.events ∧
    (x.started.after before).runs.get? g = some r ∧ r.request.reuse = some identifiers ∧
    (x.started.after before).store.engine.lookupAll identifiers = some artifacts

/-- In the session a run has compiled the artifact, and left out the domains that were
    on the whitelist when it was issued. -/
def Makes (x : Session) (a : Artifact) : Prop :=
  ∃ g, x.Builds g (x.started.whitelistAt g x.events) a

variable {x : Session} {g : Nat} {excluded : List String} {artifacts : List Artifact}
  {a : Artifact}

theorem Builds.excluded_eq (h : x.Builds g excluded a) (hnone : x.started.runs = []) :
    excluded = x.started.whitelistAt g x.events := by
  obtain ⟨q, results, payload, -, ⟨before, r, ⟨rest, hevents⟩, hr, rfl, -⟩, rfl, -⟩ := h
  have hissued := issued_after hnone before g r hr
  rw [← hevents, List.append_assoc, whitelistAt_append hissued.known]
  exact hissued.excluded

theorem Builds.makes (h : x.Builds g excluded a) (hnone : x.started.runs = []) : x.Makes a :=
  ⟨g, h.excluded_eq hnone ▸ h⟩

theorem Builds.mem_events (h : x.Builds g excluded a) : .compileRun g ∈ x.events := by
  obtain ⟨q, results, payload, before, -, -, hevents, -⟩ := h
  exact hevents.subset List.mem_concat_self

theorem Finds.isFirstStartUp (h : x.Finds g artifacts) (hnone : x.started.runs = []) :
    x.started.IsFirstStartUp g x.events := by
  obtain ⟨before, r, identifiers, ⟨rest, hevents⟩, hr, hreuse, -⟩ := h
  have hissued := issued_after hnone before g r hr
  have hasked : r.request.reuse ≠ none := by
    rw [hreuse]
    exact Option.some_ne_none identifiers
  rw [← hevents, List.append_assoc]
  exact (hissued.reuse hasked).append _

/-! What has happened in a session has happened in a longer one. -/

section

variable {s : Service} {events events' : List Event} (hevents : events <+: events')

include hevents

theorem Plans.mono {q : RunRequest} {results : List ListResult}
    (h : Plans ⟨s, events⟩ g q results) : Plans ⟨s, events'⟩ g q results := by
  obtain ⟨before, r, hbefore, hr⟩ := h
  exact ⟨before, r, hbefore.trans hevents, hr⟩

theorem Builds.mono (h : Builds ⟨s, events⟩ g excluded a) : Builds ⟨s, events'⟩ g excluded a := by
  obtain ⟨q, results, payload, before, hplans, hexcluded, hbefore, hbuilt⟩ := h
  exact ⟨q, results, payload, before, hplans.mono hevents, hexcluded, hbefore.trans hevents,
    hbuilt⟩

theorem Finds.mono (h : Finds ⟨s, events⟩ g artifacts) : Finds ⟨s, events'⟩ g artifacts := by
  obtain ⟨before, r, identifiers, hbefore, hr⟩ := h
  exact ⟨before, r, identifiers, hbefore.trans hevents, hr⟩

theorem Makes.mono (hnone : s.runs = []) (h : Makes ⟨s, events⟩ a) : Makes ⟨s, events'⟩ a := by
  obtain ⟨g, hbuilds⟩ := h
  exact (hbuilds.mono hevents).makes hnone

end

end Session

variable {s s' : Service}

/-! ### How runs get their artifacts -/

/-- What the run has got so far it has compiled from the shards that it has planned, in
    their order, or it has found it. -/
def Traced (x : Session) (g : Nat) (r : CompileRun) : Prop :=
  match r.stage with
  | .compiling index left output => ∃ results, x.Plans g r.request results ∧
      (r.request.plan results).shards.drop index = left ∧
      ∀ a ∈ output.artifacts, x.Builds g r.request.excluded a
  | .done (.ok output) => (∀ a ∈ output.artifacts, x.Builds g r.request.excluded a) ∨
      x.Finds g output.artifacts
  | _ => True

variable {g : Nat} {r r' : CompileRun} {events events' : List Event}

theorem Traced.mono (h : Traced ⟨s, events⟩ g r) (hevents : events <+: events') :
    Traced ⟨s, events'⟩ g r := by
  obtain ⟨request, stage⟩ := r
  rcases stage with _ | stages | ⟨index, left, output⟩ | e | output
  · trivial
  · trivial
  · obtain ⟨results, hplans, hleft, hbuilds⟩ := h
    exact ⟨results, hplans.mono hevents, hleft, fun a ha => (hbuilds a ha).mono hevents⟩
  · trivial
  · exact h.imp (fun hbuilds a ha => (hbuilds a ha).mono hevents) (Session.Finds.mono hevents)

/-- A run that is traced has compiled or found what it has got. -/
theorem Traced.of_mem_got {x : Session} (h : Traced x g r) {a : Artifact} (ha : a ∈ r.got) :
    x.Builds g r.request.excluded a ∨ ∃ artifacts, x.Finds g artifacts ∧ a ∈ artifacts := by
  obtain ⟨request, stage⟩ := r
  rcases stage with _ | stages | ⟨index, left, output⟩ | e | output
  · cases ha
  · cases ha
  · obtain ⟨results, -, -, hbuilds⟩ := h
    exact .inl (hbuilds a ha)
  · cases ha
  · rcases h with hbuilds | hfinds
    · exact .inl (hbuilds a ha)
    · exact .inr ⟨output.artifacts, hfinds, ha⟩

theorem Traced.of_done {x : Session} (h : Traced x g r) {output : RunOutput}
    (hdone : r.stage = .done (.ok output)) :
    (∀ a ∈ output.artifacts, x.Builds g r.request.excluded a) ∨ x.Finds g output.artifacts := by
  rw [Traced, hdone] at h
  exact h

/-- The artifact that a part of a run compiles is one that it builds. -/
theorem builds_of_compile {q : RunRequest} {results : List ListResult}
    (hplans : Session.Plans ⟨s, events ++ [.compileRun g]⟩ g q results)
    (hr : (s.after events).runs.get? g = some r)
    (hr' : (s.after (events ++ [.compileRun g])).runs.get? g = some r')
    {identifier payload : String} (hpayload : (identifier, payload) ∈ q.payloads results)
    {e' : Engine} {a : Artifact}
    (hcompile : (s.after events).store.engine.compile identifier payload = (e', .ok a))
    (hgot : r'.got = r.got ++ [a]) :
    Session.Builds ⟨s, events ++ [.compileRun g]⟩ g q.excluded a := by
  obtain rfl : a.identifier = identifier := by
    have hid := ((s.after events).store.engine.commits_compile identifier payload).2
    rw [hcompile] at hid
    exact hid a rfl
  refine ⟨q, results, payload, events, hplans, rfl, List.prefix_rfl, hpayload, by rw [hcompile], ?_⟩
  have hcommit : (s.after events).commitOf (.compileRun g) = Commit.of? g
      (((s.after (events ++ [.compileRun g])).got g).drop ((s.after events).got g).length) := by
    rw [after_append]
    rfl
  rw [hcommit, got_of_get? hr', got_of_get? hr, hgot, List.drop_left]
  rfl

theorem Traced.compiles (h : Traced ⟨s, events⟩ g r)
    (hr : (s.after events).runs.get? g = some r)
    (hr' : (s.after (events ++ [.compileRun g])).runs.get? g = some r') {e' : Engine}
    (hcompiles : r.Compiles (s.after events).store.engine e' r') :
    Traced ⟨s, events ++ [.compileRun g]⟩ g r' := by
  have hsame := h.mono (List.prefix_append events [.compileRun g])
  obtain ⟨request, stage⟩ := r
  cases hcompiles with
  | stays => exact hsame
  | @plans results loaded =>
    exact ⟨results, ⟨events, _, List.prefix_rfl, hr, rfl, loaded⟩, rfl, fun _ => nofun⟩
  | @shard index shard left output next e' result compile =>
    obtain rfl : stage = .compiling index (shard :: left) output := next
    obtain ⟨results, hplans, hleft, hbuilds⟩ := hsame
    refine ⟨results, hplans, ?_, fun a ha => ?_⟩
    · have hnext : ((request.plan results).shards.drop index).tail = left :=
        congrArg List.tail hleft
      rwa [List.tail_drop] at hnext
    · rcases List.mem_append.1 ha with ha | ha
      · exact hbuilds a ha
      · obtain rfl := eq_ok_of_toOption_eq_some (Option.mem_toList.1 ha)
        exact builds_of_compile hplans hr hr' (RunRequest.mem_payloads_of_drop hleft) compile rfl
  | @completes index output last e' result completes =>
    obtain rfl : stage = .compiling index [] output := last
    obtain ⟨results, hplans, -, hbuilds⟩ := hsame
    cases completes with
    | whole some => exact .inl hbuilds
    | @standsIn none e' a compile =>
      refine .inl fun b hb => ?_
      obtain rfl := List.mem_singleton.1 hb
      exact builds_of_compile hplans hr hr'
        (List.mem_append_right _ (List.mem_singleton_self _)) compile
        (congrArg (· ++ [b]) none).symm
    | fails none compile => trivial

theorem Traced.looksUp (h : Traced ⟨s, events⟩ g r) (hr : (s.after events).runs.get? g = some r)
    (hlooksUp : r.LooksUp (s.after events).store.engine r') :
    Traced ⟨s, events ++ [.lookUp g]⟩ g r' := by
  cases hlooksUp with
  | stays going => exact h.mono (List.prefix_append _ _)
  | @finds waiting identifiers artifacts reuse found =>
    exact .inr ⟨events, r, identifiers, List.prefix_rfl, hr, reuse, found⟩
  | begins waiting => trivial

theorem Traced.loads {x : Session} (h : Traced x g r) (hloads : r.Loads r') : Traced x g r' := by
  cases hloads with
  | stays => exact h
  | sets loading i stage => trivial

/-- Every run in flight has compiled or found what it has got. -/
theorem traced_after (hnone : s.runs = []) (events : List Event)
    (hr : (s.after events).runs.get? g = some r) : Traced ⟨s, events⟩ g r := by
  induction events using List.reverseRecOn generalizing g r with
  | nil =>
    have hruns : (s.after []).runs = [] := hnone
    rw [hruns] at hr
    cases hr
  | append_singleton events event ih =>
    have hlonger : events <+: events ++ [event] := List.prefix_append _ _
    cases advances_step _ event (by rwa [after_append] at hr) with
    | stays before => exact (ih before).mono hlonger
    | starts t c request => trivial
    | lookUp r before => exact (ih before).looksUp before (r.looksUp _)
    | beginList r before now i =>
      exact ((ih before).mono hlonger).loads (r.loads_beginList _ _ now i)
    | finishList r before now i reply =>
      exact ((ih before).mono hlonger).loads (r.loads_finishList _ _ now i reply)
    | compile r before => exact (ih before).compiles before hr (r.compiles _)

/-! ### What the engine holds -/

theorem keptByParts_lookup (e : Engine) :
    KeptByParts fun s => ∀ identifier, s.store.engine.lookup identifier = e.lookup identifier :=
  keptByParts_of_idles (fun _ _ hi h i => (hi.rules.lookup i).trans (h i)) fun _ _ _ _ h => h

theorem Moves.lookup {c : Option Commit} (hm : Moves s s' c) {identifier : String} {a : Artifact}
    (h : s'.store.engine.lookup identifier = some a) :
    s.store.engine.lookup identifier = some a ∨
      ∃ commit, c = some commit ∧ a ∈ commit.artifacts := by
  cases hm with
  | idle hi => exact .inl (hi.rules.lookup identifier ▸ h)
  | work generation g r r' new current installedGeneration before got after commits apart =>
    by_cases hany : ∃ b ∈ new, b.identifier = identifier
    · obtain ⟨b, hb, rfl⟩ := hany
      obtain rfl := Option.some.inj ((commits.held b hb).symm.trans h)
      have hsome : ¬new.isEmpty := by
        rw [List.isEmpty_iff]
        exact List.ne_nil_of_mem hb
      exact .inr ⟨⟨g, new⟩, if_neg hsome, hb⟩
    · rw [commits.lookup_others fun b hb heq => hany ⟨b, hb, heq⟩] at h
      exact .inl h
  | install generation g lookup got latest installed after => exact .inl (lookup identifier ▸ h)
  | discard generation g rules stale after => exact .inl (rules.lookup identifier ▸ h)

theorem lookup_step (hk : s.store.engine.IsKeyed) (event : Event) {identifier : String}
    {a : Artifact} (h : (s.step event).1.store.engine.lookup identifier = some a) :
    s.store.engine.lookup identifier = some a ∨
      ∃ c, s.commitOf event = some c ∧ a ∈ c.artifacts := by
  cases event with
  | command t c =>
    have hsame := (keptByParts_lookup s.store.engine).handle (fun _ => rfl) t c identifier
    exact .inl (hsame.symm.trans h)
  | _ =>
    refine Moves.lookup ?_ h
    exact moves_step hk nofun

/-- What a run has committed it has got. -/
theorem exists_run_of_commitOf {event : Event} {c : Commit} (h : s.commitOf event = some c)
    {a : Artifact} (ha : a ∈ c.artifacts) :
    ∃ r, (s.step event).1.runs.get? c.generation = some r ∧ a ∈ r.got := by
  obtain ⟨g, -, hnew⟩ := Option.bind_eq_some_iff.1 h
  obtain rfl := Commit.eq_of_mem_of? (Option.mem_toList.2 hnew)
  have hgot : a ∈ (s.step event).1.got g := List.mem_of_mem_drop ha
  rw [got] at hgot
  cases hr : (s.step event).1.runs.get? g with
  | none =>
    rw [hr] at hgot
    cases hgot
  | some r =>
    rw [hr] at hgot
    exact ⟨r, rfl, hgot⟩

/-- What a run finds the engine held. -/
theorem Session.Finds.exists_held {x : Session} {artifacts : List Artifact}
    (h : x.Finds g artifacts) (hk : ∀ before, (x.started.after before).store.engine.IsKeyed)
    {a : Artifact} (ha : a ∈ artifacts) : ∃ before, before ++ [.lookUp g] <+: x.events ∧
      (x.started.after before).store.engine.lookup a.identifier = some a := by
  obtain ⟨before, r, identifiers, hevents, -, -, hfound⟩ := h
  exact ⟨before, hevents, (Engine.commits_of_lookupAll (hk before) hfound).held a ha⟩

section

variable {config : Config} {around : Surroundings} {first : SessionId}
  (hstart : start config around first = .ok s) (hk : around.engine.IsKeyed)

include hstart hk

/-- What the engine holds after a step it held some time before, or it was compiled. -/
theorem held_or_makes (events : List Event) (event : Event) {identifier : String} {a : Artifact}
    (h : (s.after (events ++ [event])).store.engine.lookup identifier = some a) :
    (∃ before, before <+: events ∧
        ∃ identifier, (s.after before).store.engine.lookup identifier = some a) ∨
      Session.Makes ⟨s, events ++ [event]⟩ a := by
  have hnone := (fresh_of_start hstart).runs
  have hkeyed (before : List Event) : (s.after before).store.engine.IsKeyed :=
    (history_after hstart hk before).keyed
  rw [after_append] at h
  rcases lookup_step (hkeyed events) event h with h | ⟨c, hc, ha⟩
  · exact .inl ⟨events, List.prefix_rfl, identifier, h⟩
  · obtain ⟨r, hr, hgot⟩ := exists_run_of_commitOf hc ha
    have htraced := traced_after hnone (events ++ [event]) (by rw [after_append]; exact hr)
    rcases htraced.of_mem_got hgot with hbuilds | ⟨artifacts, hfinds, hmem⟩
    · exact .inr (hbuilds.makes hnone)
    · obtain ⟨before, hevents, hheld⟩ := hfinds.exists_held hkeyed hmem
      have hlength : before.length ≤ events.length := by simpa using hevents.length_le
      have hbefore : before <+: events := List.prefix_of_prefix_length_le
        ((List.prefix_append _ _).trans hevents) (List.prefix_append _ _) hlength
      exact .inl ⟨before, hbefore, _, hheld⟩

/-- What the engine holds was there at the start of the session or was compiled in it. -/
theorem makes_of_lookup (events : List Event) {identifier : String} {a : Artifact}
    (h : (s.after events).store.engine.lookup identifier = some a) :
    (∃ identifier, s.store.engine.lookup identifier = some a) ∨ Session.Makes ⟨s, events⟩ a := by
  -- A run finds what was there some time before, so the induction is for all prefixes.
  suffices hall : ∀ before, before <+: events → ∀ identifier,
      (s.after before).store.engine.lookup identifier = some a →
        (∃ identifier, s.store.engine.lookup identifier = some a) ∨ Session.Makes ⟨s, before⟩ a from
    hall events List.prefix_rfl identifier h
  clear h
  induction events using List.reverseRecOn with
  | nil =>
    intro before hbefore identifier h
    obtain rfl := List.prefix_nil.1 hbefore
    exact .inl ⟨identifier, h⟩
  | append_singleton events event ih =>
    intro before hbefore identifier h
    rcases List.prefix_concat_iff.1 hbefore with rfl | hbefore
    · rcases held_or_makes hstart hk events event h with ⟨before, hbefore, identifier, h⟩ | hmakes
      · exact (ih before hbefore identifier h).imp_right fun hmakes =>
          hmakes.mono (hbefore.trans (List.prefix_append _ _)) (fresh_of_start hstart).runs
      · exact .inr hmakes
    · exact ih before hbefore identifier h

end

/-! ### The ends of runs -/

theorem exists_prefix_of_mem_endings {x : Ending} (h : x ∈ s.endings events) :
    ∃ before, before ++ [.finishRun x.generation] <+: events ∧
      (s.after before).ending? (.finishRun x.generation) = some x := by
  induction events generalizing s with
  | nil => exact absurd h List.not_mem_nil
  | cons event events ih =>
    rcases List.mem_append.1 h with h | h
    · have hending := Option.mem_toList.1 h
      obtain ⟨rfl, -⟩ := ending?_eq_some.1 hending
      exact ⟨[], ⟨events, rfl⟩, hending⟩
    · obtain ⟨before, ⟨rest, rfl⟩, hending⟩ := ih h
      exact ⟨event :: before, ⟨rest, rfl⟩, hending⟩

theorem yields_of_mem_successes {c : Commit} (h : c ∈ s.successes events) :
    Session.Yields ⟨s, events⟩ c.generation c.artifacts := by
  obtain ⟨⟨g, output⟩, hx, hsuccess⟩ := List.mem_filterMap.1 h
  obtain ⟨before, hbefore, hending⟩ := exists_prefix_of_mem_endings hx
  cases output with
  | error e => cases hsuccess
  | ok output =>
    obtain rfl := Option.some.inj hsuccess
    exact ⟨before, output, hbefore, hending, rfl⟩

/-! ### Restarts -/

/-- After some sessions the service has left these surroundings. The first session
    began with others. -/
inductive Lives (around₀ : Surroundings) : List Session → Surroundings → Prop
  | none : Lives around₀ [] around₀
  | restart {past : List Session} {around : Surroundings} {config : Config} {first : SessionId}
      {s₀ : Service} (lives : Lives around₀ past around)
      (start : start config around first = .ok s₀) (events : List Event) :
      Lives around₀ (past ++ [⟨s₀, events⟩]) (s₀.after events).stop

variable {around₀ around : Surroundings} {past : List Session}

theorem Lives.isKeyed (h : Lives around₀ past around) (hempty : around₀.engine.stored = []) :
    around.engine.IsKeyed := by
  induction h with
  | none =>
    intro identifier a ha
    rw [Engine.lookup, hempty] at ha
    cases ha
  | restart lives start events ih => exact (history_after start ih events).keyed

theorem Lives.makes_of_lookup (h : Lives around₀ past around)
    (hempty : around₀.engine.stored = []) {identifier : String} {a : Artifact}
    (ha : around.engine.lookup identifier = some a) : ∃ x ∈ past, x.Makes a := by
  induction h generalizing identifier with
  | none =>
    rw [Engine.lookup, hempty] at ha
    cases ha
  | restart lives start events ih =>
    rcases Service.makes_of_lookup start (lives.isKeyed hempty) events ha with
      ⟨identifier, hheld⟩ | hmakes
    · rw [(fresh_of_start start).store] at hheld
      obtain ⟨x, hx, hmakes⟩ := ih hheld
      exact ⟨x, List.mem_append_left _ hx, hmakes⟩
    · exact ⟨_, List.mem_concat_self, hmakes⟩

/-! ### The artifacts in force -/

/-- After any sessions that began with an empty engine, and any events, the run whose
    artifacts are in force has compiled them, and left out the domains that were on the
    whitelist when it was issued. Otherwise it is the run of the first start-up and has
    found them. Then they were compiled in this or an earlier session, and the domains
    left out are those that were on the whitelist at that time. -/
theorem compiles_or_finds_current (hempty : around₀.engine.stored = [])
    (hpast : Lives around₀ past around) {config : Config} {first : SessionId} {s₀ : Service}
    (hstart : start config around first = .ok s₀) (events : List Event) {a : Artifact}
    (ha : a ∈ (s₀.after events).store.current) :
    let x : Session := ⟨s₀, events⟩
    let g := x.ended.store.installedGeneration
    x.Compiles g (s₀.whitelistAt g events) x.ended.store.current ∨
      (x.Finds g x.ended.store.current ∧ s₀.IsFirstStartUp g events ∧
        ∃ y ∈ past ++ [x], y.Makes a) := by
  intro x g
  have hfresh := fresh_of_start hstart
  have hlatest := latest_after hfresh events
  have hne : s₀.successes events ≠ [] := fun hnil => by
    rw [(hlatest.nothing hnil).1] at ha
    cases ha
  -- What is in force is what the run had when it ended.
  obtain ⟨before, output, hevents, hending, hartifacts⟩ : x.Yields g x.ended.store.current :=
    yields_of_mem_successes (hlatest.mem hne)
  obtain ⟨-, r, hr, hdone⟩ := ending?_eq_some.1 hending
  have hbefore : before <+: events := (List.prefix_append _ _).trans hevents
  rcases (traced_after hfresh.runs before hr).of_done hdone with hbuilds | hfinds
  · refine .inl ⟨⟨before, output, hevents, hending, hartifacts⟩, fun b hb => ?_⟩
    have hbuilds : x.Builds g r.request.excluded b :=
      (hbuilds b (hartifacts ▸ hb)).mono hbefore
    exact hbuilds.excluded_eq hfresh.runs ▸ hbuilds
  · have hfinds : x.Finds g x.ended.store.current := (hartifacts ▸ hfinds).mono hbefore
    refine .inr ⟨hfinds, hfinds.isFirstStartUp hfresh.runs, ?_⟩
    -- What the run has found was compiled before that.
    obtain ⟨before, hevents, hheld⟩ := hfinds.exists_held
      (fun before => (hpast.restart hstart before).isKeyed hempty) ha
    obtain ⟨y, hy, hmakes⟩ := (hpast.restart hstart before).makes_of_lookup hempty hheld
    rcases List.mem_append.1 hy with hy | hy
    · exact ⟨y, List.mem_append_left _ hy, hmakes⟩
    · obtain rfl := List.mem_singleton.1 hy
      have hbefore : before <+: events := (List.prefix_append _ _).trans hevents
      exact ⟨x, List.mem_concat_self, hmakes.mono hbefore hfresh.runs⟩

/-- A domain has come on the whitelist, but the start-up finds the artifacts from
    before. -/
theorem compiles_or_finds_current_restart : ∃ s₀ s₁ : Service, ∃ a,
    Lives {} [⟨s₀, coldEvents⟩] (s₀.after coldEvents).stop ∧
    start {} (s₀.after coldEvents).stop .nil = .ok s₁ ∧
    (s₁.after warmEvents).store.current = [a] ∧ s₁.IsFirstStartUp 2 warmEvents ∧
    Session.Finds ⟨s₁, warmEvents⟩ 2 [a] ∧ Session.Makes ⟨s₀, coldEvents⟩ a := by
  obtain ⟨s₀, s₁, a, hstart₀, hstart₁, -, hcurrent, hinstalled⟩ := exists_warm_start
  have hlives : Lives {} [⟨s₀, coldEvents⟩] (s₀.after coldEvents).stop :=
    Lives.none.restart hstart₀ coldEvents
  have hmem : a ∈ (s₁.after warmEvents).store.current := by
    rw [hcurrent]
    exact List.mem_singleton_self a
  have hcases := compiles_or_finds_current rfl hlives hstart₁ warmEvents hmem
  simp only [Session.ended, hcurrent, hinstalled] at hcases
  -- The second session compiles nothing.
  have hnot (g : Nat) : .compileRun g ∉ warmEvents := by simp [warmEvents]
  rcases hcases with hcompiles | ⟨hfinds, hstartUp, x, hx, hmakes⟩
  · have hbuilds := hcompiles.2 a (List.mem_singleton_self a)
    exact absurd hbuilds.mem_events (hnot _)
  · refine ⟨s₀, s₁, a, hlives, hstart₁, hcurrent, hstartUp, hfinds, ?_⟩
    rcases List.mem_pair.1 hx with rfl | rfl
    · exact hmakes
    · obtain ⟨g, hbuilds⟩ := hmakes
      exact absurd hbuilds.mem_events (hnot g)

/-- The event is not that files are changed by others, or that the engine begins to
    fail. -/
def Event.IsCalm : Event → Prop
  | .files _ | .fail _ => False
  | _ => True

/-- Even if nothing fails, the artifacts in force need not have been compiled for the
    whitelist as it was when their run was issued, by any run of any session. -/
theorem not_forall_compiles_current : ¬∀ (past : List Session) (around : Surroundings)
    (config : Config) (first : SessionId) (s₀ : Service) (events : List Event),
    Lives {} past around → start config around first = .ok s₀ →
    (∀ x ∈ past ++ [⟨s₀, events⟩], ∀ event ∈ x.events, event.IsCalm) →
    ∀ a ∈ (s₀.after events).store.current, ∃ x ∈ past ++ [⟨s₀, events⟩], ∃ g,
      x.Builds g (s₀.whitelistAt (s₀.after events).store.installedGeneration events) a := by
  intro hall
  obtain ⟨s₀, s₁, a, hstart₀, hstart₁, hwhitelist, hcurrent, hinstalled⟩ := exists_warm_start
  have hlives : Lives {} [⟨s₀, coldEvents⟩] (s₀.after coldEvents).stop :=
    Lives.none.restart hstart₀ coldEvents
  have hcalm : ∀ x ∈ ([⟨s₀, coldEvents⟩, ⟨s₁, warmEvents⟩] : List Session), ∀ event ∈ x.events,
      event.IsCalm := by
    simp [coldEvents, startUpEvents, findNoList, toFinish, compileParts, warmEvents, Event.IsCalm]
  obtain ⟨x, hx, g, hbuilds⟩ :=
    hall _ _ {} .nil s₁ warmEvents hlives hstart₁ hcalm a (by simp [hcurrent])
  rw [hinstalled, hwhitelist] at hbuilds
  rcases List.mem_pair.1 hx with rfl | rfl
  · -- The only run of the first session was issued when the whitelist was empty.
    have hg := hbuilds.mem_events
    have hexcluded := hbuilds.excluded_eq (fresh_of_start hstart₀).runs
    obtain rfl : g = 1 := by
      simpa [coldEvents, startUpEvents, findNoList, toFinish, compileParts] using hg
    rw [whitelistAt_coldEvents s₀ (by rw [hstart₀]; rfl)] at hexcluded
    cases hexcluded
  · have hg := hbuilds.mem_events
    simp [warmEvents] at hg

end Service

end ContentBlocking
