import ContentBlocking.CompileRun
import ContentBlocking.Proofs.Artifact.Commits
import Mathlib.Logic.Function.Iterate

/-!
# How a run gets its artifacts

A run waits, loads its lists and has the engine compile their shards, in parts that
may come in any order. A part does nothing unless it is due. Each shard, or finding
the artifacts of an earlier run, leaves the run with more artifacts, and they are
what the engine holds from then on. When nothing comes between the shards, the run
does what its request says in one go.

* `RunRequest.completes`: what a run has when its shards were compiled;
* `RunRequest.commits_compile`: a run stores the artifacts of its output;
* `CompileRun.LooksUp`, `CompileRun.Loads`, `CompileRun.Compiles`: what the parts of a
  run can do to it and to the engine;
* `CompileRun.IsNumbered`: the artifacts of a run have the numbers of its shards;
* `CompileRun.Goes`: all that the engine sees of a part of a run;
* `CompileRun.iterate_compile`: the parts of a compile in a row.
-/

namespace ContentBlocking

namespace RunRequest

/-- What a run has in the end: the artifacts of its shards, or else the one that stands in,
    if that can be compiled. -/
inductive Completes (q : RunRequest) (e : Engine) (output : RunOutput) :
    Engine → Except Failure RunOutput → Prop
  | whole (some : output.artifacts ≠ []) : Completes q e output e (.ok output)
  | standsIn (none : output.artifacts = []) {e' : Engine} {a : Artifact}
      (compile : e.compile Config.fallbackIdentifier
        (Payload.encode (RuleCollection.minimal q.excluded)) = (e', .ok a)) :
      Completes q e output e' (.ok { output with artifacts := [a], fallback := true })
  | fails (none : output.artifacts = []) {e' : Engine} {cause : EngineError}
      (compile : e.compile Config.fallbackIdentifier
        (Payload.encode (RuleCollection.minimal q.excluded)) = (e', .error cause)) :
      Completes q e output e' (.error (.compileFailure Config.fallbackIdentifier cause))

theorem completes (q : RunRequest) (e : Engine) (output : RunOutput) :
    q.Completes e output (q.complete e output).1 (q.complete e output).2 := by
  rw [complete]
  by_cases hnone : output.artifacts = []
  · rw [if_pos (List.isEmpty_iff.2 hnone), Engine.compileMinimal]
    cases hcompile : e.compile Config.fallbackIdentifier
      (Payload.encode (RuleCollection.minimal q.excluded)) with
    | mk e' result =>
      cases result with
      | error cause => exact .fails hnone hcompile
      | ok a => exact .standsIn hnone hcompile
  · rw [if_neg (mt List.isEmpty_iff.1 hnone)]
    exact .whole hnone

/-- A run whose output is complete has stored what was added to it. Nothing is added to
    artifacts that are there. -/
theorem Completes.commits {q : RunRequest} {e e' : Engine} {output : RunOutput}
    {result : Except Failure RunOutput} (h : q.Completes e output e' result) : ∃ new,
    e.Commits new e' ∧
      (result.toOption.map (·.artifacts)).getD [] = output.artifacts ++ new ∧
      (output.artifacts = [] ∨ new = []) := by
  have hcommits := (e.commits_compile Config.fallbackIdentifier
    (Payload.encode (RuleCollection.minimal q.excluded))).1
  cases h with
  | whole some => exact ⟨[], ⟨rfl, nofun, fun _ _ => rfl⟩, (List.append_nil _).symm, .inr rfl⟩
  | standsIn none compile =>
    rw [compile] at hcommits
    exact ⟨_, hcommits, by rw [none]; rfl, .inl none⟩
  | fails none compile =>
    rw [compile] at hcommits
    exact ⟨[], hcommits, by rw [none]; rfl, .inl none⟩

/-- The artifacts of a run are stored, and nothing else is. -/
theorem commits_compile (q : RunRequest) (e : Engine) (results : List ListResult) :
    e.Commits (((q.compile e results).2.toOption.map (·.artifacts)).getD [])
      (q.compile e results).1 := by
  have hshards := (e.commits_compileShardsFrom q.nameSpace 0 (q.plan results).shards).1
  rw [compile, Engine.compileShards]
  generalize e.compileShardsFrom q.nameSpace 0 (q.plan results).shards = made at hshards
  obtain ⟨e', artifacts⟩ := made
  obtain ⟨new, hcommits, hartifacts, hnone⟩ := (q.completes e'
    { q.planned results (q.plan results) with artifacts := artifacts }).commits
  dsimp only at hartifacts hnone ⊢
  rw [hartifacts]
  refine hshards.trans hcommits fun a ha b hb => ?_
  rcases hnone with rfl | rfl
  · cases ha
  · cases hb

end RunRequest

/-! ### Artifacts that are found -/

/-- Every artifact is held under its own identifier, as it is when all of them come
    from compiles. -/
def Engine.IsKeyed (e : Engine) : Prop :=
  ∀ identifier a, e.lookup identifier = some a → a.identifier = identifier

theorem Engine.Commits.isKeyed {e e' : Engine} {artifacts : List Artifact}
    (h : e.Commits artifacts e') (hk : e.IsKeyed) : e'.IsKeyed := by
  intro identifier a ha
  by_cases hany : ∃ b ∈ artifacts, b.identifier = identifier
  · obtain ⟨b, hb, rfl⟩ := hany
    rw [h.held b hb] at ha
    exact congrArg _ (Option.some.inj ha).symm
  · rw [h.lookup_others fun b hb heq => hany ⟨b, hb, heq⟩] at ha
    exact hk identifier a ha

/-- The artifacts that are found are those that the engine holds. -/
theorem Engine.commits_of_lookupAll {e : Engine} (hk : e.IsKeyed) {identifiers : List String}
    {artifacts : List Artifact} (h : e.lookupAll identifiers = some artifacts) :
    e.Commits artifacts e := by
  have hmap : identifiers.mapM e.lookup = some artifacts := by
    rw [lookupAll] at h
    split at h
    · cases h
    · exact h
  refine ⟨rfl, fun a ha => ?_, fun _ _ => rfl⟩
  clear h
  induction identifiers generalizing artifacts with
  | nil =>
    obtain rfl := Option.some.inj hmap
    exact absurd ha List.not_mem_nil
  | cons identifier identifiers ih =>
    rw [List.mapM_cons] at hmap
    cases hl : e.lookup identifier with
    | none => simp [hl] at hmap
    | some b =>
      cases hrest : identifiers.mapM e.lookup with
      | none => simp [hl, hrest] at hmap
      | some rest =>
        simp only [hl, hrest, Option.bind_eq_bind, Option.bind_some, Option.pure_def,
          Option.some.injEq] at hmap
        subst hmap
        rcases List.mem_cons.1 ha with rfl | ha
        · rw [hk _ _ hl, hl]
        · exact ih hrest ha

/-! ### The parts of a run -/

namespace CompileRun

/-- The output of a run as far as it is, unless the run has failed. -/
def output? (r : CompileRun) : Option RunOutput :=
  match r.stage with
  | .compiling _ _ output => some output
  | .done (.ok output) => some output
  | _ => none

theorem output?_of_done {r : CompileRun} {output : RunOutput}
    (h : r.stage = .done (.ok output)) : r.output? = some output := by
  rw [output?, h]

/-- The artifacts that a run has got so far. -/
def got (r : CompileRun) : List Artifact := (r.output?.map (·.artifacts)).getD []

/-- The results of a run whose lists are loaded. -/
def loaded? (r : CompileRun) : Option (List ListResult) :=
  match r.stage with
  | .loading stages => results? stages
  | _ => none

/-- What looking for the artifacts of an earlier run makes of a run. -/
inductive LooksUp (r : CompileRun) (e : Engine) : CompileRun → Prop
  | stays (going : r.stage ≠ .waiting) : LooksUp r e r
  | finds (waiting : r.stage = .waiting) {identifiers : List String} {artifacts : List Artifact}
      (reuse : r.request.reuse = some identifiers)
      (found : e.lookupAll identifiers = some artifacts) :
      LooksUp r e ⟨r.request, .done (.ok { artifacts := artifacts, reused := true })⟩
  | begins (waiting : r.stage = .waiting) :
      LooksUp r e ⟨r.request, .loading (r.request.lists.map fun _ => .waiting)⟩

theorem looksUp (r : CompileRun) (e : Engine) : r.LooksUp e (r.lookUp e) := by
  rw [lookUp]
  split
  · next hwaiting =>
    split
    · next output hreused =>
      obtain ⟨artifacts, hfound, rfl⟩ := Option.map_eq_some_iff.1 hreused
      obtain ⟨identifiers, hreuse, hfound⟩ := Option.bind_eq_some_iff.1 hfound
      exact .finds hwaiting hreuse hfound
    · exact .begins hwaiting
  · next hgoing => exact .stays hgoing

/-- What beginning a list or ending its download makes of a run, whatever becomes of the
    list. -/
inductive Loads (r : CompileRun) : CompileRun → Prop
  | stays : Loads r r
  | sets {stages : List ListStage} (loading : r.stage = .loading stages) (i : Nat)
      (stage : ListStage) : Loads r ⟨r.request, .loading (stages.set i stage)⟩

theorem loads_beginList (r : CompileRun) (source : ListSource) (d : Disk) (now : UInt64)
    (i : Nat) : r.Loads (r.beginList source d now i) := by
  rw [beginList]
  split
  · next hstage _ =>
    split
    · exact .sets hstage i _
    · exact .stays
  · exact .stays

theorem loads_finishList (r : CompileRun) (source : ListSource) (d : Disk) (now : UInt64)
    (i : Nat) (reply : FetchReply) : r.Loads (r.finishList source d now i reply).2 := by
  rw [finishList]
  split
  · next hstage _ =>
    split
    · exact .sets hstage i _
    · exact .stays
  · exact .stays

/-- What the next part of its compile makes of the engine and a run. -/
inductive Compiles (r : CompileRun) (e : Engine) : Engine → CompileRun → Prop
  | stays : Compiles r e e r
  | plans {results : List ListResult} (loaded : r.loaded? = some results) :
      Compiles r e e ⟨r.request, .compiling 0 (r.request.plan results).shards
        (r.request.planned results (r.request.plan results))⟩
  | shard {index : Nat} {shard : List Rule} {left : List (List Rule)} {output : RunOutput}
      (next : r.stage = .compiling index (shard :: left) output) {e' : Engine}
      {result : Except EngineError Artifact}
      (compile : e.compile (shardIdentifier r.request.nameSpace index) (Payload.encode shard) =
        (e', result)) :
      Compiles r e e' ⟨r.request, .compiling (index + 1) left
        { output with artifacts := output.artifacts ++ result.toOption.toList }⟩
  | completes {index : Nat} {output : RunOutput} (last : r.stage = .compiling index [] output)
      {e' : Engine} {result : Except Failure RunOutput}
      (completes : r.request.Completes e output e' result) :
      Compiles r e e' ⟨r.request, .done result⟩

theorem compiles (r : CompileRun) (e : Engine) :
    r.Compiles e (r.compile e).1 (r.compile e).2 := by
  obtain ⟨request, stage⟩ := r
  rcases stage with _ | stages | ⟨index, _ | ⟨shard, left⟩, output⟩ | output
  · exact .stays
  · rw [compile]
    dsimp only
    split
    · next results hresults => exact .plans hresults
    · exact .stays
  · exact .completes rfl (request.completes e output)
  · exact .shard rfl rfl
  · exact .stays

variable {e e' : Engine} {r r' : CompileRun}

/-! A run keeps to what it was asked for. -/

theorem LooksUp.request (h : r.LooksUp e r') : r'.request = r.request := by
  cases h <;> rfl

theorem Loads.request (h : r.Loads r') : r'.request = r.request := by
  cases h <;> rfl

theorem Compiles.request (h : r.Compiles e e' r') : r'.request = r.request := by
  cases h <;> rfl

/-- The artifacts of a run that is having its shards compiled are those of the shards
    before. -/
def IsNumbered (r : CompileRun) : Prop :=
  match r.stage with
  | .compiling index _ output =>
    ∀ a ∈ output.artifacts, ∃ i < index, a.identifier = shardIdentifier r.request.nameSpace i
  | _ => True

theorem IsNumbered.looksUp (hn : r.IsNumbered) (h : r.LooksUp e r') : r'.IsNumbered := by
  cases h with
  | stays going => exact hn
  | finds waiting reuse found => trivial
  | begins waiting => trivial

theorem IsNumbered.loads (hn : r.IsNumbered) (h : r.Loads r') : r'.IsNumbered := by
  cases h with
  | stays => exact hn
  | sets loading i stage => trivial

theorem IsNumbered.compiles (hn : r.IsNumbered) (h : r.Compiles e e' r') : r'.IsNumbered := by
  cases h with
  | stays => exact hn
  | plans loaded => exact fun _ => nofun
  | @shard index shard left output next e' result compile =>
    rw [IsNumbered, next] at hn
    intro a ha
    rcases List.mem_append.1 ha with ha | ha
    · obtain ⟨i, hi, ha⟩ := hn a ha
      exact ⟨i, Nat.lt_succ_of_lt hi, ha⟩
    · have hid := (e.commits_compile (shardIdentifier r.request.nameSpace index)
        (Payload.encode shard)).2
      rw [compile] at hid
      exact ⟨index, Nat.lt_succ_self _, hid a (Option.mem_toList.1 ha)⟩
  | completes last completes => trivial

/-- A part of the run leads to the engine `e'` and the run `r'`. It does nothing, or it
    adds to the artifacts of the run, and what it adds is stored. -/
inductive Goes (e : Engine) (r : CompileRun) : Engine → CompileRun → Prop
  | stays : Goes e r e r
  | works {e' : Engine} {r' : CompileRun} (new : List Artifact) (got : r'.got = r.got ++ new)
      (commits : e.Commits new e')
      (apart : r.IsNumbered → ∀ a ∈ r.got, ∀ b ∈ new, b.identifier ≠ a.identifier) :
      Goes e r e' r'

theorem Goes.attachments (h : Goes e r e' r') : e'.attachments = e.attachments := by
  cases h with
  | stays => rfl
  | works new got commits apart => exact commits.attachments

/-- A part that gives a run nothing. -/
theorem goes_of_got (h : r'.got = r.got) : Goes e r e r' :=
  .works [] (h.trans (List.append_nil _).symm) ⟨rfl, nofun, fun _ _ => rfl⟩ fun _ _ _ => nofun

theorem LooksUp.goes (hk : e.IsKeyed) (h : r.LooksUp e r') : Goes e r e r' := by
  obtain ⟨request, stage⟩ := r
  cases h with
  | stays going => exact .stays
  | finds waiting reuse found =>
    obtain rfl : stage = .waiting := waiting
    exact .works _ rfl (Engine.commits_of_lookupAll hk found) fun _ _ => nofun
  | begins waiting =>
    obtain rfl : stage = .waiting := waiting
    exact goes_of_got rfl

theorem Loads.goes (h : r.Loads r') (e : Engine) : Goes e r e r' := by
  obtain ⟨request, stage⟩ := r
  cases h with
  | stays => exact .stays
  | @sets stages loading i _ =>
    obtain rfl : stage = .loading stages := loading
    exact goes_of_got rfl

theorem Compiles.goes (h : r.Compiles e e' r') : Goes e r e' r' := by
  obtain ⟨request, stage⟩ := r
  cases h with
  | stays => exact .stays
  | plans loaded =>
    cases stage with
    | loading stages => exact goes_of_got rfl
    | _ => cases loaded
  | @shard index shard left output next e' result compile =>
    obtain rfl : stage = .compiling index (shard :: left) output := next
    obtain ⟨hcommits, hid⟩ :=
      e.commits_compile (shardIdentifier request.nameSpace index) (Payload.encode shard)
    rw [compile] at hcommits hid
    refine .works _ rfl hcommits fun hnumbered a ha b hb => ?_
    -- The shards before have lesser numbers.
    obtain ⟨i, hi, ha⟩ := hnumbered a ha
    rw [hid b (Option.mem_toList.1 hb), ha]
    intro h
    exact absurd (shardIdentifier_injective h) (Nat.ne_of_gt hi)
  | @completes index output last e' result completes =>
    obtain rfl : stage = .compiling index [] output := last
    -- A compile that fails has stored nothing, so the run goes on all the same.
    obtain ⟨new, hcommits, hartifacts, hnone⟩ := completes.commits
    have hgot : got ⟨request, .done result⟩ = output.artifacts ++ new := by
      rw [← hartifacts]
      cases result <;> rfl
    refine .works new hgot hcommits fun _ a ha b hb => ?_
    rcases hnone with hnil | rfl
    · have ha : a ∈ output.artifacts := ha
      rw [hnil] at ha
      cases ha
    · cases hb

/-! ### The parts of a compile in a row -/

theorem compile_of_loaded {results : List ListResult} (h : r.loaded? = some results)
    (e : Engine) : r.compile e = (e, ⟨r.request, .compiling 0 (r.request.plan results).shards
      (r.request.planned results (r.request.plan results))⟩) := by
  obtain ⟨request, stage⟩ := r
  cases stage with
  | loading stages =>
    have hresults : results? stages = some results := h
    rw [compile]
    dsimp only
    rw [hresults]
  | _ => cases h

/-- The engine and the run after the next part of a compile. -/
def compilePart (x : Engine × CompileRun) : Engine × CompileRun := x.2.compile x.1

theorem iterate_compile_left (q : RunRequest) (e : Engine) (index : Nat)
    (left : List (List Rule)) (output : RunOutput) :
    compilePart^[left.length + 1] (e, ⟨q, .compiling index left output⟩) =
      let made := e.compileShardsFrom q.nameSpace index left
      let completed := q.complete made.1
        { output with artifacts := output.artifacts ++ made.2 }
      (completed.1, ⟨q, .done completed.2⟩) := by
  induction left generalizing e index output with
  | nil =>
    dsimp only [Engine.compileShardsFrom]
    rw [List.append_nil]
    rfl
  | cons shard left ih =>
    rw [List.length_cons, Function.iterate_succ_apply]
    have hfirst : compilePart (e, ⟨q, .compiling index (shard :: left) output⟩) =
        let made := e.compile (shardIdentifier q.nameSpace index) (Payload.encode shard)
        (made.1, ⟨q, .compiling (index + 1) left
          { output with artifacts := output.artifacts ++ made.2.toOption.toList }⟩) := rfl
    rw [hfirst]
    dsimp only
    rw [ih]
    dsimp only [Engine.compileShardsFrom]
    rw [List.append_assoc]

/-- When nothing comes between its parts, the compile of a run is that of its request. -/
theorem iterate_compile {results : List ListResult} (h : r.loaded? = some results) (e : Engine) :
    compilePart^[(r.request.plan results).shards.length + 2] (e, r) =
      let compiled := r.request.compile e results
      (compiled.1, ⟨r.request, .done compiled.2⟩) := by
  rw [Function.iterate_succ_apply, compilePart, compile_of_loaded h, iterate_compile_left]
  rfl

end CompileRun

end ContentBlocking
