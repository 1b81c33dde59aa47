import ContentBlocking.Proofs.Compile.ShardRuns
import ContentBlocking.Proofs.Service.Endings

/-!
# Runs come to an end

A run in flight has a stage for each of its lists as soon as it loads them, and no more
shards than it may have, so its parts bring it to its end, whatever it has done before and
whatever its downloads give.

* `CompileRun.IsWhole`: the lists have a stage each, kept up by every part of a run;
* `CompileRun.LoadedTo`: the first lists are loaded, or the shards are planned;
* `CompileRun.done_compile`: the parts of a compile in a row come to an end;
* `Service.advances_step`: what becomes of a run in a step;
* `Service.everyRun_after`: what the parts of runs keep up holds of every run in flight;
* `after_compileParts`: the parts of a compile when nothing comes between them;
* `Service.toEnd`: the parts of a run from the first to its end;
* `ended_toEnd`: they bring a run in flight to its end.
-/

namespace ContentBlocking

namespace CompileRun

variable {r r' : CompileRun}

/-! ### The stages of the lists -/

/-- While the lists are loaded, each of them has a stage. When they are, no more shards
    are left than there may be. -/
def IsWhole (r : CompileRun) : Prop :=
  match r.stage with
  | .loading stages => stages.length = r.request.lists.length
  | .compiling _ left _ => left.length ≤ r.request.maxShards
  | _ => True

theorem IsWhole.looksUp {e : Engine} (hw : r.IsWhole) (h : r.LooksUp e r') : r'.IsWhole := by
  cases h with
  | stays going => exact hw
  | finds waiting reuse found => trivial
  | begins waiting => exact List.length_map _

theorem IsWhole.loads (hw : r.IsWhole) (h : r.Loads r') : r'.IsWhole := by
  cases h with
  | stays => exact hw
  | sets loading i stage =>
    rw [IsWhole, loading] at hw
    exact List.length_set.trans hw

theorem IsWhole.compiles {e e' : Engine} (hw : r.IsWhole) (h : r.Compiles e e' r') :
    r'.IsWhole := by
  cases h with
  | stays => exact hw
  | plans loaded => exact ShardPlan.length_shards_le _ _ _
  | shard next compile =>
    rw [IsWhole, next] at hw
    exact Nat.le_of_succ_le hw
  | completes last completes => trivial

/-! ### Lists that are loaded -/

/-- The first `n` lists are loaded. -/
def AreLoaded (stages : List ListStage) (n : Nat) : Prop :=
  ∀ i < n, ∃ result, stages[i]? = some (.loaded result)

theorem areLoaded_zero (stages : List ListStage) : AreLoaded stages 0 :=
  fun i hi => absurd hi (Nat.not_lt_zero i)

theorem AreLoaded.set {stages : List ListStage} {n : Nat} (h : AreLoaded stages n)
    (stage : ListStage) : AreLoaded (stages.set n stage) n := fun i hi => by
  rw [List.getElem?_set_ne (Nat.ne_of_gt hi)]
  exact h i hi

theorem AreLoaded.succ {stages : List ListStage} {n : Nat} (h : AreLoaded stages n)
    {result : ListResult} (hn : stages[n]? = some (.loaded result)) :
    AreLoaded stages (n + 1) := fun i hi => by
  rcases Nat.lt_succ_iff_lt_or_eq.1 hi with hi | rfl
  · exact h i hi
  · exact ⟨result, hn⟩

/-- The first `n` lists of the run are loaded, or its shards are planned. -/
def LoadedTo (r : CompileRun) (n : Nat) : Prop :=
  match r.stage with
  | .waiting => False
  | .loading stages => stages.length = r.request.lists.length ∧ AreLoaded stages n
  | _ => True

theorem loadedTo_lookUp (h : r.IsWhole) (e : Engine) : (r.lookUp e).LoadedTo 0 := by
  have hlooksUp := r.looksUp e
  generalize r.lookUp e = r' at hlooksUp ⊢
  cases hlooksUp with
  | stays going =>
    obtain ⟨request, stage⟩ := r
    cases stage with
    | waiting => exact absurd rfl going
    | loading stages => exact ⟨h, areLoaded_zero stages⟩
    | _ => trivial
  | finds waiting reuse found => trivial
  | begins waiting => exact ⟨List.length_map _, areLoaded_zero _⟩

/-- The first `n` lists of the run are loaded and the next one is not left to be begun, or
    its shards are planned. -/
def Begins (r : CompileRun) (n : Nat) : Prop :=
  match r.stage with
  | .waiting => False
  | .loading stages => stages.length = r.request.lists.length ∧ AreLoaded stages n ∧
      ∃ stage, stages[n]? = some stage ∧ stage ≠ .waiting
  | _ => True

variable {n : Nat}

theorem begins_beginList (h : r.LoadedTo n) (hn : n < r.request.lists.length)
    (source : ListSource) (d : Disk) (now : UInt64) : (r.beginList source d now n).Begins n := by
  obtain ⟨request, stage⟩ := r
  cases stage with
  | waiting => exact h.elim
  | compiling index left output => trivial
  | done output => trivial
  | loading stages =>
    obtain ⟨hlength, hloaded⟩ := h
    dsimp only at hlength hn
    have hstages : n < stages.length := hlength ▸ hn
    have hstage := List.getElem?_eq_getElem hstages
    rw [beginList]
    dsimp only
    rw [List.getElem?_eq_getElem hn]
    dsimp only
    rw [hstage]
    cases hcase : stages[n] with
    | waiting =>
      refine ⟨List.length_set.trans hlength, hloaded.set _, _, List.getElem?_set_self hstages, ?_⟩
      split <;> simp
    | fetching copy => exact ⟨hlength, hloaded, _, hstage, by simp [hcase]⟩
    | loaded result => exact ⟨hlength, hloaded, _, hstage, by simp [hcase]⟩

theorem loadedTo_finishList (h : r.Begins n) (hn : n < r.request.lists.length)
    (source : ListSource) (d : Disk) (now : UInt64) (reply : FetchReply) :
    (r.finishList source d now n reply).2.LoadedTo (n + 1) := by
  obtain ⟨request, stage⟩ := r
  cases stage with
  | waiting => exact h.elim
  | compiling index left output => trivial
  | done output => trivial
  | loading stages =>
    obtain ⟨hlength, hloaded, stage, hstage, hbegun⟩ := h
    dsimp only at hlength hn
    have hstages : n < stages.length := hlength ▸ hn
    rw [finishList]
    dsimp only
    rw [List.getElem?_eq_getElem hn]
    dsimp only
    rw [hstage]
    cases stage with
    | waiting => exact absurd rfl hbegun
    | fetching copy =>
      exact ⟨List.length_set.trans hlength, (hloaded.set _).succ (List.getElem?_set_self hstages)⟩
    | loaded result => exact ⟨hlength, hloaded.succ hstage⟩

theorem results?_of_areLoaded {stages : List ListStage} (h : AreLoaded stages stages.length) :
    ∃ results, results? stages = some results := by
  rw [results?]
  induction stages with
  | nil => exact ⟨[], rfl⟩
  | cons stage stages ih =>
    obtain ⟨result, hfirst⟩ := h 0 (Nat.succ_pos _)
    obtain rfl := Option.some.inj hfirst
    obtain ⟨results, hrest⟩ := ih fun i hi => h (i + 1) (Nat.succ_lt_succ hi)
    refine ⟨result :: results, ?_⟩
    rw [List.mapM_cons, hrest]
    rfl

theorem loaded?_of_loadedTo (h : r.LoadedTo r.request.lists.length) {stages : List ListStage}
    (hstage : r.stage = .loading stages) : ∃ results, r.loaded? = some results := by
  obtain ⟨request, stage⟩ := r
  obtain rfl : stage = .loading stages := hstage
  obtain ⟨hlength, hloaded⟩ := h
  dsimp only at hlength hloaded
  exact results?_of_areLoaded (hlength ▸ hloaded)

/-! ### The end of a compile -/

/-- The work is done after some parts of the compile, and nothing is left to do after
    that. -/
theorem iterate_of_done {x : Engine × CompileRun} {m : Nat} {e : Engine} {q : RunRequest}
    {output : Except Failure RunOutput} (h : compilePart^[m] x = (e, ⟨q, .done output⟩))
    (hle : m ≤ n) : compilePart^[n] x = (e, ⟨q, .done output⟩) := by
  have hdone : compilePart (e, ⟨q, .done output⟩) = (e, ⟨q, .done output⟩) := rfl
  obtain ⟨k, rfl⟩ := Nat.exists_eq_add_of_le' hle
  rw [Function.iterate_add_apply, h, Function.iterate_fixed hdone]

/-- A run whose lists are loaded has its work done by the engine, in as many parts as it
    may have shards and two more. -/
theorem done_compile (h : r.LoadedTo r.request.lists.length) (hwhole : r.IsWhole) (e : Engine) :
    ∃ e' output, compilePart^[r.request.maxShards + 2] (e, r) =
      (e', ⟨r.request, .done output⟩) := by
  obtain ⟨request, stage⟩ := r
  cases stage with
  | waiting => exact h.elim
  | done output => exact ⟨e, output, iterate_of_done (m := 0) rfl (Nat.zero_le _)⟩
  | compiling index left output =>
    exact ⟨_, _, iterate_of_done (iterate_compile_left request e index left output)
      (Nat.succ_le_succ (Nat.le_succ_of_le hwhole))⟩
  | loading stages =>
    obtain ⟨results, hresults⟩ := loaded?_of_loadedTo h rfl
    have hshards : (request.plan results).shards.length ≤ request.maxShards :=
      ShardPlan.length_shards_le _ _ _
    exact ⟨_, _, iterate_of_done (iterate_compile hresults e) (Nat.add_le_add_right hshards 2)⟩

end CompileRun

namespace Service

variable {s : Service}

/-! ### Parts of the runs in flight -/

/-- `P` holds of a new run, and is kept up by the parts of a run. -/
structure KeptByRuns (P : CompileRun → Prop) : Prop where
  waiting : ∀ request, P ⟨request, .waiting⟩
  lookUp : ∀ (r : CompileRun) e, P r → P (r.lookUp e)
  beginList : ∀ (r : CompileRun) source d now i, P r → P (r.beginList source d now i)
  finishList : ∀ (r : CompileRun) source d now i reply, P r →
    P (r.finishList source d now i reply).2
  compile : ∀ (r : CompileRun) e, P r → P (r.compile e).2

/-- `P` holds of every run in flight. -/
def EveryRun (P : CompileRun → Prop) (s : Service) : Prop := ∀ g r, s.runs.get? g = some r → P r

/-- What the run with the number `g` is after an event: the run that it was, a new one, or
    one of which the event has done a part. -/
inductive Advances (s : Service) (g : Nat) : Event → CompileRun → Prop
  | stays {event : Event} {r : CompileRun} (before : s.runs.get? g = some r) :
      Advances s g event r
  | starts (t : Ticket) (c : Command) (request : RunRequest) :
      Advances s g (.command t c) ⟨request, .waiting⟩
  | lookUp (r : CompileRun) (before : s.runs.get? g = some r) :
      Advances s g (.lookUp g) (r.lookUp s.store.engine)
  | beginList (r : CompileRun) (before : s.runs.get? g = some r) (now : UInt64) (i : Nat) :
      Advances s g (.beginList g now i) (r.beginList s.source s.disk now i)
  | finishList (r : CompileRun) (before : s.runs.get? g = some r) (now : UInt64) (i : Nat)
      (reply : FetchReply) :
      Advances s g (.finishList g now i reply) (r.finishList s.source s.disk now i reply).2
  | compile (r : CompileRun) (before : s.runs.get? g = some r) :
      Advances s g (.compileRun g) (r.compile s.store.engine).2

/-- A run that is put in the table, or one that was there. -/
theorem get?_set_cases {runs : Table Nat CompileRun} {g g' : Nat} {r r' : CompileRun}
    (h : (runs.set g' r').get? g = some r) : g = g' ∧ r = r' ∨ runs.get? g = some r := by
  rw [Table.get?_set] at h
  split at h
  · next hg => exact .inl ⟨hg, (Option.some.inj h).symm⟩
  · exact .inr h

theorem changeRun_cases {change : CompileRun → CompileRun} {g g' : Nat} {r : CompileRun}
    (h : (s.changeRun g' change).runs.get? g = some r) :
    (g = g' ∧ ∃ r₀, s.runs.get? g = some r₀ ∧ r = change r₀) ∨ s.runs.get? g = some r := by
  rw [Service.changeRun] at h
  split at h
  · next r₀ hr₀ =>
    rcases get?_set_cases h with ⟨rfl, rfl⟩ | hr
    · exact .inl ⟨rfl, r₀, hr₀, rfl⟩
    · exact .inr hr
  · exact .inr h

/-- A step does a part of one run at most, and leaves the others as they were. -/
theorem advances_step (s : Service) (event : Event) {g : Nat} {r : CompileRun}
    (hr : (s.step event).1.runs.get? g = some r) : s.Advances g event r := by
  cases event with
  | command t c =>
    cases s.issues_handle t c with
    | none generation runs => exact .stays (runs ▸ hr)
    | run request generation runs excluded reuse =>
      rcases get?_set_cases (runs ▸ hr) with ⟨-, rfl⟩ | hr
      · exact .starts t c request
      · exact .stays hr
  | lookUp g' =>
    rcases changeRun_cases hr with ⟨rfl, r₀, hr₀, rfl⟩ | hr
    · exact .lookUp r₀ hr₀
    · exact .stays hr
  | beginList g' now i =>
    rcases changeRun_cases hr with ⟨rfl, r₀, hr₀, rfl⟩ | hr
    · exact .beginList r₀ hr₀ now i
    · exact .stays hr
  | finishList g' now i reply =>
    rw [step, Service.finishList] at hr
    split at hr
    · next r₀ hr₀ =>
      rcases get?_set_cases hr with ⟨rfl, rfl⟩ | hr
      · exact .finishList r₀ hr₀ now i reply
      · exact .stays hr
    · exact .stays hr
  | compileRun g' =>
    rw [step, compileRun] at hr
    split at hr
    · next r₀ hr₀ =>
      rcases get?_set_cases hr with ⟨rfl, rfl⟩ | hr
      · exact .compile r₀ hr₀
      · exact .stays hr
    · exact .stays hr
  | finishRun g' =>
    rw [step, finishRun] at hr
    split at hr
    · next request output hr' =>
      obtain ⟨registry, disk, waiters, heq⟩ := s.finishWith_eq g' output
      rw [heq] at hr
      have hr : (s.runs.erase g').get? g = some r := hr
      rw [Table.get?_erase] at hr
      split at hr
      · cases hr
      · exact .stays hr
    · exact .stays hr
  | elapse ms => exact .stays ((s.idles_elapse ms).runs g ▸ hr)
  | reattach x =>
    rw [step] at hr
    split at hr
    · rw [(idles_reattach _ x.surface x.number).runs] at hr
      exact .stays hr
    · exact .stays hr
  | evict =>
    rw [step, evict] at hr
    split at hr <;> exact .stays hr
  | fail identifiers => exact .stays hr
  | files disk => exact .stays hr

variable {P : CompileRun → Prop}

theorem everyRun_step (hP : KeptByRuns P) (event : Event) (h : EveryRun P s) :
    EveryRun P (s.step event).1 := fun g r hr => by
  cases s.advances_step event hr with
  | stays before => exact h g r before
  | starts t c request => exact hP.waiting request
  | lookUp r before => exact hP.lookUp r _ (h g r before)
  | beginList r before now i => exact hP.beginList r _ _ _ _ (h g r before)
  | finishList r before now i reply => exact hP.finishList r _ _ _ _ _ (h g r before)
  | compile r before => exact hP.compile r _ (h g r before)

/-- What the parts of runs keep up holds of every run, after any events. -/
theorem everyRun_after (hP : KeptByRuns P) {around : Surroundings} (h : Fresh around s)
    (events : List Event) : EveryRun P (s.after events) := by
  refine after_induction (P := EveryRun P) (fun _ => everyRun_step hP) (fun g r hr => ?_) events
  rw [h.runs] at hr
  cases hr

theorem keptByRuns_isWhole : KeptByRuns CompileRun.IsWhole where
  waiting _ := trivial
  lookUp r e h := h.looksUp (r.looksUp e)
  beginList r source d now i h := h.loads (r.loads_beginList source d now i)
  finishList r source d now i reply h := h.loads (r.loads_finishList source d now i reply)
  compile r e h := h.compiles (r.compiles e)

/-! ### The end of a run -/

/-- The parts of run `g` that load the first `n` of its lists, whose downloads give these
    replies. -/
def toLoad (g : Nat) (now : UInt64) (reply : Nat → FetchReply) : Nat → List Event
  | 0 => [.lookUp g]
  | n + 1 => toLoad g now reply n ++ [.beginList g now n, .finishList g now n (reply n)]

/-- The parts of run `g` with `n` lists from the first to its end. They are enough for a
    run that may have so many shards. -/
def toEnd (g n maxShards : Nat) (now : UInt64) (reply : Nat → FetchReply) : List Event :=
  toLoad g now reply n ++ compileParts g (maxShards + 2) ++ [.finishRun g]

theorem get?_changeRun {g : Nat} {r : CompileRun} (hr : s.runs.get? g = some r)
    (change : CompileRun → CompileRun) : (s.changeRun g change).runs.get? g = some (change r) := by
  rw [changeRun, hr]
  exact (Table.get?_set _ _ _ _).trans (if_pos rfl)

theorem get?_finishList {g : Nat} {r : CompileRun} (hr : s.runs.get? g = some r) (now : UInt64)
    (i : Nat) (reply : FetchReply) : (s.finishList g now i reply).runs.get? g =
      some (r.finishList s.source s.disk now i reply).2 := by
  rw [finishList, hr]
  exact (Table.get?_set _ _ _ _).trans (if_pos rfl)

/-- The parts of a compile in a row change the engine and the run, and no other run. -/
theorem after_compileParts {g : Nat} {r : CompileRun} (hr : s.runs.get? g = some r) (n : Nat) :
    let x := CompileRun.compilePart^[n] (s.store.engine, r)
    ∃ runs, s.after (compileParts g n) =
        { s with store := { s.store with engine := x.1 }, runs := runs } ∧
      ∀ g', runs.get? g' = if g' = g then some x.2 else s.runs.get? g' := by
  induction n with
  | zero =>
    refine ⟨s.runs, rfl, fun g' => ?_⟩
    split
    · next hg => exact hg ▸ hr
    · rfl
  | succ n ih =>
    obtain ⟨runs, hafter, hruns⟩ := ih
    rw [compileParts, List.replicate_succ', after_append, ← compileParts, hafter,
      Function.iterate_succ_apply']
    generalize CompileRun.compilePart^[n] (s.store.engine, r) = x at hruns
    have hx : runs.get? g = some x.2 := (hruns g).trans (if_pos rfl)
    refine ⟨runs.set g (CompileRun.compilePart x).2, ?_, fun g' => ?_⟩
    · rw [after_cons, step, compileRun]
      dsimp only
      rw [hx]
      rfl
    · rw [Table.get?_set, hruns]
      split <;> rfl

theorem loadedTo_toLoad (h : EveryRun CompileRun.IsWhole s) {g : Nat} {r : CompileRun}
    (hr : s.runs.get? g = some r) (now : UInt64) (reply : Nat → FetchReply) {n : Nat}
    (hn : n ≤ r.request.lists.length) :
    ∃ r', (s.after (toLoad g now reply n)).runs.get? g = some r' ∧
      r'.request = r.request ∧ r'.LoadedTo n := by
  induction n with
  | zero =>
    exact ⟨r.lookUp s.store.engine, get?_changeRun hr _, (r.looksUp _).request,
      CompileRun.loadedTo_lookUp (h g r hr) _⟩
  | succ n ih =>
    obtain ⟨r', hr', hrequest, hloaded⟩ := ih (Nat.le_of_succ_le hn)
    rw [toLoad, after_append]
    generalize s.after (toLoad g now reply n) = s' at hr'
    -- The list is begun, and if it waits for its download, it gets the reply.
    have hbegun : (r'.beginList s'.source s'.disk now n).request = r.request :=
      (r'.loads_beginList _ _ _ _).request.trans hrequest
    have hbegins := CompileRun.begins_beginList hloaded (hrequest ▸ hn) s'.source s'.disk now
    exact ⟨_, get?_finishList (get?_changeRun hr' _) now n (reply n),
      (CompileRun.loads_finishList _ _ _ _ _ _).request.trans hbegun,
      CompileRun.loadedTo_finishList hbegins (hbegun ▸ hn) _ _ now (reply n)⟩

/-- The parts of a run are not its end. -/
theorem endings_of_parts {events : List Event} (h : ∀ event ∈ events, event.run? ≠ none) :
    s.endings events = [] := by
  induction events generalizing s with
  | nil => rfl
  | cons event events ih =>
    have hnone : s.ending? event = none := by
      cases event with
      | finishRun g => exact absurd rfl (h _ List.mem_cons_self)
      | _ => rfl
    rw [endings, hnone, ih fun event hmem => h event (List.mem_cons_of_mem _ hmem)]
    rfl

theorem run?_of_mem_toLoad {g n : Nat} {now : UInt64} {reply : Nat → FetchReply} {event : Event}
    (h : event ∈ toLoad g now reply n) : event.run? = some g := by
  induction n with
  | zero =>
    obtain rfl := List.mem_singleton.1 h
    rfl
  | succ n ih =>
    rcases List.mem_append.1 h with h | h
    · exact ih h
    · rcases List.mem_cons.1 h with rfl | h
      · rfl
      · obtain rfl := List.mem_singleton.1 h
        rfl

theorem run?_of_mem_compileParts {g n : Nat} {event : Event} (h : event ∈ compileParts g n) :
    event.run? = some g := by
  rw [List.eq_of_mem_replicate h]
  rfl

/-- The parts of a run in flight bring it to its end, whatever it has done before and
    whatever its downloads give. -/
theorem ended_toEnd (h : EveryRun CompileRun.IsWhole s) {g : Nat} {r : CompileRun}
    (hr : s.runs.get? g = some r) (now : UInt64) (reply : Nat → FetchReply) :
    s.ended (toEnd g r.request.lists.length r.request.maxShards now reply) = [g] := by
  obtain ⟨r', hr', hrequest, hloaded⟩ := loadedTo_toLoad h hr now reply (Nat.le_refl _)
  let parts := toLoad g now reply r.request.lists.length ++
    compileParts g (r.request.maxShards + 2)
  have hparts : s.endings parts = [] :=
    endings_of_parts fun event hmem => by
      rcases List.mem_append.1 hmem with hmem | hmem
      · rw [run?_of_mem_toLoad hmem]
        exact nofun
      · rw [run?_of_mem_compileParts hmem]
        exact nofun
  have hwhole := after_induction (P := EveryRun CompileRun.IsWhole)
    (fun _ => everyRun_step keptByRuns_isWhole) h
    (toLoad g now reply r.request.lists.length) g r' hr'
  obtain ⟨e, output, hdone⟩ := CompileRun.done_compile (hrequest ▸ hloaded) hwhole
    (s.after (toLoad g now reply r.request.lists.length)).store.engine
  rw [hrequest] at hdone
  obtain ⟨runs, hafter, hruns⟩ := after_compileParts hr' (r.request.maxShards + 2)
  have hending : (s.after parts).ending? (.finishRun g) = some ⟨g, output⟩ := by
    refine ending?_eq_some.2 ⟨rfl, ⟨r.request, .done output⟩, ?_, rfl⟩
    rw [after_append, hafter]
    exact (hruns g).trans (by rw [if_pos rfl, hdone])
  rw [ended, toEnd, endings_concat, hparts, hending]
  rfl

end Service

end ContentBlocking
