import ContentBlocking.Proofs.CompileRun
import ContentBlocking.Proofs.Except
import ContentBlocking.Proofs.FilterList.NewestCopies

/-!
# Downloads of a run

A run downloads a list or serves a copy from the cache, and puts down the times of its
downloads. No other part of a run makes a download, and what is put down in the end are
the times at which the lists were downloaded.

* `CompileRun.downloadedAt`: the times of the downloads that a run has made;
* `CompileRun.DownloadsAt`: what all of them have in common;
* `DownloadsAt.looksUp`, `downloadsAt_beginList`, `downloadsAt_finishList`,
  `DownloadsAt.compiles`: every part of a run keeps that.
-/

namespace ContentBlocking

/-- The time at which the list was downloaded, if it was. -/
def ListStage.downloadedAt? : ListStage → Option UInt64
  | .loaded (.ok list) => if list.fromCache then none else some list.timestamp
  | _ => none

namespace CompileRun

/-- The times of the downloads that the run has made, unless it has failed. -/
def downloadedAt (r : CompileRun) : List UInt64 :=
  match r.stage with
  | .loading stages => stages.filterMap ListStage.downloadedAt?
  | _ => (r.output?.map fun output => output.refreshed.map (·.2)).getD []

/-- The run downloads each list once, and falls back on nothing but copies from the cache.
    All times of its downloads have the property. -/
structure DownloadsAt (P : UInt64 → Prop) (r : CompileRun) : Prop where
  lists : (r.request.lists.map (·.id)).Nodup
  copies : ∀ stages, r.stage = .loading stages →
    ∀ copy, .fetching (some copy) ∈ stages → copy.fromCache = true
  once : ∀ output, r.output? = some output → (output.refreshed.map (·.1)).Nodup
  times : ∀ t ∈ r.downloadedAt, P t

variable {P P' : UInt64 → Prop} {r r' : CompileRun}

theorem DownloadsAt.imp (h : r.DownloadsAt P) (hP : ∀ t ∈ r.downloadedAt, P t → P' t) :
    r.DownloadsAt P' := { h with times := fun t ht => hP t ht (h.times t ht) }

theorem downloadsAt_waiting {request : RunRequest} (h : (request.lists.map (·.id)).Nodup) :
    DownloadsAt P ⟨request, .waiting⟩ := ⟨h, nofun, nofun, nofun⟩

theorem downloadsAt_failed {request : RunRequest} (h : (request.lists.map (·.id)).Nodup)
    (e : Failure) : DownloadsAt P ⟨request, .done (.error e)⟩ := ⟨h, nofun, nofun, nofun⟩

theorem downloadedAt_of_output? {output : RunOutput} (h : r.output? = some output) :
    r.downloadedAt = output.refreshed.map (·.2) := by
  obtain ⟨request, stage⟩ := r
  cases stage with
  | loading stages => cases h
  | _ =>
    rw [downloadedAt]
    dsimp only
    rw [h]
    rfl

theorem downloadsAt_of_output? (h : (r.request.lists.map (·.id)).Nodup) {output : RunOutput}
    (houtput : r.output? = some output) (honce : (output.refreshed.map (·.1)).Nodup)
    (htimes : ∀ x ∈ output.refreshed, P x.2) : r.DownloadsAt P where
  lists := h
  copies stages hstages := by
    rw [output?, hstages] at houtput
    cases houtput
  once output' houtput' := by
    obtain rfl := Option.some.inj (houtput.symm.trans houtput')
    exact honce
  times := by
    rw [downloadedAt_of_output? houtput]
    exact List.forall_mem_map.2 htimes

theorem DownloadsAt.of_output? (h : r.DownloadsAt P) {output : RunOutput}
    (houtput : r.output? = some output) : ∀ x ∈ output.refreshed, P x.2 :=
  List.forall_mem_map.1 (downloadedAt_of_output? houtput ▸ h.times)

/-- A run that has begun no list yet has made no download. -/
theorem downloadsAt_begun {request : RunRequest} (h : (request.lists.map (·.id)).Nodup) :
    DownloadsAt P ⟨request, .loading (request.lists.map fun _ => .waiting)⟩ where
  lists := h
  copies stages hstages copy hcopy := by
    obtain rfl := RunStage.loading.inj hstages
    obtain ⟨list, -, hwaiting⟩ := List.mem_map.1 hcopy
    cases hwaiting
  once := nofun
  times t ht := by
    obtain ⟨stage, hwaiting, hat⟩ := List.mem_filterMap.1 ht
    obtain ⟨list, -, rfl⟩ := List.mem_map.1 hwaiting
    cases hat

theorem DownloadsAt.looksUp {e : Engine} (hd : r.DownloadsAt P) (h : r.LooksUp e r') :
    r'.DownloadsAt P := by
  cases h with
  | stays going => exact hd
  | finds waiting reuse found =>
    exact downloadsAt_of_output? hd.lists rfl List.nodup_nil (List.forall_mem_nil _)
  | begins waiting => exact downloadsAt_begun hd.lists

/-- A list of the run goes on, and does not fall back on anything but a copy from the
    cache. -/
theorem DownloadsAt.set {request : RunRequest} {stages : List ListStage}
    (h : DownloadsAt P ⟨request, .loading stages⟩) (i : Nat) {stage : ListStage}
    (hcopy : ∀ copy, stage = .fetching (some copy) → copy.fromCache = true)
    (htime : ∀ t ∈ stage.downloadedAt?, P t) :
    DownloadsAt P ⟨request, .loading (stages.set i stage)⟩ where
  lists := h.lists
  copies stages' hstages copy hmem := by
    obtain rfl := RunStage.loading.inj hstages
    rcases List.mem_or_eq_of_mem_set hmem with hmem | hstage
    · exact h.copies stages rfl copy hmem
    · exact hcopy copy hstage.symm
  once := nofun
  times t ht := by
    obtain ⟨stage', hmem, hat⟩ := List.mem_filterMap.1 ht
    rcases List.mem_or_eq_of_mem_set hmem with hmem | rfl
    · exact h.times t (List.mem_filterMap.2 ⟨stage', hmem, hat⟩)
    · exact htime t hat

theorem DownloadsAt.load {request : RunRequest} {stages : List ListStage}
    (h : DownloadsAt P ⟨request, .loading stages⟩) (i : Nat) {result : ListResult}
    (htime : ∀ t ∈ (ListStage.loaded result).downloadedAt?, P t) :
    DownloadsAt P ⟨request, .loading (stages.set i (.loaded result))⟩ := h.set i nofun htime

theorem DownloadsAt.fetch {request : RunRequest} {stages : List ListStage}
    (h : DownloadsAt P ⟨request, .loading stages⟩) (i : Nat) {copy? : Option FetchedList}
    (hcopy : ∀ copy, copy? = some copy → copy.fromCache = true) :
    DownloadsAt P ⟨request, .loading (stages.set i (.fetching copy?))⟩ :=
  h.set i (fun copy hstage => hcopy copy (ListStage.fetching.inj hstage)) nofun

theorem fromCache_of_cached {source : ListSource} {d : Disk} {id : String} {copy : FetchedList}
    (h : source.cached d id = some copy) : copy.fromCache = true := by
  rw [ListSource.cached] at h
  split at h
  · obtain ⟨time, -, rfl⟩ := Option.map_eq_some_iff.1 h
    rfl
  · cases h

theorem downloadsAt_beginList (h : r.DownloadsAt P) (source : ListSource) (d : Disk)
    (now : UInt64) (i : Nat) : (r.beginList source d now i).DownloadsAt P := by
  obtain ⟨request, stage⟩ := r
  rw [beginList]
  split
  · next stages list hstage hlist =>
    dsimp only at hstage
    subst hstage
    split
    · rcases source.begin_cases d now request.refresh list.id with ⟨copy, hcopy, hbegin⟩ | hbegin
      · rw [hbegin]
        refine h.load i fun t ht => ?_
        simp [ListStage.downloadedAt?, fromCache_of_cached hcopy] at ht
      · rw [hbegin]
        exact h.fetch i fun copy => fromCache_of_cached
    · exact h
  · exact h

/-- A list is downloaded now, or not at all. -/
theorem downloadsAt_finishList (h : r.DownloadsAt P) (source : ListSource) (d : Disk)
    {now : UInt64} (hnow : P now) (i : Nat) (reply : FetchReply) :
    (r.finishList source d now i reply).2.DownloadsAt P := by
  obtain ⟨request, stage⟩ := r
  rw [finishList]
  split
  · next stages list hstage hlist =>
    dsimp only at hstage
    subst hstage
    split
    · next copy hcopy =>
      refine h.load i fun t ht => ?_
      cases reply with
      | ok text =>
        obtain rfl := Option.some.inj ht
        exact hnow
      | error e =>
        cases copy with
        | none => cases ht
        | some copy =>
          have hcached := h.copies stages rfl copy (List.mem_of_getElem? hcopy)
          simp [ListSource.finish, ListStage.downloadedAt?, hcached] at ht
    · exact h
  · exact h

theorem loaded_mem_of_results? {stages : List ListStage} {results : List ListResult}
    (h : results? stages = some results) {result : ListResult} (hmem : result ∈ results) :
    .loaded result ∈ stages := by
  rw [results?] at h
  induction stages generalizing results with
  | nil =>
    obtain rfl := Option.some.inj h
    cases hmem
  | cons stage stages ih =>
    rw [List.mapM_cons] at h
    obtain ⟨first, hfirst, h⟩ := Option.bind_eq_some_iff.1 h
    obtain ⟨rest, hrest, h⟩ := Option.bind_eq_some_iff.1 h
    obtain rfl := Option.some.inj h
    rcases List.mem_cons.1 hmem with rfl | hmem
    · cases stage with
      | loaded result =>
        obtain rfl := Option.some.inj hfirst
        exact List.mem_cons_self
      | _ => cases hfirst
    · exact List.mem_cons_of_mem _ (ih hrest hmem)

/-- What is noted of the results of the lists is when they were downloaded. -/
theorem downloadedAt?_of_mem_refreshed {request : RunRequest} {results : List ListResult}
    {x : String × UInt64} (h : x ∈ request.refreshed results) :
    ∃ result ∈ results, (ListStage.loaded result).downloadedAt? = some x.2 := by
  obtain ⟨⟨list, result⟩, hmem, hx⟩ := List.mem_filterMap.1 h
  refine ⟨result, (List.of_mem_zip hmem).2, ?_⟩
  cases result with
  | error e => cases hx
  | ok fetched =>
    dsimp only at hx
    split at hx
    · cases hx
    · next hfresh =>
      obtain rfl := Option.some.inj hx
      exact if_neg hfresh

theorem ids_refreshed_sublist (request : RunRequest) (results : List ListResult) :
    ((request.refreshed results).map (·.1)).Sublist (request.lists.map (·.id)) := by
  rw [RunRequest.refreshed]
  induction request.lists generalizing results with
  | nil => exact .slnil
  | cons list lists ih =>
    cases results with
    | nil => exact List.nil_sublist _
    | cons result results =>
      rw [List.zip_cons_cons, List.filterMap_cons]
      split
      · exact (ih results).cons _
      · next x hx =>
        have hid : x.1 = list.id := by
          cases result with
          | error e => cases hx
          | ok fetched =>
            dsimp only at hx
            split at hx
            · cases hx
            · exact (Option.some.inj hx) ▸ rfl
        rw [List.map_cons, List.map_cons, hid]
        exact (ih results).cons_cons _

theorem DownloadsAt.compiles {e e' : Engine} (hd : r.DownloadsAt P) (h : r.Compiles e e' r') :
    r'.DownloadsAt P := by
  obtain ⟨request, stage⟩ := r
  cases h with
  | stays => exact hd
  | @plans results loaded =>
    cases stage with
    | loading stages =>
      refine downloadsAt_of_output? hd.lists rfl ?_ fun x hx => ?_
      · exact hd.lists.sublist (ids_refreshed_sublist request results)
      · obtain ⟨result, hresult, htime⟩ := downloadedAt?_of_mem_refreshed hx
        have hmem := loaded_mem_of_results? loaded hresult
        exact hd.times x.2 (List.mem_filterMap.2 ⟨_, hmem, htime⟩)
    | _ => cases loaded
  | @shard index shard left output next e' result compile =>
    obtain rfl : stage = .compiling index (shard :: left) output := next
    have htimes : ∀ x ∈ output.refreshed, P x.2 := hd.of_output? rfl
    exact downloadsAt_of_output? hd.lists rfl (hd.once output rfl) htimes
  | @completes index output last e' result completes =>
    obtain rfl : stage = .compiling index [] output := last
    have htimes : ∀ x ∈ output.refreshed, P x.2 := hd.of_output? rfl
    cases completes with
    | fails none compile => exact downloadsAt_failed hd.lists _
    | _ => exact downloadsAt_of_output? hd.lists rfl (hd.once output rfl) htimes

end CompileRun

end ContentBlocking
