import ContentBlocking.Proofs.Statistics.CounterLimits
import ContentBlocking.Proofs.Statistics.RecentPages

/-!
# Counts after a restart

The file has the pages in the order of their last notices, and when it is opened they are
noticed again in that order. This gives back the last of them, as many as there is room for, in
the same order and with the same records. With as much room as before it gives back both parts
of the table, since these are in step. All other counts are read as they were written, but
for that of the session, which begins anew. So with as much room as before the counts go on as
if they had never been closed, and the same pages make room for others.

* `PageTable.row_ofPages`, `PageTable.InStep.ofPages_pages`: pages that are noticed again, one
  after the other;
* `PageTable.SamePages`: tables with the same pages in the same order;
* `Keeper.savesAll`: all that is to be written can be;
* `ofDisk_after`: the counts when their file is opened again;
* `counts_survive_restart`: what they are then, and what becomes of them.
-/

namespace ContentBlocking

/-! ### Pages that are noticed again -/

/-- One more item leaves room for one less of the others. -/
theorem tail_rtake_succ {α : Type} (items : List α) (n : Nat) :
    (if n + 1 ≤ (items.rtake (n + 1)).length then (items.rtake (n + 1)).tail
      else items.rtake (n + 1)) = items.rtake n := by
  have hlength : (items.rtake (n + 1)).length = min (n + 1) items.length := by
    rw [List.rtake, List.length_drop]
    omega
  rw [hlength]
  split
  · next hfull =>
    have hdrop : items.length - n = items.length - (n + 1) + 1 := by omega
    rw [List.rtake, List.rtake, List.tail_drop, hdrop]
  · next hroom =>
    rw [rtake_of_length_le (by omega), rtake_of_length_le (by omega)]

/-- Stored pages that are noticed one after the other, each once, are in the row with their
    records, as many of the last ones as there is room for. The induction is on the pages from
    the last one. -/
theorem PageRow.after_stored (capacity : Nat) {pages : List PageStats}
    (h : (pages.map (·.url)).Nodup) :
    (ofCapacity capacity).after (pages.map storedNotice) =
      ⟨max 1 capacity, pages.rtake (max 1 capacity)⟩ := by
  induction pages using List.reverseRecOn with
  | nil => rw [List.rtake_nil]; rfl
  | append_singleton pages page ih =>
    rw [List.map_append, List.nodup_append_comm, List.map_singleton, List.singleton_append,
      List.nodup_cons] at h
    obtain ⟨n, hn⟩ : ∃ n, max 1 capacity = n + 1 := ⟨max 1 capacity - 1, by omega⟩
    have hnew : get? ⟨max 1 capacity, pages.rtake (max 1 capacity)⟩ page.url = none := by
      refine Option.not_isSome_iff_eq_none.1 fun hknown => h.1 ?_
      have hsublist : (pages.rtake (max 1 capacity)).Sublist pages := List.drop_sublist _ _
      exact (hsublist.map _).mem (mem_urls_iff.2 hknown)
    have hothers : others ⟨max 1 capacity, pages.rtake (max 1 capacity)⟩ page.url =
        pages.rtake n := by
      rw [others, hnew, hn]
      exact tail_rtake_succ pages n
    rw [List.map_append, List.map_singleton, after_concat, ih h.2, notice]
    show PageRow.mk _ (others _ page.url ++ [page]) = _
    rw [hothers, hn, List.rtake_concat_succ]

namespace PageTable

variable {t t' : PageTable}

theorem row_ofPages (capacity : Nat) {pages : List PageStats}
    (h : (pages.map (·.url)).Nodup) :
    (ofPages capacity pages).row = ⟨max 1 capacity, pages.rtake (max 1 capacity)⟩ := by
  rw [ofPages_eq_after, row_after, PageRow.after_stored capacity h]

theorem inStep_ofPages (capacity : Nat) (pages : List PageStats) :
    (ofPages capacity pages).InStep :=
  ofPages_eq_after capacity pages ▸ inStep_after capacity _

/-- The row of a table gives back both of its parts, if there is as much room. -/
theorem InStep.ofPages_pages (h : t.InStep) {room : Nat} (hroom : t.capacity = max 1 room) :
    ofPages room t.pages = t := by
  have hlength : t.pages.length ≤ max 1 room := by
    rw [h.length_pages, ← hroom]
    exact h.length_le
  refine (inStep_ofPages room t.pages).eq_of_row_eq h ?_
  rw [row_ofPages room (h.map_url_pages ▸ h.nodup), rtake_of_length_le hlength, row, hroom]

/-- The noticed page takes its own place or a free one, or else that of the first. -/
theorem InStep.order_notice (h : t.InStep) (n : Notice) :
    (t.notice n.url n.change).order =
      (if n.url ∈ t.order then t.order.filter (· ≠ n.url)
        else if t.capacity ≤ t.order.length then t.order.tail else t.order) ++ [n.url] := by
  have hurls : t.row.urls = t.order := h.map_url_pages
  have hnoticed := PageRow.urls_notice t.row n
  rw [hurls, ← h.row_notice] at hnoticed
  exact (h.notice n.url_change).map_url_pages.symm.trans hnoticed

/-- The tables are in step, and they have as much room and the same pages in the same order,
    whatever the records of these are. -/
structure SamePages (t t' : PageTable) : Prop where
  inStep : t.InStep
  inStep' : t'.InStep
  capacity : t.capacity = t'.capacity
  order : t.order = t'.order

theorem SamePages.notice (h : SamePages t t') {n n' : Notice} (hurl : n.url = n'.url) :
    SamePages (t.notice n.url n.change) (t'.notice n'.url n'.change) where
  inStep := h.inStep.notice n.url_change
  inStep' := h.inStep'.notice n'.url_change
  capacity := by
    have hrow := congrArg PageRow.capacity (h.inStep.row_notice n.url n.change)
    have hrow' := congrArg PageRow.capacity (h.inStep'.row_notice n'.url n'.change)
    exact hrow.trans (h.capacity.trans hrow'.symm)
  order := by
    rw [h.inStep.order_notice, h.inStep'.order_notice, hurl, h.capacity, h.order]

theorem SamePages.has_eq (h : SamePages t t') (url : String) :
    t.entries.has url = t'.entries.has url := by
  rw [Bool.eq_iff_iff, ← h.inStep.mem_order_iff, ← h.inStep'.mem_order_iff, h.order]

end PageTable

/-! ### Edits that are all written -/

namespace Keeper

variable {σ ε α : Type} {k : Keeper σ ε α}

/-- All that is to be written while the store is edited can be. -/
def savesAll (k : Keeper σ ε α) (s : State σ) : List ε → Bool
  | [] => true
  | e :: edits =>
    (!k.saves e s.value || (s.disk.writeJson k.path (k.toJson (k.step s e).value)).2.isOk) &&
      k.savesAll (k.step s e) edits

/-- After the last edit, if that is to be written, its value is what was written last. -/
theorem written_of_savesAll {s : State σ} {edits : List ε} {e : ε}
    (hsaves : k.savesAll s (edits ++ [e]) = true)
    (he : k.saves e (edits.foldl k.step s).value = true) :
    ((edits ++ [e]).foldl k.step s).written = some ((edits ++ [e]).foldl k.step s).value := by
  induction edits generalizing s with
  | nil =>
    have he : k.saves e s.value = true := he
    have hwrites : (s.disk.writeJson k.path (k.toJson (k.step s e).value)).2.isOk = true := by
      simpa [savesAll, he] using hsaves
    show k.note (k.saves e s.value) (k.step s e).value s.disk s.written =
      some (k.step s e).value
    rw [note, he, hwrites]
    rfl
  | cons e' edits ih =>
    have hrest := (Bool.and_eq_true_iff.1 hsaves).2
    exact ih hrest he

end Keeper

/-! ### The file is opened again -/

namespace StatisticsTracker

open PageTable

variable {d : Disk} {path : String} {maxPages : Nat} {defaultBytes : UInt64}

/-- The counts begin with what the file has, and with a new session. -/
theorem ofDisk_of_stored {stored : Statistics}
    (h : d.readJson path Statistics.ofJson? = .ok (some stored)) (maxPages : Nat)
    (defaultBytes : UInt64) :
    ofDisk d path maxPages defaultBytes =
      { path := path, totalBlocked := stored.totalBlocked, totalRequests := stored.totalRequests
        bandwidthSavedBytes := stored.bandwidthSavedBytes, sessionBlocked := 0
        domains := stored.domains, pages := ofPages maxPages stored.pages
        defaultBytes := defaultBytes } := by
  rw [ofDisk, h]

/-- Where there is no file the counts begin with nothing. -/
theorem ofDisk_of_missing (h : d.read path = .error .missing) (maxPages : Nat)
    (defaultBytes : UInt64) :
    ofDisk d path maxPages defaultBytes =
      { path := path, totalBlocked := 0, totalRequests := 0, bandwidthSavedBytes := 0
        sessionBlocked := 0, domains := [], pages := ofCapacity maxPages
        defaultBytes := defaultBytes } := by
  have hnone : d.readJson path Statistics.ofJson? = .ok none := by rw [Disk.readJson, h]
  rw [ofDisk, hnone]
  rfl

/-- What is left of the counts when their file is opened again with other room for pages. -/
def reopened (t : StatisticsTracker) (maxPages : Nat) (defaultBytes : UInt64) :
    StatisticsTracker :=
  { t with
    sessionBlocked := 0
    pages := ofPages maxPages t.pages.pages
    defaultBytes := defaultBytes }

/-- The counts are opened where there is no file and edited, and all that can be written. Then
    their file gives them back. -/
theorem ofDisk_after (hmissing : d.read path = .error .missing) {edits : List Edit}
    (hsaves : (keeper path maxPages defaultBytes).savesAll
      ((keeper path maxPages defaultBytes).opened d) edits = true)
    (maxPages' : Nat) (defaultBytes' : UInt64) :
    let s := (keeper path maxPages defaultBytes).after d edits
    ofDisk s.disk path maxPages' defaultBytes' = s.value.reopened maxPages' defaultBytes' := by
  intro s
  rcases List.eq_nil_or_concat' edits with rfl | ⟨before, e, rfl⟩
  · -- Nothing was written, so there is no file yet.
    have hvalue : s.value = ofDisk d path maxPages defaultBytes := rfl
    have hdisk : s.disk = d := rfl
    rw [hdisk, hvalue, ofDisk_of_missing hmissing, ofDisk_of_missing hmissing]
    rfl
  · have hwritten : s.written = some s.value := Keeper.written_of_savesAll hsaves rfl
    have hlawful := isLawful_keeper path maxPages defaultBytes
    obtain ⟨hgood, hread⟩ := (Keeper.holds_after hlawful d (before ++ [e])).2.written _ hwritten
    have hstored : s.disk.readJson path Statistics.ofJson? = .ok (some s.value.snapshot) :=
      Disk.readJson_of_read hread s.value.snapshot.isPlain_toJson
        (Statistics.ofJson?_toJson hgood.domains)
    rw [ofDisk_of_stored hstored, reopened, hgood.path]
    rfl

/-! ### Pages that make room -/

theorem pages_count (t : StatisticsTracker) (e : Edit) :
    (t.count e).pages = t.pages.after (e.notice? t.defaultBytes).toList := by
  rw [← edit_fst t {} e, pages_edit]

variable {t t' : StatisticsTracker}

/-- Which page is noticed does not depend on the size of a request. -/
theorem samePages_count (h : SamePages t.pages t'.pages) (e : Edit) :
    SamePages (t.count e).pages (t'.count e).pages := by
  rw [pages_count, pages_count]
  rcases e with _ | ⟨url, _ | page, size⟩ | url | _
  · exact h
  · exact h
  · exact h.notice rfl
  · exact h.notice rfl
  · exact h

theorem samePages_foldl_count (h : SamePages t.pages t'.pages) (edits : List Edit) :
    SamePages (edits.foldl count t).pages (edits.foldl count t').pages := by
  induction edits generalizing t t' with
  | nil => exact h
  | cons e edits ih => exact ih (samePages_count h e)

/-- The pages that lose their records with an edit, edit by edit. -/
def evictions (k : Keeper StatisticsTracker Edit Statistics) (s : Keeper.State StatisticsTracker) :
    List Edit → List (List String)
  | [] => []
  | e :: edits =>
    s.value.pages.order.filter (fun url => !(k.step s e).value.pages.entries.has url) ::
      evictions k (k.step s e) edits

theorem evictions_congr {s s' : Keeper.State StatisticsTracker}
    (h : SamePages s.value.pages s'.value.pages) (maxPages' : Nat) (defaultBytes' : UInt64)
    (edits : List Edit) :
    evictions (keeper path maxPages' defaultBytes') s edits =
      evictions (keeper path maxPages defaultBytes) s' edits := by
  induction edits generalizing s s' with
  | nil => rfl
  | cons e edits ih =>
    have hnext : SamePages ((keeper path maxPages' defaultBytes').step s e).value.pages
        ((keeper path maxPages defaultBytes).step s' e).value.pages := by
      show SamePages (s.value.edit s.disk e).1.pages (s'.value.edit s'.disk e).1.pages
      rw [edit_fst, edit_fst]
      exact samePages_count h e
    rw [evictions, evictions, ih hnext, h.order]
    simp only [hnext.has_eq]

/-! ### Counts that go on -/

/-- The count of the session makes no difference to the others. -/
theorem exists_foldl_count (t : StatisticsTracker) (session : UInt64) (edits : List Edit) :
    ∃ session', edits.foldl count { t with sessionBlocked := session } =
      { edits.foldl count t with sessionBlocked := session' } := by
  induction edits generalizing t session with
  | nil => exact ⟨session, rfl⟩
  | cons e edits ih =>
    have hcount : ∃ session', ({ t with sessionBlocked := session } : StatisticsTracker).count e =
        { t.count e with sessionBlocked := session' } := by
      cases e with
      | request | pageLoad url => exact ⟨session, rfl⟩
      | blocked url page size => exact ⟨session + 1, rfl⟩
      | resetSession => exact ⟨0, rfl⟩
    obtain ⟨session', hcount⟩ := hcount
    rw [List.foldl_cons, List.foldl_cons, hcount]
    exact ih _ session'

/-- The two parts of the table of pages are in step, with the room that was asked for. -/
theorem pages_inStep (d : Disk) (path : String) (maxPages : Nat) (defaultBytes : UInt64)
    (edits : List Edit) :
    let t := ((keeper path maxPages defaultBytes).after d edits).value
    t.pages.InStep ∧ t.pages.capacity = max 1 maxPages := by
  intro t
  have hpages : t.pages = (ofCapacity maxPages).after (noticesSince d path defaultBytes edits) :=
    pages_after d path maxPages defaultBytes edits
  have hcapacity := congrArg PageRow.capacity
    (row_after maxPages (noticesSince d path defaultBytes edits))
  rw [PageRow.capacity_after] at hcapacity
  rw [hpages]
  exact ⟨inStep_after maxPages _, hcapacity⟩

/-- With as much room as before all pages are still there. -/
theorem reopened_after (d : Disk) (path : String) (maxPages : Nat) (defaultBytes : UInt64)
    (edits : List Edit) (defaultBytes' : UInt64) :
    let t := ((keeper path maxPages defaultBytes).after d edits).value
    t.reopened maxPages defaultBytes' =
      { t with sessionBlocked := 0, defaultBytes := defaultBytes' } := by
  intro t
  obtain ⟨hstep, hcapacity⟩ := pages_inStep d path maxPages defaultBytes edits
  have hpages : ofPages maxPages t.pages.pages = t.pages := hstep.ofPages_pages hcapacity
  rw [reopened, hpages]

theorem value_after_append (d : Disk) (path : String) (maxPages : Nat) (defaultBytes : UInt64)
    (edits later : List Edit) :
    ((keeper path maxPages defaultBytes).after d (edits ++ later)).value =
      later.foldl count ((keeper path maxPages defaultBytes).after d edits).value := by
  rw [value_after, value_after, List.foldl_append]

/-- The counts are opened where there is no file and edited, and all that can be written. When
    their file is opened again, with any room for pages, the session begins at zero and the last
    pages are there, as many as there is room for, in the same order and with the same records;
    all other counts are as before. With as much room as before no page is missing. Then later
    edits, whatever they are, leave the same pages and take away the same ones as if the file had
    not been opened again, and with the same size of unknown requests all counts but that of the
    session go on to be the same. -/
theorem counts_survive_restart (hmissing : d.read path = .error .missing) {edits : List Edit}
    (hsaves : (keeper path maxPages defaultBytes).savesAll
      ((keeper path maxPages defaultBytes).opened d) edits = true) :
    let k := keeper path maxPages defaultBytes
    let s := k.after d edits
    (∀ maxPages' defaultBytes', (ofDisk s.disk path maxPages' defaultBytes').snapshot =
      { s.value.snapshot with
        sessionBlocked := 0
        pages := s.value.snapshot.pages.rtake (max 1 maxPages') }) ∧
    (∀ defaultBytes', (ofDisk s.disk path maxPages defaultBytes').snapshot =
      { s.value.snapshot with sessionBlocked := 0 }) ∧
    (∀ defaultBytes' later,
      let k' := keeper path maxPages defaultBytes'
      evictions k' (k'.opened s.disk) later = evictions k s later ∧
      (k'.after s.disk later).value.snapshot.pages.map (·.url) =
        (k.after d (edits ++ later)).value.snapshot.pages.map (·.url)) ∧
    ∀ later, ∃ session, (k.after s.disk later).value.snapshot =
      { (k.after d (edits ++ later)).value.snapshot with sessionBlocked := session } := by
  intro k s
  have hopened (maxPages' : Nat) (defaultBytes' : UInt64) :
      ofDisk s.disk path maxPages' defaultBytes' = s.value.reopened maxPages' defaultBytes' :=
    ofDisk_after hmissing hsaves maxPages' defaultBytes'
  have hsame (defaultBytes' : UInt64) : ofDisk s.disk path maxPages defaultBytes' =
      { s.value with sessionBlocked := 0, defaultBytes := defaultBytes' } :=
    (hopened maxPages defaultBytes').trans
      (reopened_after d path maxPages defaultBytes edits defaultBytes')
  have hcontinued : ofDisk s.disk path maxPages defaultBytes =
      { s.value with sessionBlocked := 0 } := by
    have hdefault : s.value.defaultBytes = defaultBytes := by
      rw [value_after, defaultBytes_foldl_count]
      rfl
    rw [hsame]
    exact congrArg (fun bytes => { s.value with sessionBlocked := 0, defaultBytes := bytes })
      hdefault.symm
  have hstep : s.value.pages.InStep := (pages_inStep d path maxPages defaultBytes edits).1
  have hpages (defaultBytes' : UInt64) :
      SamePages (ofDisk s.disk path maxPages defaultBytes').pages s.value.pages :=
    hsame defaultBytes' ▸ ⟨hstep, hstep, rfl, rfl⟩
  refine ⟨fun maxPages' defaultBytes' => ?_, fun defaultBytes' => ?_,
    fun defaultBytes' later => ⟨?_, ?_⟩, fun later => ?_⟩
  · have hrow := row_ofPages maxPages' (hstep.map_url_pages ▸ hstep.nodup)
    rw [hopened]
    exact congrArg (fun pages => { s.value.snapshot with sessionBlocked := 0, pages := pages })
      (congrArg PageRow.pages hrow)
  · rw [hsame]
    rfl
  · exact evictions_congr (hpages defaultBytes') maxPages defaultBytes' later
  · rw [value_after, value_after_append]
    have hlater := samePages_foldl_count (hpages defaultBytes') later
    exact hlater.inStep.map_url_pages.trans
      (hlater.order.trans hlater.inStep'.map_url_pages.symm)
  · rw [value_after, value_after_append, hcontinued]
    obtain ⟨session, hlater⟩ := exists_foldl_count s.value 0 later
    exact ⟨session, congrArg snapshot hlater⟩

/-- Two pages are in the file, one of them with a name that has to be escaped there. With room
    for one of them the one that was noticed last is left, and with room for both the other one
    makes room for the next page. -/
theorem counts_survive_restart_twoPages :
    let k := keeper "statistics.json" 2 20
    let edits : List Edit := [.pageLoad "a", .blocked "https://ads.net/" (some "b\"\n") none,
      .request, .blocked "https://ads.net/" (some "a") (some 7)]
    let s := k.after {} edits
    ({} : Disk).read "statistics.json" = .error .missing ∧
      k.savesAll (k.opened {}) edits = true ∧
      (ofDisk s.disk "statistics.json" 1 20).snapshot =
        ⟨2, 1, 27, 0, [("ads.net", 2)], [⟨"a", 1, 7⟩]⟩ ∧
      (ofDisk s.disk "statistics.json" 2 5).snapshot =
        ⟨2, 1, 27, 0, [("ads.net", 2)], [⟨"b\"\n", 1, 20⟩, ⟨"a", 1, 7⟩]⟩ ∧
      evictions k (k.opened s.disk) [.request, .pageLoad "c"] = [[], ["b\"\n"]] := by
  intro k edits s
  have hmissing : ({} : Disk).read "statistics.json" = .error .missing := by decide +kernel
  have hsaves : k.savesAll (k.opened {}) edits = true := by decide +kernel
  obtain ⟨hless, hsame, hlater, -⟩ := counts_survive_restart hmissing hsaves
  have hvalue : s.value.snapshot =
      ⟨2, 1, 27, 2, [("ads.net", 2)], [⟨"b\"\n", 1, 20⟩, ⟨"a", 1, 7⟩]⟩ := by decide +kernel
  have hevictions : evictions k s [.request, .pageLoad "c"] = [[], ["b\"\n"]] := by decide +kernel
  refine ⟨hmissing, hsaves, (hless 1 20).trans ?_, (hsame 5).trans ?_,
    (hlater 20 _).1.trans hevictions⟩
  · rw [hvalue]
    rfl
  · rw [hvalue]

end StatisticsTracker

end ContentBlocking
