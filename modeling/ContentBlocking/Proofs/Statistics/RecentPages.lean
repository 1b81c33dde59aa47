import ContentBlocking.Proofs.KeptFiles
import ContentBlocking.Proofs.Statistics.PageOrder
import Mathlib.Data.List.Dedup
import Mathlib.Data.List.DropRight

/-!
# The pages that were noticed last

A page is noticed when it is read from the file, when a request on it is blocked and when it is
loaded. The table has the pages that were noticed last, in the order of their last notice, as
many as there is room for. So a page that other ones follow is still there if there are fewer
of these than there is room for. Its record is then what its last notice has made of it: of the
record that was there before, or of a new one if it had been lost in the meantime.

The records and their order are kept apart. What is said here is shown of one row of records
first, and then of both parts, which stay in step.

* `lastDistinct`: the last items, each in its last place;
* `Notice`, `PageRow.after`, `PageTable.after`: notices, and a row or a table after them;
* `PageRow.urls_after`: the pages of a row;
* `PageRow.get?_after`: the record of a page;
* `PageTable.InStep.after`: the two parts of a table;
* `StatisticsTracker.pages_are_recent`: the pages of the counts, after any edits.
-/

namespace ContentBlocking

/-! ### The last items -/

section

variable {α : Type} {a : α} {items rest : List α} {n : Nat}

theorem rtake_append_of_length_eq {front back : List α} (h : back.length = n) :
    (front ++ back).rtake n = back := by
  rw [List.rtake, List.length_append, h, Nat.add_sub_cancel, List.drop_left]

theorem rtake_append_of_length_eq_succ {front back : List α} (h : back.length = n + 1) :
    (front ++ back).rtake n = back.tail := by
  have hdrop : front.length + (n + 1) - n = front.length + 1 := by omega
  rw [List.rtake, List.length_append, h, hdrop, List.drop_append, List.drop_of_length_le (by omega),
    List.nil_append, Nat.add_sub_cancel_left, List.drop_one]

theorem rtake_of_length_le (h : items.length ≤ n) : items.rtake n = items := by
  rw [List.rtake, Nat.sub_eq_zero_of_le h, List.drop_zero]

variable [DecidableEq α]

/-- The last `n` different items in the order in which they come last. -/
def lastDistinct (n : Nat) (items : List α) : List α := items.dedup.rtake n

theorem nodup_lastDistinct (n : Nat) (items : List α) : (lastDistinct n items).Nodup :=
  (List.nodup_dedup items).sublist (List.drop_sublist _ _)

/-- An item at the end is taken there, and not where it was before. -/
theorem dedup_concat (items : List α) (a : α) :
    (items ++ [a]).dedup = items.dedup.filter (· ≠ a) ++ [a] := by
  induction items with
  | nil => rfl
  | cons b items ih =>
    rw [List.cons_append]
    by_cases hmem : b ∈ items
    · rw [List.dedup_cons_of_mem (List.mem_append_left _ hmem), List.dedup_cons_of_mem hmem, ih]
    · rw [List.dedup_cons_of_notMem hmem]
      by_cases hb : b = a
      · have hlast : b ∈ items ++ [a] := by simp [hb]
        rw [List.dedup_cons_of_mem hlast, ih, List.filter_cons_of_neg (by simp [hb])]
      · have hnew : b ∉ items ++ [a] := by simp [hmem, hb]
        rw [List.dedup_cons_of_notMem hnew, ih, List.filter_cons_of_pos (by simp [hb]),
          List.cons_append]

theorem length_filter_ne (hnodup : items.Nodup) (hmem : a ∈ items) :
    (items.filter (· ≠ a)).length + 1 = items.length := by
  have herase : items.filter (· ≠ a) = items.erase a := by
    rw [hnodup.erase_eq_filter]
    exact List.filter_congr fun b _ => by by_cases h : b = a <;> simp [h]
  rw [herase, List.length_erase_add_one hmem]

theorem filter_ne_eq_self (hmem : a ∉ items) : items.filter (· ≠ a) = items :=
  List.filter_eq_self.2 fun _ hb => decide_eq_true fun h => hmem (h ▸ hb)

/-- What is not among the last items is in front of them, and only if there are `n` of these. -/
theorem exists_append_lastDistinct (n : Nat) (items : List α) :
    ∃ front, items.dedup = front ++ lastDistinct n items ∧
      (lastDistinct n items).length ≤ n ∧ (front = [] ∨ (lastDistinct n items).length = n) := by
  refine ⟨items.dedup.take (items.dedup.length - n), (List.take_append_drop _ _).symm, ?_, ?_⟩
  · rw [lastDistinct, List.rtake, List.length_drop]
    omega
  · rw [List.take_eq_nil_iff, lastDistinct, List.rtake, List.length_drop]
    omega

/-- One more item takes its own place or a free one, or else that of the first. -/
theorem lastDistinct_concat (hn : 0 < n) (items : List α) (a : α) :
    lastDistinct n (items ++ [a]) =
      (if a ∈ lastDistinct n items then (lastDistinct n items).filter (· ≠ a)
        else if n ≤ (lastDistinct n items).length then (lastDistinct n items).tail
        else lastDistinct n items) ++ [a] := by
  obtain ⟨n, rfl⟩ : ∃ m, n = m + 1 := ⟨_, (Nat.succ_pred_eq_of_pos hn).symm⟩
  obtain ⟨front, hsplit, hle, hfull⟩ := exists_append_lastDistinct (n + 1) items
  have hnodup := nodup_lastDistinct (n + 1) items
  rw [lastDistinct, dedup_concat, List.rtake_concat_succ, hsplit, List.filter_append]
  generalize lastDistinct (n + 1) items = last at hle hfull hnodup
  refine congrArg (· ++ [a]) ?_
  by_cases hmem : a ∈ last
  · have hlength := length_filter_ne hnodup hmem
    rw [if_pos hmem]
    rcases hfull with rfl | hfull
    · rw [List.filter_nil, List.nil_append]
      exact rtake_of_length_le (by omega)
    · exact rtake_append_of_length_eq (by omega)
  · rw [if_neg hmem, filter_ne_eq_self hmem]
    split
    · exact rtake_append_of_length_eq_succ (by omega)
    · rcases hfull with rfl | hfull
      · rw [List.filter_nil, List.nil_append]
        exact rtake_of_length_le (by omega)
      · omega

/-- An item is among the last ones if fewer than `n` different items follow it. -/
theorem mem_lastDistinct_iff (hrest : a ∉ rest) :
    a ∈ lastDistinct n (items ++ a :: rest) ↔ rest.dedup.length < n := by
  obtain ⟨front, hfront⟩ : a :: rest.dedup <:+ (items ++ a :: rest).dedup := by
    rw [List.dedup_append, List.dedup_cons_of_notMem hrest]
    exact List.suffix_union_right _ _
  have hlength : (front ++ a :: rest.dedup).length = front.length + (rest.dedup.length + 1) := by
    rw [List.length_append, List.length_cons]
  rw [lastDistinct, ← hfront, List.rtake, hlength]
  by_cases hfew : rest.dedup.length < n
  · rw [List.drop_append_of_le_length (by omega)]
    exact iff_of_true (List.mem_append_right _ List.mem_cons_self) hfew
  · -- What is taken begins behind it.
    have hdrop : front.length + (rest.dedup.length + 1) - n =
        front.length + (rest.dedup.length - n + 1) := by
      omega
    rw [hdrop, List.drop_append, List.drop_of_length_le (by omega), List.nil_append,
      Nat.add_sub_cancel_left, List.drop_succ_cons]
    exact iff_of_false (fun hmem => hrest (List.mem_dedup.1 (List.mem_of_mem_drop hmem))) hfew

end

/-! ### Notices -/

/-- A page is noticed, and its record changed. It stays the record of that page. -/
structure Notice where
  url : String
  change : PageStats → PageStats
  url_change : ∀ p, p.url = url → (change p).url = url

/-- The record that a notice makes of the one that was there, or of a new one. -/
def Notice.renew (n : Notice) (old : Option PageStats) : PageStats :=
  n.change (old.getD { url := n.url })

namespace PageRow

/-- The row after notices. -/
def after (r : PageRow) (notices : List Notice) : PageRow :=
  notices.foldl (fun r n => r.notice n.url n.change) r

/-- The pages of the row. -/
def urls (r : PageRow) : List String := r.pages.map (·.url)

variable {capacity : Nat} {r : PageRow} {n : Notice} {before notices : List Notice}
  {url : String} {p : PageStats}

theorem after_concat (r : PageRow) (notices : List Notice) (n : Notice) :
    r.after (notices ++ [n]) = (r.after notices).notice n.url n.change := by
  rw [after, List.foldl_append]
  rfl

theorem after_append (r : PageRow) (before notices : List Notice) :
    r.after (before ++ notices) = (r.after before).after notices := List.foldl_append

theorem after_cons (r : PageRow) (n : Notice) (notices : List Notice) :
    r.after (n :: notices) = (r.notice n.url n.change).after notices := rfl

theorem mem_urls_iff : url ∈ r.urls ↔ (r.get? url).isSome = true := by
  simp [urls, get?, List.find?_isSome]

theorem url_of_get? (h : r.get? url = some p) : p.url = url := by
  simpa using List.find?_some h

theorem url_renew (n : Notice) (r : PageRow) : (n.renew (r.get? n.url)).url = n.url := by
  refine n.url_change _ ?_
  cases h : r.get? n.url with
  | none => rfl
  | some p => exact url_of_get? h

/-! ### One notice -/

theorem pages_notice (r : PageRow) (n : Notice) :
    (r.notice n.url n.change).pages = r.others n.url ++ [n.renew (r.get? n.url)] := rfl

/-- The noticed page takes its own place or a free one, or else that of the first. -/
theorem urls_notice (r : PageRow) (n : Notice) :
    (r.notice n.url n.change).urls =
      (if n.url ∈ r.urls then r.urls.filter (· ≠ n.url)
        else if r.capacity ≤ r.urls.length then r.urls.tail else r.urls) ++ [n.url] := by
  rw [urls, pages_notice, List.map_append, List.map_singleton, url_renew, others]
  refine congrArg (· ++ [n.url]) ?_
  simp only [mem_urls_iff]
  rw [urls, List.length_map]
  split
  · rw [List.filter_map]
    rfl
  · split
    · exact List.map_tail
    · rfl

theorem others_sublist (r : PageRow) (url : String) : (r.others url).Sublist r.pages := by
  rw [others]
  split
  · exact List.filter_sublist
  · split
    · exact List.tail_sublist _
    · exact List.Sublist.refl _

/-- Every page is in the row once. -/
def HasNoDoubles (r : PageRow) : Prop := r.urls.Nodup

theorem HasNoDoubles.notice (h : r.HasNoDoubles) (n : Notice) :
    (r.notice n.url n.change).HasNoDoubles := by
  rw [HasNoDoubles, urls_notice, List.nodup_append_comm, List.singleton_append, List.nodup_cons]
  split
  · exact ⟨by simp, h.filter _⟩
  · next hnew =>
    split
    · exact ⟨fun hmem => hnew (List.mem_of_mem_tail hmem), h.sublist (List.tail_sublist _)⟩
    · exact ⟨hnew, h⟩

theorem HasNoDoubles.get?_eq_some_iff (h : r.HasNoDoubles) :
    r.get? url = some p ↔ p ∈ r.pages ∧ p.url = url := by
  refine ⟨fun hp => ⟨List.mem_of_find?_eq_some hp, url_of_get? hp⟩, ?_⟩
  rintro ⟨hmem, rfl⟩
  obtain ⟨q, hq⟩ := Option.isSome_iff_exists.1 (mem_urls_iff.1 (List.mem_map_of_mem hmem))
  rw [hq, List.inj_on_of_nodup_map h (List.mem_of_find?_eq_some hq) hmem (url_of_get? hq)]

/-- The record of the noticed page is renewed. -/
theorem HasNoDoubles.get?_notice (h : r.HasNoDoubles) (n : Notice) :
    (r.notice n.url n.change).get? n.url = some (n.renew (r.get? n.url)) :=
  (h.notice n).get?_eq_some_iff.2
    ⟨by rw [pages_notice]; exact List.mem_append_right _ List.mem_cons_self, url_renew n r⟩

/-- What another page has afterwards it had before. -/
theorem HasNoDoubles.get?_of_notice (h : r.HasNoDoubles) (hne : url ≠ n.url)
    (hp : (r.notice n.url n.change).get? url = some p) : r.get? url = some p := by
  obtain ⟨hmem, rfl⟩ := (h.notice n).get?_eq_some_iff.1 hp
  rw [pages_notice, List.mem_append, List.mem_singleton] at hmem
  rcases hmem with hmem | rfl
  · exact h.get?_eq_some_iff.2 ⟨(others_sublist r n.url).mem hmem, rfl⟩
  · exact absurd (url_renew n r) hne

/-! ### Many notices -/

theorem capacity_after (r : PageRow) (notices : List Notice) :
    (r.after notices).capacity = r.capacity := by
  induction notices generalizing r with
  | nil => rfl
  | cons n notices ih => exact ih _

theorem HasNoDoubles.after (h : r.HasNoDoubles) (notices : List Notice) :
    (r.after notices).HasNoDoubles := by
  induction notices generalizing r with
  | nil => exact h
  | cons n notices ih => exact ih (h.notice n)

theorem hasNoDoubles_ofCapacity (capacity : Nat) : (ofCapacity capacity).HasNoDoubles :=
  List.nodup_nil

/-- The row has the pages that were noticed last, by induction on the notices from the last
    one. -/
theorem urls_after (capacity : Nat) (notices : List Notice) :
    ((ofCapacity capacity).after notices).urls =
      lastDistinct (max 1 capacity) (notices.map (·.url)) := by
  induction notices using List.reverseRecOn with
  | nil => rw [List.map_nil, lastDistinct, List.dedup_nil, List.rtake_nil]; rfl
  | append_singleton notices n ih =>
    rw [after_concat, urls_notice, ih, capacity_after, List.map_append, List.map_singleton,
      lastDistinct_concat (Nat.lt_of_lt_of_le Nat.one_pos (Nat.le_max_left _ _))]
    rfl

/-- What is left of a page that other ones follow. -/
theorem HasNoDoubles.get?_of_after (h : r.HasNoDoubles) (hurl : url ∉ notices.map (·.url))
    (hp : (r.after notices).get? url = some p) : r.get? url = some p := by
  induction notices generalizing r with
  | nil => exact hp
  | cons n notices ih =>
    rw [List.map_cons, List.mem_cons, not_or] at hurl
    exact h.get?_of_notice hurl.1 (ih (h.notice n) hurl.2 hp)

/-- A page is there as long as fewer other pages follow its last notice than there is room for,
    and its record is what that notice has made of it. -/
theorem get?_after (capacity : Nat) (before : List Notice) (n : Notice) {notices : List Notice}
    (hlast : n.url ∉ notices.map (·.url)) :
    ((ofCapacity capacity).after (before ++ n :: notices)).get? n.url =
      if (notices.map (·.url)).dedup.length < max 1 capacity then
        some (n.renew (((ofCapacity capacity).after before).get? n.url)) else none := by
  have hsound := (hasNoDoubles_ofCapacity capacity).after before
  have hstays : (((ofCapacity capacity).after (before ++ n :: notices)).get? n.url).isSome = true ↔
      (notices.map (·.url)).dedup.length < max 1 capacity := by
    rw [← mem_urls_iff, urls_after, List.map_append, List.map_cons, mem_lastDistinct_iff hlast]
  cases hfound : ((ofCapacity capacity).after (before ++ n :: notices)).get? n.url with
  | none =>
    rw [hfound] at hstays
    exact (if_neg fun hfew => Bool.false_ne_true (hstays.2 hfew)).symm
  | some p =>
    rw [hfound] at hstays
    rw [after_append, after_cons] at hfound
    have hrenewed := (hsound.notice n).get?_of_after hlast hfound
    rw [hsound.get?_notice] at hrenewed
    rw [if_pos (hstays.1 rfl), hrenewed]

end PageRow

/-- A page that was stored has its record from there. -/
def storedNotice (page : PageStats) : Notice := ⟨page.url, fun _ => page, fun _ _ => rfl⟩

/-! ### Both parts of a table -/

namespace PageTable

/-- The table after notices. -/
def after (t : PageTable) (notices : List Notice) : PageTable :=
  notices.foldl (fun t n => t.notice n.url n.change) t

theorem after_append (t : PageTable) (before notices : List Notice) :
    t.after (before ++ notices) = (t.after before).after notices := List.foldl_append

variable {t : PageTable}

/-- The parts stay in step through all notices, and these are notices on the row. -/
theorem InStep.after (h : t.InStep) (notices : List Notice) :
    (t.after notices).InStep ∧ (t.after notices).row = t.row.after notices := by
  induction notices generalizing t with
  | nil => exact ⟨h, rfl⟩
  | cons n notices ih =>
    obtain ⟨hstep, hrow⟩ := ih (h.notice n.url_change)
    rw [h.row_notice] at hrow
    exact ⟨hstep, hrow⟩

theorem inStep_after (capacity : Nat) (notices : List Notice) :
    ((ofCapacity capacity).after notices).InStep :=
  ((inStep_ofCapacity capacity).after notices).1

theorem row_after (capacity : Nat) (notices : List Notice) :
    ((ofCapacity capacity).after notices).row = (PageRow.ofCapacity capacity).after notices :=
  ((inStep_ofCapacity capacity).after notices).2

theorem ofPages_eq_after (capacity : Nat) (pages : List PageStats) :
    ofPages capacity pages = (ofCapacity capacity).after (pages.map storedNotice) := by
  rw [ofPages, after, List.foldl_map]
  rfl

theorem order_after (capacity : Nat) (notices : List Notice) :
    ((ofCapacity capacity).after notices).order =
      lastDistinct (max 1 capacity) (notices.map (·.url)) := by
  rw [← PageRow.urls_after, ← row_after, ← (inStep_after capacity notices).map_url_pages]
  rfl

theorem get?_after_eq (capacity : Nat) (notices : List Notice) (url : String) :
    ((ofCapacity capacity).after notices).get? url =
      ((PageRow.ofCapacity capacity).after notices).get? url := by
  rw [← (inStep_after capacity notices).get?_row, row_after]

end PageTable

/-! ### The pages of the counts -/

namespace StatisticsTracker

open PageTable

/-- The page that is noticed when something is counted, if any. -/
def Edit.notice? (defaultBytes : UInt64) : Edit → Option Notice
  | .blocked _ (some page) size =>
    some ⟨page, fun p => (p.count .wrapping (size.getD defaultBytes)).run, fun _ h => h⟩
  | .pageLoad url => some ⟨url, PageStats.restart, fun _ h => h⟩
  | .blocked _ none _ | .request | .resetSession => none

/-- The pages in the file, if the file can be used. -/
def storedPages (d : Disk) (path : String) : List PageStats :=
  match d.readJson path Statistics.ofJson? with
  | .ok (some stored) => stored.pages
  | _ => []

/-- All notices since the file was opened: first of the pages in it, and then of those that the
    edits notice. -/
def noticesSince (d : Disk) (path : String) (defaultBytes : UInt64) (edits : List Edit) :
    List Notice :=
  (storedPages d path).map storedNotice ++ edits.filterMap (Edit.notice? defaultBytes)

theorem pages_ofDisk (d : Disk) (path : String) (maxPages : Nat) (defaultBytes : UInt64) :
    (ofDisk d path maxPages defaultBytes).pages =
      (ofCapacity maxPages).after ((storedPages d path).map storedNotice) := by
  have hstored : (ofDisk d path maxPages defaultBytes).pages =
      PageTable.ofPages maxPages (storedPages d path) := by
    rw [ofDisk, storedPages]
    rcases d.readJson path Statistics.ofJson? with _ | _ | stored <;> rfl
  rw [hstored, ofPages_eq_after]

theorem pages_edit (t : StatisticsTracker) (d : Disk) (e : Edit) :
    (t.edit d e).1.pages = t.pages.after (e.notice? t.defaultBytes).toList := by
  rcases e with _ | ⟨url, _ | page, size⟩ | url | _ <;> rfl

theorem defaultBytes_edit (t : StatisticsTracker) (d : Disk) (e : Edit) :
    (t.edit d e).1.defaultBytes = t.defaultBytes := by
  rcases e <;> rfl

/-- The pages of the counts are those of a table after all notices. -/
theorem pages_after (d : Disk) (path : String) (maxPages : Nat) (defaultBytes : UInt64)
    (edits : List Edit) :
    ((keeper path maxPages defaultBytes).after d edits).value.pages =
      (ofCapacity maxPages).after (noticesSince d path defaultBytes edits) := by
  rw [noticesSince, after_append, ← pages_ofDisk]
  suffices ∀ s : Keeper.State StatisticsTracker, s.value.defaultBytes = defaultBytes →
      (edits.foldl (keeper path maxPages defaultBytes).step s).value.pages =
        s.value.pages.after (edits.filterMap (Edit.notice? defaultBytes)) from this _ rfl
  induction edits with
  | nil => exact fun s _ => rfl
  | cons e edits ih =>
    intro s hs
    have hpages : ((keeper path maxPages defaultBytes).step s e).value.pages =
        s.value.pages.after (e.notice? defaultBytes).toList :=
      hs ▸ pages_edit s.value s.disk e
    rw [List.foldl_cons, ih _ ((defaultBytes_edit _ _ _).trans hs), hpages, ← after_append,
      List.filterMap_cons]
    cases e.notice? defaultBytes <;> rfl

/-- Whatever pages were in the file and whatever is counted, the records of the pages and the
    row of their URLs stay in step. The pages of the counts are those that were noticed last, in
    the order of their last notices, each once and with a record of its own, and there are as
    many of them as there is room for, which is at least one. A page is there as long as fewer
    other pages were noticed since its last notice than there is room for, and its record is what
    that notice has made of the one that was there before it, or of a new one. -/
theorem pages_are_recent (d : Disk) (path : String) (maxPages : Nat) (defaultBytes : UInt64)
    (edits : List Edit) :
    let t := ((keeper path maxPages defaultBytes).after d edits).value
    let history := noticesSince d path defaultBytes edits
    let room := max 1 maxPages
    t.pages.InStep ∧
    t.pages.order = lastDistinct room (history.map (·.url)) ∧
    t.snapshot.pages.map (·.url) = lastDistinct room (history.map (·.url)) ∧
    (t.snapshot.pages.map (·.url)).Nodup ∧
    (∀ url p, t.pages.get? url = some p ↔ p ∈ t.snapshot.pages ∧ p.url = url) ∧
    ∀ before n since, history = before ++ n :: since → n.url ∉ since.map (·.url) →
      t.pages.get? n.url =
        if (since.map (·.url)).dedup.length < room then
          some (n.renew (((ofCapacity maxPages).after before).get? n.url)) else none := by
  intro t history room
  have hpages : t.pages = (ofCapacity maxPages).after history :=
    pages_after d path maxPages defaultBytes edits
  have hstep : t.pages.InStep := hpages ▸ inStep_after maxPages history
  have horder : t.pages.order = lastDistinct room (history.map (·.url)) :=
    hpages ▸ order_after maxPages history
  have hsound : t.pages.row.HasNoDoubles := by
    show (t.pages.pages.map (·.url)).Nodup
    rw [hstep.map_url_pages]
    exact hstep.nodup
  refine ⟨hstep, horder, hstep.map_url_pages.trans horder, hsound, fun url p => ?_,
    fun before n since hsplit hlast => ?_⟩
  · rw [← hstep.get?_row]
    exact hsound.get?_eq_some_iff
  · rw [hpages, hsplit, get?_after_eq, PageRow.get?_after maxPages before n hlast, get?_after_eq]

/-- Two pages are in the file, one of them twice, and there is room for no others. What was in
    the file about `a` is lost before it is noticed again, and `b` is lost when two others
    have followed it. -/
theorem pages_are_recent_twice :
    let inFile : List PageStats := [⟨"b", 3, 30⟩, ⟨"a", 1, 10⟩, ⟨"b", 5, 50⟩]
    let text := (Statistics.toJson { pages := inFile }).indented
    let d : Disk := { entries := [(["s.json"], .file text)] }
    let edits : List Edit := [.pageLoad "c", .request, .blocked "https://ads.net/" (some "a") none,
      .blocked "https://ads.net/" none (some 7), .blocked "https://ads.net/" (some "c") (some 9)]
    let t := ((keeper "s.json" 2 20).after d edits).value
    t.pages.InStep ∧ t.pages.order = ["a", "c"] ∧ t.snapshot.pages.map (·.url) = ["a", "c"] ∧
      t.pages.get? "c" = some ⟨"c", 1, 9⟩ ∧ t.pages.get? "a" = some ⟨"a", 1, 20⟩ ∧
      t.pages.get? "b" = none := by
  intro inFile text d edits t
  let loaded : Notice := ⟨"c", PageStats.restart, fun _ h => h⟩
  let blocked (page : String) (size : UInt64) : Notice :=
    ⟨page, fun p => (p.count .wrapping size).run, fun _ h => h⟩
  have hread : d.read "s.json" = .ok text := by rfl
  have hstored : storedPages d "s.json" = inFile := by
    rw [storedPages, Disk.readJson_of_read hread (Statistics.isPlain_toJson _)
      (Statistics.ofJson?_toJson Table.isAscending_nil)]
  have hhistory : noticesSince d "s.json" 20 edits =
      inFile.map storedNotice ++ [loaded, blocked "a" 20, blocked "c" 9] := by
    rw [noticesSince, hstored]
    rfl
  obtain ⟨hstep, horder, hpages, -, -, hrecord⟩ := pages_are_recent d "s.json" 2 20 edits
  rw [hhistory] at horder hpages hrecord
  refine ⟨hstep, horder.trans (by decide +kernel), hpages.trans (by decide +kernel), ?_, ?_, ?_⟩
  · exact (hrecord (inFile.map storedNotice ++ [loaded, blocked "a" 20]) (blocked "c" 9) [] rfl
      (by decide +kernel)).trans (by decide +kernel)
  · exact (hrecord (inFile.map storedNotice ++ [loaded]) (blocked "a" 20) [blocked "c" 9] rfl
      (by decide +kernel)).trans (by decide +kernel)
  · exact (hrecord ((inFile.take 2).map storedNotice) (storedNotice ⟨"b", 5, 50⟩)
      [loaded, blocked "a" 20, blocked "c" 9] rfl (by decide +kernel)).trans (by decide +kernel)

end StatisticsTracker

end ContentBlocking
