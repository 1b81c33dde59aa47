import ContentBlocking.Proofs.Table
import ContentBlocking.Statistics
import Mathlib.Data.String.Basic

/-!
# Pages in a row

The records of the pages and the row of their URLs are kept apart, and every notice changes
both. They stay in step: the row has the URLs that have a record, each once, and every record is
that of its URL. While room is made for a page this fails for that page alone. So the two parts
tell one row of records, and what a notice does to them it does to this row. Nothing else is in
the two parts: tables with the same row are the same.

* `PageTable.InStep`: the two parts are in step;
* `PageRow`, `PageTable.row`: the records in a row;
* `PageTable.inStep_ofCapacity`, `PageTable.InStep.notice`: the parts stay in step;
* `PageTable.InStep.row_notice`: a notice, as it is done to the row;
* `PageTable.InStep.eq_of_row_eq`: what the row leaves out.
-/

namespace ContentBlocking

/-- A limited number of records in a row, the one with the oldest notice first. -/
structure PageRow where
  capacity : Nat
  pages : List PageStats := []

namespace PageRow

/-- No records, with room for at least one. -/
def ofCapacity (capacity : Nat) : PageRow := ⟨max 1 capacity, []⟩

/-- The record of a page. -/
def get? (r : PageRow) (url : String) : Option PageStats := r.pages.find? (·.url == url)

/-- The other records that stay when a page is noticed: all of them if it is in the row or
    there is room, and otherwise all but the first. -/
def others (r : PageRow) (url : String) : List PageStats :=
  if (r.get? url).isSome then r.pages.filter (·.url ≠ url)
  else if r.capacity ≤ r.pages.length then r.pages.tail
  else r.pages

/-- Notices a page and changes its record, which is new if need be. -/
def notice (r : PageRow) (url : String) (change : PageStats → PageStats) : PageRow :=
  { r with pages := r.others url ++ [change ((r.get? url).getD { url := url })] }

end PageRow

namespace PageTable

/-- The records in the order of the row. -/
def row (t : PageTable) : PageRow := ⟨t.capacity, t.pages⟩

/-- The row has the pages with a record, each once and no more than there is room for, and
    every record is that of its page. -/
structure InStep (t : PageTable) : Prop where
  ascending : t.entries.IsAscending
  nodup : t.order.Nodup
  mem_order_iff : ∀ url, url ∈ t.order ↔ t.entries.has url = true
  url_eq : ∀ {url p}, t.get? url = some p → p.url = url
  length_le : t.order.length ≤ t.capacity
  pos : 0 < t.capacity

variable {t t' : PageTable} {url : String}

theorem inStep_ofCapacity (capacity : Nat) : (ofCapacity capacity).InStep where
  ascending := Table.isAscending_nil
  nodup := List.nodup_nil
  mem_order_iff _ := by simp [ofCapacity, Table.has, Table.get?]
  url_eq h := by cases h
  length_le := Nat.zero_le _
  pos := Nat.lt_of_lt_of_le Nat.one_pos (Nat.le_max_left _ _)

/-! ### One row -/

/-- What a row of URLs tells about the URLs in it. -/
theorem find?_filterMap {record : String → Option PageStats}
    (hrecord : ∀ {url p}, record url = some p → p.url = url) (order : List String)
    (url : String) :
    (order.filterMap record).find? (·.url == url) =
      if url ∈ order then record url else none := by
  induction order with
  | nil => rfl
  | cons first order ih =>
    rw [List.filterMap_cons]
    cases hfirst : record first with
    | none =>
      rw [ih]
      by_cases heq : url = first
      · subst heq
        simp [hfirst]
      · simp [heq]
    | some p =>
      have hp := hrecord hfirst
      by_cases heq : url = first
      · subst heq
        simp [hp, hfirst]
      · rw [List.find?_cons_of_neg (by simpa [hp] using Ne.symm heq), ih]
        simp [heq]

namespace InStep

theorem get?_eq_none (h : t.InStep) (hmem : url ∉ t.order) : t.get? url = none := by
  rw [h.mem_order_iff, Table.has, Option.not_isSome_iff_eq_none] at hmem
  exact hmem

theorem get?_row (h : t.InStep) (url : String) : t.row.get? url = t.get? url := by
  rw [PageRow.get?, row, pages, find?_filterMap h.url_eq]
  split
  · rfl
  · next hmem => exact (h.get?_eq_none hmem).symm

/-- Every page in the row has a record. -/
theorem map_url_pages (h : t.InStep) : t.pages.map (·.url) = t.order := by
  have hurl : ∀ url ∈ t.order, (t.get? url).map (·.url) = some url := by
    intro url hmem
    obtain ⟨p, hp⟩ := Option.isSome_iff_exists.1 ((h.mem_order_iff url).1 hmem)
    rw [get?, hp, Option.map_some, h.url_eq hp]
  rw [pages, List.map_filterMap, List.filterMap_congr hurl, List.filterMap_some]

theorem length_entries (h : t.InStep) : t.entries.length = t.order.length := by
  have hperm : t.entries.keys.Perm t.order :=
    (List.perm_ext_iff_of_nodup h.ascending.nodup_keys h.nodup).2 fun url =>
      Table.mem_keys.trans (h.mem_order_iff url).symm
  rw [← hperm.length_eq, Table.keys, List.length_map]

theorem length_pages (h : t.InStep) : t.pages.length = t.order.length := by
  rw [← h.map_url_pages, List.length_map]

/-- Tables with the same row are the same, since the row tells every record. -/
theorem eq_of_row_eq (h : t.InStep) (h' : t'.InStep) (hrow : t.row = t'.row) : t = t' := by
  have hpages : t.pages = t'.pages := congrArg PageRow.pages hrow
  have hcapacity : t.capacity = t'.capacity := congrArg PageRow.capacity hrow
  have horder : t.order = t'.order := by rw [← h.map_url_pages, hpages, h'.map_url_pages]
  have hentries : t.entries = t'.entries := by
    refine h.ascending.eq_of_get?_eq h'.ascending fun url => ?_
    show t.get? url = t'.get? url
    rw [← h.get?_row, hrow, h'.get?_row]
  obtain ⟨capacity, entries, order⟩ := t
  obtain rfl : capacity = _ := hcapacity
  obtain rfl : entries = _ := hentries
  obtain rfl : order = _ := horder
  rfl

end InStep

/-! ### Room for a page -/

/-- Room was made for a page: all else is in step, the page is not in the row, and there is
    a place for it. -/
structure HasRoomFor (t : PageTable) (url : String) : Prop where
  ascending : t.entries.IsAscending
  nodup : t.order.Nodup
  notMem : url ∉ t.order
  mem_order_iff : ∀ url', url' ≠ url → (url' ∈ t.order ↔ t.entries.has url' = true)
  url_eq : ∀ {url p}, t.get? url = some p → p.url = url
  length_lt : t.order.length < t.capacity

/-- The page has left its place. -/
theorem InStep.hasRoomFor_known (h : t.InStep) (hknown : t.entries.has url = true) :
    HasRoomFor { t with order := t.order.filter (· ≠ url) } url where
  ascending := h.ascending
  nodup := h.nodup.filter _
  notMem := by simp
  mem_order_iff url' hne := by simp [hne, h.mem_order_iff]
  url_eq := h.url_eq
  length_lt := by
    have hless : (t.order.filter (· ≠ url)).length < t.order.length :=
      List.length_filter_lt_length_iff_exists.2
        ⟨url, (h.mem_order_iff url).2 hknown, by simp⟩
    exact Nat.lt_of_lt_of_le hless h.length_le

/-- The first page has made room. -/
theorem InStep.hasRoomFor_evict (h : t.InStep) (hnew : t.entries.has url = false)
    (hfull : t.capacity ≤ t.entries.length) :
    HasRoomFor t.evict url ∧ t.evict.capacity = t.capacity ∧ t.evict.get? url = none ∧
      t.evict.pages = t.pages.tail := by
  rw [h.length_entries] at hfull
  have hnodup := h.nodup
  have hmem := h.mem_order_iff
  have hle := h.length_le
  have hnone : t.get? url = none := Option.isNone_iff_eq_none.1 (Option.isSome_eq_false_iff.1 hnew)
  rw [evict]
  split
  · next hnil =>
    -- There is room for one page at least.
    rw [hnil, List.length_nil] at hfull
    exact absurd h.pos (Nat.not_lt.2 hfull)
  · next oldest order hcons =>
    rw [hcons] at hnodup hmem hle
    obtain ⟨hnotMem, hrest⟩ := List.nodup_cons.1 hnodup
    have hget (url' : String) : Table.get? (t.entries.erase oldest) url' =
        if url' = oldest then none else t.get? url' :=
      Table.get?_erase t.entries oldest url'
    have hne : url ≠ oldest := by
      rintro rfl
      rw [(hmem url).1 List.mem_cons_self] at hnew
      exact Bool.noConfusion hnew
    refine ⟨⟨h.ascending.erase oldest, hrest, fun hin => ?_, fun url' _ => ?_, fun hp => ?_,
      hle⟩, rfl, ?_, ?_⟩
    · rw [(hmem url).1 (List.mem_cons_of_mem _ hin)] at hnew
      exact Bool.noConfusion hnew
    · rw [Table.has, hget]
      by_cases heq : url' = oldest
      · simp [heq, hnotMem]
      · rw [if_neg heq]
        exact (or_iff_right heq).symm.trans (List.mem_cons.symm.trans (hmem url'))
    · rw [get?, hget] at hp
      split at hp
      · cases hp
      · exact h.url_eq hp
    · rw [get?, hget, if_neg hne, hnone]
    · obtain ⟨p, hp⟩ := Option.isSome_iff_exists.1 ((hmem oldest).1 List.mem_cons_self)
      have hsame : order.filterMap (Table.get? (t.entries.erase oldest)) =
          order.filterMap t.get? := by
        refine List.filterMap_congr fun url' hin => ?_
        rw [hget, if_neg (by rintro rfl; exact hnotMem hin)]
      rw [pages, pages, hcons, List.filterMap_cons, get?, hp]
      exact hsame

/-- How room is made in the two parts and in the row. -/
theorem InStep.hasRoomFor (h : t.InStep) (url : String) :
    HasRoomFor (t.makeRoom url) url ∧ (t.makeRoom url).capacity = t.capacity ∧
      (t.makeRoom url).get? url = t.get? url ∧ (t.makeRoom url).pages = t.row.others url := by
  rw [PageRow.others, h.get?_row, row, makeRoom]
  dsimp only
  cases hhas : t.entries.has url with
  | true =>
    have hsome : (t.get? url).isSome = true := hhas
    rw [if_pos rfl, if_pos hsome]
    refine ⟨h.hasRoomFor_known hhas, rfl, rfl, ?_⟩
    show (t.order.filter (· ≠ url)).filterMap t.get? = (t.order.filterMap t.get?).filter _
    rw [List.filterMap_filter, List.filter_filterMap]
    refine List.filterMap_congr fun url' _ => ?_
    cases hp : t.get? url' with
    | none => simp
    | some p => by_cases hne : url' = url <;> simp [Option.filter, h.url_eq hp, hne]
  | false =>
    have hnone : ¬(t.get? url).isSome = true := ne_true_of_eq_false hhas
    rw [if_neg Bool.false_ne_true, if_neg hnone, h.length_pages, ← h.length_entries]
    split
    · next hfull =>
      obtain ⟨hroom, hcapacity, hget, hpages⟩ := h.hasRoomFor_evict hhas hfull
      rw [Option.not_isSome_iff_eq_none] at hnone
      exact ⟨hroom, hcapacity, hget.trans hnone.symm, hpages⟩
    · next hfree =>
      refine ⟨⟨h.ascending, h.nodup, fun hin => ?_, fun url' _ => h.mem_order_iff url', h.url_eq,
        ?_⟩, rfl, rfl, rfl⟩
      · rw [(h.mem_order_iff url).1 hin] at hhas
        exact Bool.noConfusion hhas
      · rw [h.length_entries] at hfree
        exact Nat.not_le.1 hfree

/-! ### A page that is noticed -/

/-- The noticed page has its new record, and every other one what it had when room was made. -/
theorem InStep.get?_notice (h : t.InStep) (url : String) (change : PageStats → PageStats)
    (url' : String) :
    (t.notice url change).get? url' =
      if url' = url then some (change (t.record url)) else (t.makeRoom url).get? url' := by
  obtain ⟨-, -, hsame, -⟩ := h.hasRoomFor url
  have hrecord : (t.touch url).record url = t.record url := by
    rw [record, get?, touch, put, Table.get?_set, if_pos rfl, Option.getD_some, record, hsame,
      record]
  show Table.get? (((t.touch url).entries).set url _) url' = _
  rw [Table.get?_set, hrecord, touch, put]
  split
  · rfl
  · next hne => rw [Table.get?_set, if_neg hne, get?]

theorem InStep.notice (h : t.InStep) {change : PageStats → PageStats}
    (hchange : ∀ p, p.url = url → (change p).url = url) : (t.notice url change).InStep := by
  obtain ⟨hroom, hcapacity, -, -⟩ := h.hasRoomFor url
  have hrecord : (t.record url).url = url := by
    rw [record]
    cases hp : t.get? url with
    | none => rfl
    | some p => exact h.url_eq hp
  have horder : (t.notice url change).order = (t.makeRoom url).order ++ [url] := rfl
  refine ⟨(hroom.ascending.set _ _).set _ _, ?_, fun url' => ?_, fun {url' p} hp => ?_, ?_, ?_⟩
  · rw [horder, List.nodup_append_comm, List.singleton_append, List.nodup_cons]
    exact ⟨hroom.notMem, hroom.nodup⟩
  · rw [Table.has, ← get?, h.get?_notice, horder, List.mem_append, List.mem_singleton]
    split
    · next heq => exact iff_of_true (.inr heq) rfl
    · next hne => rw [or_iff_left hne, hroom.mem_order_iff url' hne, Table.has, get?]
  · rw [h.get?_notice] at hp
    split at hp
    · next heq =>
      obtain rfl := Option.some.inj hp
      exact heq ▸ hchange _ hrecord
    · exact hroom.url_eq hp
  · rw [horder, List.length_append, List.length_singleton]
    exact hroom.length_lt
  · show 0 < (t.makeRoom url).capacity
    exact hcapacity ▸ h.pos

/-- What a notice does to the two parts, it does to the row. -/
theorem InStep.row_notice (h : t.InStep) (url : String) (change : PageStats → PageStats) :
    (t.notice url change).row = t.row.notice url change := by
  obtain ⟨hroom, hcapacity, -, hothers⟩ := h.hasRoomFor url
  have hpages : (t.notice url change).pages =
      (t.makeRoom url).pages ++ [change (t.record url)] := by
    have hsame : (t.makeRoom url).order.filterMap (t.notice url change).get? =
        (t.makeRoom url).pages := by
      refine List.filterMap_congr fun url' hin => ?_
      rw [h.get?_notice, if_neg (by rintro rfl; exact hroom.notMem hin)]
    have hlast : (t.notice url change).get? url = some (change (t.record url)) := by
      rw [h.get?_notice, if_pos rfl]
    show ((t.makeRoom url).order ++ [url]).filterMap (t.notice url change).get? = _
    rw [List.filterMap_append, hsame, List.filterMap_cons, hlast, List.filterMap_nil]
  have hrow : (t.notice url change).row = ⟨t.capacity, (t.notice url change).pages⟩ :=
    congrArg (PageRow.mk · _) hcapacity
  rw [hrow, hpages, hothers, PageRow.notice, h.get?_row, record]
  rfl

end PageTable

end ContentBlocking
