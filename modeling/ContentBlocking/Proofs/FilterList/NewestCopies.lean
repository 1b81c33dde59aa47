import ContentBlocking.FilterList.Source
import ContentBlocking.Proofs.Disk.DataDirectory

/-!
# Copies of the newest downloads

The cache starts empty, lists are loaded and copies removed in any order, and whatever is
downloaded can be written. Then the copy of a list is its newest download, unless it was
removed since, so a load serves the newest download, be it that of this load or an
earlier one. The clock may show any times.

* `ListSource.Load.run`, `ListSource.Load.asks`: a load, and whether it calls the transport;
* `ListSource.newest`: the newest download of a list by the marks of what has happened;
* `ListSource.Holds`: the copy of a list is what was downloaded;
* `ListSource.holds_call`, `ListSource.holds_after`: so it is after a call, and after all of
  them;
* `ListSource.serves_newest`: what a load serves then, and when it fails or asks.
-/

namespace ContentBlocking.ListSource

open Disk ContentBlocking.Path

/-! ### Loads -/

/-- A list that is to be loaded, and what the clock and the transport say. -/
structure Load where
  id : String
  refresh : Bool
  begun : UInt64
  /-- The time when a download has come to its end. -/
  ended : UInt64
  reply : FetchReply

variable (s : ListSource)

/-- The transport is called. -/
def Load.asks (c : Load) (d : Disk) : Bool :=
  match s.begin d c.begun c.refresh c.id with
  | .served _ => false
  | .fetching _ => true

/-- The list is loaded. -/
def Load.run (c : Load) (d : Disk) : Disk × Except Failure FetchedList :=
  match s.begin d c.begun c.refresh c.id with
  | .served list => (d, .ok list)
  | .fetching copy => s.finish d c.ended c.id copy c.reply

/-- The text that the load downloads. -/
def Load.text? (c : Load) (d : Disk) : Option String :=
  match s.begin d c.begun c.refresh c.id with
  | .served _ => none
  | .fetching _ => c.reply.toOption

/-- What is done with the copies of lists. -/
inductive Call where
  | load (c : Load)
  | evict (id : String)

/-- The list that a call is for. -/
def Call.id : Call → String
  | .load c => c.id
  | .evict id => id

/-- The disk after a call. -/
def Call.disk (d : Disk) : Call → Disk
  | .load c => (c.run s d).1
  | .evict id => s.evict d id

/-! ### The newest downloads -/

/-- What becomes of the copies. -/
inductive Mark where
  | downloaded (id text : String) (time : UInt64)
  | evicted (id : String)

/-- The newest download of a list after a mark, given the one before. -/
def note (id : String) (newest : Option (String × UInt64)) : Mark → Option (String × UInt64)
  | .downloaded id' text time => if id' = id then some (text, time) else newest
  | .evicted id' => if id' = id then none else newest

/-- The newest download of a list since its copy was last removed: the text and the time. -/
def newest (id : String) (marks : List Mark) : Option (String × UInt64) :=
  marks.foldl (note id) none

/-- The marks of a call. -/
def Call.marks (d : Disk) : Call → List Mark
  | .load c => ((c.text? s d).map fun text => .downloaded c.id text c.ended).toList
  | .evict id => [.evicted id]

/-- The disk, and the marks of all that has happened. -/
structure History where
  disk : Disk
  marks : List Mark := []

/-- A call. -/
def History.step (h : History) (c : Call) : History :=
  ⟨c.disk s h.disk, h.marks ++ c.marks s h.disk⟩

/-- The calls one after the other. -/
def History.after (h : History) (calls : List Call) : History := calls.foldl (step s) h

/-- The files of a copy can be written. -/
def stores (d : Disk) (id text : String) (time : UInt64) : Bool :=
  let (d, made) := d.makeDirs s.cacheDir
  let (d, written) := d.write (s.textPath id) text
  made && written && (d.write (s.timePath id) (timeJson time).compact).2

/-- What a call downloads can be written. -/
def Call.saves (d : Disk) : Call → Bool
  | .load c => (c.text? s d).all fun text => s.stores d c.id text c.ended
  | .evict _ => true

/-- All that is downloaded can be written. -/
def History.saves (h : History) : List Call → Bool
  | [] => true
  | c :: calls => c.saves s h.disk && (h.step s c).saves calls

/-! ### What is in the cache -/

/-- The copy of a list is what was downloaded, or there is none. -/
def Holds (d : Disk) (id : String) : Option (String × UInt64) → Prop
  | some (text, time) => d.read (s.textPath id) = .ok text ∧
      d.read (s.timePath id) = .ok (timeJson time).compact
  | none => d.textAt (s.timePath id) = none

variable {s} {d d' : Disk} {id id' text : String} {time : UInt64}
  {found : Option (String × UInt64)}

theorem timeOfJson?_timeJson (time : UInt64) : timeOfJson? (timeJson time) = some time := by
  have hfields : (timeJson time).fields? ["timestamp"] =
    some [("timestamp", some (.nat time.toNat))] := rfl
  simp only [timeOfJson?, hfields, Option.bind_eq_bind, Option.bind_some]
  rw [Json.Fields.get?_of_lookup rfl, Json.word?_toNat]

theorem isPlain_timeJson (time : UInt64) : (timeJson time).IsPlain := by
  refine .obj fun member hmember => ?_
  obtain rfl := List.mem_singleton.1 hmember
  exact .nat

theorem Holds.cached_eq (h : s.Holds d id found) :
    s.cached d id = found.map fun (text, time) => ⟨text, time, true⟩ := by
  rcases found with _ | ⟨text, time⟩
  · have hread (time : String) : d.read (s.timePath id) ≠ .ok time := by
      intro hread
      rw [Holds, textAt_of_read hread] at h
      cases h
    rw [cached]
    split
    · next htime _ => exact absurd htime (hread _)
    · rfl
  · rw [cached, h.1, h.2]
    dsimp only
    rw [Json.parse?_compact (isPlain_timeJson time), Option.bind_some, timeOfJson?_timeJson]
    rfl

/-- Copies stay when their files are left alone. -/
theorem Holds.spares (h : s.Holds d id found) (htext : Spares (placeOf (s.textPath id)) d d')
    (htime : Spares (placeOf (s.timePath id)) d d') : s.Holds d' id found := by
  rcases found with _ | ⟨text, time⟩
  · exact htime.textAt.trans h
  · exact ⟨htext.read h.1, htime.read h.2⟩

theorem placeOf_copy_ne {extension extension' : String} (hid : '/' ∉ id.toList)
    (hid' : '/' ∉ id'.toList) (hext : IsFileName extension) (hext' : IsFileName extension')
    (hne : id ++ extension ≠ id' ++ extension') :
    placeOf (join s.cacheDir (id ++ extension)) ≠ placeOf (join s.cacheDir (id' ++ extension')) :=
  placeOf_join_ne (.append hid hext) (.append hid' hext') hne

/-- The text of a list is not where the time of any list is. -/
theorem placeOf_textPath_ne (s : ListSource) (hid : '/' ∉ id.toList) (hid' : '/' ∉ id'.toList) :
    placeOf (s.textPath id) ≠ placeOf (s.timePath id') := by
  refine placeOf_copy_ne hid hid' (by decide) (by decide) fun heq => ?_
  have hlast := congrArg (fun name => name.toList.getLast?) heq
  simp at hlast

/-- The files of one list are not those of another one. -/
theorem elsewhere_of_ne (s : ListSource) (hid : '/' ∉ id.toList) (hid' : '/' ∉ id'.toList)
    (hne : id' ≠ id) :
    s.Elsewhere (placeOf (s.textPath id)) id' ∧ s.Elsewhere (placeOf (s.timePath id)) id' := by
  have happend (extension : String) : id' ++ extension ≠ id ++ extension := fun heq =>
    hne ((String.append_left_inj extension).1 heq)
  exact ⟨⟨placeOf_copy_ne hid' hid (by decide) (by decide) (happend _),
      (placeOf_textPath_ne s hid hid').symm⟩,
    placeOf_textPath_ne s hid' hid,
    placeOf_copy_ne hid' hid (by decide) (by decide) (happend _)⟩

theorem holds_store (hid : '/' ∉ id.toList) (h : s.stores d id text time = true) :
    s.Holds (s.store d id text time) id (some (text, time)) := by
  rw [stores] at h
  rw [store]
  rcases hdirs : d.makeDirs s.cacheDir with ⟨d₁, made⟩
  rcases htext : d₁.write (s.textPath id) text with ⟨d₂, written⟩
  rcases htime : d₂.write (s.timePath id) (timeJson time).compact with ⟨d₃, ok⟩
  simp only [hdirs, htext, htime, Bool.and_eq_true] at h ⊢
  obtain ⟨⟨rfl, rfl⟩, rfl⟩ := h
  simp only [htext, htime]
  have hspares := spares_write (placeOf_textPath_ne s hid hid).symm d₂ (timeJson time).compact
  rw [htime] at hspares
  exact ⟨hspares.read (read_write htext), read_write htime⟩

theorem Holds.evict (h : s.Holds d id found) (hid : '/' ∉ id.toList) :
    s.Holds (s.evict d id) id none := by
  have hspares := spares_remove (placeOf_textPath_ne s hid hid) d
  rcases found with _ | ⟨text, time⟩
  · exact textAt_remove (.inl (hspares.textAt.trans h))
  · exact textAt_remove (.inr ⟨_, hspares.read h.2⟩)

/-! ### Calls -/

theorem newest_concat (id : String) (marks : List Mark) (mark : Mark) :
    newest id (marks ++ [mark]) = note id (newest id marks) mark := List.foldl_concat _ _ _ _

theorem begin_cases (s : ListSource) (d : Disk) (now : UInt64) (refresh : Bool) (id : String) :
    (∃ copy, s.cached d id = some copy ∧ s.begin d now refresh id = .served copy) ∨
      s.begin d now refresh id = .fetching (s.cached d id) := by
  rw [ListSource.begin]
  rcases s.cached d id with _ | copy
  · exact .inr rfl
  · dsimp only
    split
    · exact .inl ⟨copy, rfl, rfl⟩
    · exact .inr rfl

/-- What is downloaded is stored and served. Without a download the copy is served, and
    if there is none, the load fails. -/
theorem Load.run_cases (s : ListSource) (c : Load) (d : Disk) :
    (∃ text, c.text? s d = some text ∧
      c.run s d = (s.store d c.id text c.ended, .ok ⟨text, c.ended, false⟩)) ∨
    (∃ copy, c.text? s d = none ∧ s.cached d c.id = some copy ∧ c.run s d = (d, .ok copy)) ∨
    (∃ cause, c.text? s d = none ∧ s.cached d c.id = none ∧ c.asks s d = true ∧
      c.reply = .error cause ∧
      c.run s d = (d, .error (.sourceUnavailable c.id cause.message))) := by
  rw [text?, asks, run]
  rcases s.begin_cases d c.begun c.refresh c.id with ⟨copy, hcopy, hbegin⟩ | hbegin
  · rw [hbegin]
    exact .inr (.inl ⟨copy, rfl, hcopy, rfl⟩)
  · rw [hbegin]
    rcases c.reply with cause | text
    · rcases s.cached d c.id with _ | copy
      · exact .inr (.inr ⟨cause, rfl, rfl, rfl, rfl, rfl⟩)
      · exact .inr (.inl ⟨copy, rfl, rfl, rfl⟩)
    · exact .inl ⟨text, rfl, rfl⟩

/-- The copies of all lists are their newest downloads. -/
def History.IsKept (s : ListSource) (h : History) : Prop :=
  ∀ id, '/' ∉ id.toList → s.Holds h.disk id (newest id h.marks)

theorem holds_call {h : History} (hkept : h.IsKept s) {c : Call} (hc : '/' ∉ c.id.toList)
    (hsaves : c.saves s h.disk = true) : (h.step s c).IsKept s := by
  intro id hid
  have hholds := hkept id hid
  rcases c with c | id'
  · simp only [History.step, Call.disk, Call.marks, Call.saves] at hsaves ⊢
    rcases c.run_cases s h.disk with ⟨text, htext, hrun⟩ | ⟨copy, htext, -, hrun⟩ |
      ⟨cause, htext, -, -, -, hrun⟩
    · rw [htext] at hsaves ⊢
      rw [hrun, Option.map_some, Option.toList_some, newest_concat, note]
      split
      · next heq =>
        obtain rfl := heq
        exact holds_store hid hsaves
      · next hne =>
        obtain ⟨htext, htime⟩ := s.elsewhere_of_ne hid hc hne
        exact hholds.spares (spares_store htext _ _ _) (spares_store htime _ _ _)
    · rwa [hrun, htext, Option.map_none, Option.toList_none, List.append_nil]
    · rwa [hrun, htext, Option.map_none, Option.toList_none, List.append_nil]
  · simp only [History.step, Call.disk, Call.marks, newest_concat, note]
    split
    · next heq =>
      obtain rfl := heq
      exact hholds.evict hid
    · next hne =>
      obtain ⟨htext, htime⟩ := s.elsewhere_of_ne hid hc hne
      exact hholds.spares (spares_evict htext _) (spares_evict htime _)

theorem holds_after {h : History} (hkept : h.IsKept s) {calls : List Call}
    (hids : ∀ c ∈ calls, '/' ∉ c.id.toList) (hsaves : h.saves s calls = true) :
    (h.after s calls).IsKept s := by
  induction calls generalizing h with
  | nil => exact hkept
  | cons c calls ih =>
    obtain ⟨hfirst, hrest⟩ := Bool.and_eq_true_iff.1 hsaves
    exact ih (holds_call hkept (hids c List.mem_cons_self) hfirst)
      (fun c' hc' => hids c' (List.mem_cons_of_mem c hc')) hrest

/-- An empty cache has no copies. -/
theorem isKept_of_isEmptyAt (h : d.IsEmptyAt s.cacheDir) : History.IsKept s ⟨d, []⟩ :=
  fun _ hid => h.textAt (.append hid (by decide))

/-! ### What is served -/

/-- A load serves the newest download, that of this load included. It fails if the list can
    neither be downloaded nor has been since its copy was last removed. The transport is
    called unless there is a copy that is not too old and need not be refreshed. -/
structure ServesNewest (s : ListSource) (h : History) (c : Load) : Prop where
  served : ∀ list, (c.run s h.disk).2 = .ok list →
    newest c.id (h.step s (.load c)).marks = some (list.text, list.timestamp)
  failed : ∀ e, (c.run s h.disk).2 = .error e → newest c.id h.marks = none ∧
    c.asks s h.disk = true ∧
    ∃ cause, c.reply = .error cause ∧ e = .sourceUnavailable c.id cause.message
  asks : c.asks s h.disk = false ↔ c.refresh = false ∧
    ∃ text time, newest c.id h.marks = some (text, time) ∧
      c.begun.toNat - time.toNat ≤ s.ttl

theorem newest_load (h : History) (c : Load) : newest c.id (h.step s (.load c)).marks =
    ((c.text? s h.disk).map (·, c.ended)).or (newest c.id h.marks) := by
  rw [History.step, Call.marks]
  rcases c.text? s h.disk with _ | text
  · exact congrArg (newest c.id) (List.append_nil _)
  · exact (newest_concat _ _ _).trans (if_pos rfl)

theorem asks_eq_false_iff {h : History} {c : Load}
    (hholds : s.Holds h.disk c.id (newest c.id h.marks)) :
    c.asks s h.disk = false ↔ c.refresh = false ∧
      ∃ text time, newest c.id h.marks = some (text, time) ∧
        c.begun.toNat - time.toNat ≤ s.ttl := by
  rw [Load.asks, ListSource.begin, hholds.cached_eq]
  rcases newest c.id h.marks with _ | ⟨text, time⟩
  · simp
  · have hfresh : (!c.refresh && !s.isStale c.begun time) = true ↔
        c.refresh = false ∧ c.begun.toNat - time.toNat ≤ s.ttl := by simp [isStale]
    dsimp only [Option.map_some]
    split
    · next hserved =>
      split at hserved
      · next hbegin => simpa using hfresh.1 hbegin
      · cases hserved
    · next hfetching =>
      split at hfetching
      · cases hfetching
      · next hbegin => simpa using mt hfresh.2 hbegin

theorem servesNewest_of_holds {h : History} {c : Load}
    (hholds : s.Holds h.disk c.id (newest c.id h.marks)) : s.ServesNewest h c := by
  have hcached := hholds.cached_eq
  refine ⟨fun list hlist => ?_, fun e he => ?_, asks_eq_false_iff hholds⟩
  · rw [newest_load]
    rcases c.run_cases s h.disk with ⟨text, htext, hrun⟩ | ⟨copy, htext, hcopy, hrun⟩ |
      ⟨cause, -, -, -, -, hrun⟩
    · rw [hrun] at hlist
      obtain rfl := Except.ok.inj hlist
      rw [htext]
      rfl
    · rw [hrun] at hlist
      obtain rfl := Except.ok.inj hlist
      obtain ⟨⟨text, time⟩, hnewest, rfl⟩ := Option.map_eq_some_iff.1 (hcached.symm.trans hcopy)
      rw [htext, hnewest]
      rfl
    · rw [hrun] at hlist
      cases hlist
  · rcases c.run_cases s h.disk with ⟨text, -, hrun⟩ | ⟨copy, -, -, hrun⟩ |
      ⟨cause, -, hcopy, hasks, hreply, hrun⟩
    · rw [hrun] at he
      cases he
    · rw [hrun] at he
      cases he
    · rw [hrun] at he
      rw [hcopy] at hcached
      exact ⟨Option.map_eq_none_iff.1 hcached.symm, hasks, cause, hreply,
        (Except.error.inj he).symm⟩

/-- The cache is empty at first, and all that is downloaded can be written. After any loads
    and removals a load serves the newest download. -/
theorem serves_newest (hempty : d.IsEmptyAt s.cacheDir) {calls : List Call}
    (hids : ∀ call ∈ calls, '/' ∉ call.id.toList)
    (hsaves : History.saves s ⟨d, []⟩ calls = true) {c : Load} (hc : '/' ∉ c.id.toList) :
    s.ServesNewest (History.after s ⟨d, []⟩ calls) c :=
  servesNewest_of_holds (holds_after (isKept_of_isEmptyAt hempty) hids hsaves c.id hc)

/-- The copy is too old, but it cannot be downloaded again. -/
theorem serves_newest_old :
    let s : ListSource := ⟨"cache", 3600⟩
    let calls : List Call := [.load ⟨"easylist", false, 1000, 1001, .ok "||ads.net^"⟩,
      .load ⟨"easyprivacy", true, 1002, 1003, .ok "||tracker.test^"⟩, .evict "easyprivacy"]
    let c : Load := ⟨"easylist", false, 9000, 9001, .error (.status 503)⟩
    let h := History.after s ⟨{}, []⟩ calls
    Disk.IsEmptyAt {} s.cacheDir ∧ (∀ call ∈ calls, '/' ∉ call.id.toList) ∧
      History.saves s ⟨{}, []⟩ calls = true ∧ '/' ∉ c.id.toList ∧ s.ServesNewest h c ∧
      (c.run s h.disk).2 = .ok ⟨"||ads.net^", 1001, true⟩ := by
  intro s calls c h
  have hempty : Disk.IsEmptyAt {} s.cacheDir := isEmptyAt_of_entries rfl s.cacheDir
  have hids : ∀ call ∈ calls, '/' ∉ call.id.toList := by decide +kernel
  have hsaves : History.saves s ⟨{}, []⟩ calls = true := by decide +kernel
  have hc : '/' ∉ c.id.toList := by decide
  exact ⟨hempty, hids, hsaves, hc, serves_newest hempty hids hsaves hc, by decide +kernel⟩

end ContentBlocking.ListSource
