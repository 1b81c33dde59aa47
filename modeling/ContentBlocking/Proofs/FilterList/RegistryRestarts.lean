import ContentBlocking.Proofs.Disk.Elsewhere
import ContentBlocking.Proofs.KeptFiles

/-!
# Registries that are opened again

A registry begins with the built-in lists. What follows was added, and is named after
its URL. No two lists share an identifier or a URL. The edits keep it so, and a registry
that is opened again from its file is the one that was written there: the built-in lists
take from the file whether they are enabled and when they were downloaded, and the others
are taken as they are.

* `Registry.IsSound`: the lists in such an order;
* `Registry.isSound_edit`: an edit keeps them so;
* `Registry.ofStored_eq`: sound lists are restored as they were stored;
* `Registry.sound_after_restarts`: what holds after any edits and restarts.
-/

namespace ContentBlocking

/-- A list without what may change after it was added. -/
def FilterList.core (l : FilterList) : FilterList :=
  { l with isEnabled := false, lastUpdated := none }

theorem FilterList.core_eq_iff {l l' : FilterList} : l.core = l'.core ↔
    l.id = l'.id ∧ l.name = l'.name ∧ l.url = l'.url ∧ l.isBuiltIn = l'.isBuiltIn := by
  simp [core]

namespace Registry

/-! ### Sound lists -/

/-- The built-in lists come first, in their order and under their names and URLs. The
    others are not built in and are named after their URLs. -/
structure IsSound (lists : List FilterList) : Prop where
  builtIn : (lists.take FilterList.builtIn.length).map FilterList.core =
    FilterList.builtIn.map FilterList.core
  custom : ∀ l ∈ lists.drop FilterList.builtIn.length,
    l.isBuiltIn = false ∧ l.id = FilterList.customId l.url
  ids : (lists.map (·.id)).Nodup
  urls : (lists.map (·.url)).Nodup

variable {lists lists' : List FilterList} {l : FilterList} {r : Registry} {d : Disk}
  {urls : UrlReader}
  {path : String}

theorem isSound_builtIn : IsSound FilterList.builtIn where
  builtIn := rfl
  custom := nofun
  ids := by decide +kernel
  urls := by decide +kernel

theorem nodup_map_append {α : Type} {f : FilterList → α} (h : (lists.map f).Nodup)
    (hne : ∀ l' ∈ lists, f l' ≠ f l) : ((lists ++ [l]).map f).Nodup := by
  rw [List.map_append, List.map_singleton]
  refine h.append (List.nodup_singleton _) (List.disjoint_singleton.2 fun hmem => ?_)
  obtain ⟨l', hl', hsame⟩ := List.mem_map.1 hmem
  exact hne l' hl' hsame

/-- A list is found by its identifier, if no other one has it. -/
theorem find?_eq_of_mem (hids : (lists.map (·.id)).Nodup) (hl : l ∈ lists) {id : String}
    (hid : l.id = id) : lists.find? (·.id == id) = some l := by
  obtain ⟨first, hfirst⟩ : ∃ first, lists.find? (·.id == id) = some first := by
    refine Option.isSome_iff_exists.1 (List.find?_isSome.2 ⟨l, hl, ?_⟩)
    exact beq_iff_eq.2 hid
  have hsame : first.id = id := by simpa using List.find?_some hfirst
  rw [hfirst, List.inj_on_of_nodup_map hids (List.mem_of_find?_eq_some hfirst) hl
    (hsame.trans hid.symm)]

namespace IsSound

theorem length_le (h : IsSound lists) : FilterList.builtIn.length ≤ lists.length := by
  have hlength := congrArg List.length h.builtIn
  rw [List.length_map, List.length_map, List.length_take] at hlength
  exact min_eq_left_iff.1 hlength

theorem isBuiltIn_of_mem_take (h : IsSound lists)
    (hl : l ∈ lists.take FilterList.builtIn.length) : l.isBuiltIn = true := by
  have hmem : l.core ∈ FilterList.builtIn.map FilterList.core :=
    h.builtIn ▸ List.mem_map_of_mem hl
  obtain ⟨b, hb, hcore⟩ := List.mem_map.1 hmem
  have hall : ∀ b ∈ FilterList.builtIn, b.isBuiltIn = true := by decide +kernel
  obtain ⟨-, -, -, hsame⟩ := FilterList.core_eq_iff.1 hcore
  exact hsame ▸ hall b hb

/-- Whether lists are sound depends on their cores only. -/
theorem of_map_core (h : IsSound lists)
    (hcore : lists'.map FilterList.core = lists.map FilterList.core) : IsSound lists' where
  builtIn := by rw [List.map_take, hcore, ← List.map_take, h.builtIn]
  custom l hl := by
    have hmem : l.core ∈ (lists.drop FilterList.builtIn.length).map FilterList.core := by
      rw [List.map_drop, ← hcore, ← List.map_drop]
      exact List.mem_map_of_mem hl
    obtain ⟨l₀, hl₀, hsame⟩ := List.mem_map.1 hmem
    obtain ⟨hid, -, hurl, hbuiltIn⟩ := FilterList.core_eq_iff.1 hsame
    rw [← hid, ← hurl, ← hbuiltIn]
    exact h.custom l₀ hl₀
  ids := by
    have hids : lists'.map (·.id) = lists.map (·.id) := by
      simpa [Function.comp_def, FilterList.core] using congrArg (List.map (·.id)) hcore
    exact hids ▸ h.ids
  urls := by
    have hurls : lists'.map (·.url) = lists.map (·.url) := by
      simpa [Function.comp_def, FilterList.core] using congrArg (List.map (·.url)) hcore
    exact hurls ▸ h.urls

theorem changeFirst (h : IsSound lists) (id : String) {change : FilterList → FilterList}
    (hchange : ∀ l, (change l).core = l.core) : IsSound (changeFirst id change lists) :=
  h.of_map_core (map_changeFirst id hchange lists)

/-- A list that is named after its URL is added, when neither is taken. -/
theorem append (h : IsSound lists) (hbuiltIn : l.isBuiltIn = false)
    (hid : l.id = FilterList.customId l.url)
    (hfree : ∀ l' ∈ lists, l'.id ≠ l.id ∧ l'.url ≠ l.url) : IsSound (lists ++ [l]) where
  builtIn := by rw [List.take_append_of_le_length h.length_le, h.builtIn]
  custom l' hl' := by
    rw [List.drop_append_of_le_length h.length_le] at hl'
    rcases List.mem_append.1 hl' with hl' | hl'
    · exact h.custom l' hl'
    · obtain rfl := List.mem_singleton.1 hl'
      exact ⟨hbuiltIn, hid⟩
  ids := nodup_map_append h.ids fun l' hl' => (hfree l' hl').1
  urls := nodup_map_append h.urls fun l' hl' => (hfree l' hl').2

/-- The first list with an identifier is removed, when it is not built in. -/
theorem eraseP (h : IsSound lists) {id : String} (hfound : lists.find? (·.id == id) = some l)
    (hbuiltIn : l.isBuiltIn = false) : IsSound (lists.eraseP (·.id == id)) := by
  set n := FilterList.builtIn.length with hn
  have hnone : ∀ l' ∈ lists.take n, ¬(l'.id == id) = true := by
    intro l' hl' hid
    have hfirst := find?_eq_of_mem h.ids (List.mem_of_mem_take hl') (beq_iff_eq.1 hid)
    rw [hfirst] at hfound
    rw [← Option.some.inj hfound, h.isBuiltIn_of_mem_take hl'] at hbuiltIn
    cases hbuiltIn
  have hlength : n = (lists.take n).length := by
    rw [List.length_take, Nat.min_eq_left h.length_le]
  have herase : lists.eraseP (·.id == id) = lists.take n ++ (lists.drop n).eraseP (·.id == id) := by
    conv_lhs => rw [← List.take_append_drop n lists]
    exact List.eraseP_append_right _ hnone
  refine ⟨?_, fun l' hl' => ?_, h.ids.sublist (List.eraseP_sublist.map _),
    h.urls.sublist (List.eraseP_sublist.map _)⟩
  · rw [herase, ← hn, List.take_left' hlength.symm, h.builtIn]
  · rw [herase, ← hn, List.drop_left' hlength.symm] at hl'
    exact h.custom l' (List.eraseP_subset hl')

end IsSound

theorem isSound_edit (h : IsSound r.lists) (d : Disk) (e : Edit) :
    IsSound (r.edit d e).1.lists := by
  rcases e with ⟨name, url⟩ | id | ⟨id, enabled⟩ | ⟨id, time⟩
  · simp only [edit, add]
    split
    · exact h
    · next normal _ =>
      split
      · exact h
      · next hfree =>
        refine h.append (l := .custom name normal) rfl rfl fun l hl => ?_
        have hl := List.any_eq_false.1 (Bool.eq_false_iff.2 hfree) l hl
        simpa [FilterList.custom] using hl
  · simp only [edit, remove]
    split
    · exact h
    · next hfound =>
      split
      · exact h
      · next hbuiltIn => exact h.eraseP hfound (Bool.eq_false_iff.2 hbuiltIn)
  · simp only [edit, setEnabled]
    split
    · exact h
    · split
      · exact h
      · exact h.changeFirst id fun _ => rfl
  · simp only [edit, markUpdated]
    split
    · exact h
    · split
      · exact h
      · exact h.changeFirst id fun _ => rfl

/-! ### Restored lists -/

/-- A built-in list is restored from the list with its core. -/
theorem restored_eq (hids : (lists.map (·.id)).Nodup) (hl : l ∈ lists) {b : FilterList}
    (hcore : l.core = b.core) : restored lists b = l := by
  obtain ⟨hid, hname, hurl, hbuiltIn⟩ := FilterList.core_eq_iff.1 hcore
  rw [restored, find?_eq_of_mem hids hl hid]
  simp only [← hid, ← hname, ← hurl, ← hbuiltIn]

theorem map_restored_eq (hids : (lists.map (·.id)).Nodup) {front known : List FilterList}
    (hcore : front.map FilterList.core = known.map FilterList.core)
    (hmem : ∀ l ∈ front, l ∈ lists) : known.map (restored lists) = front := by
  induction front generalizing known with
  | nil => rw [List.map_eq_nil_iff.1 hcore.symm, List.map_nil]
  | cons l front ih =>
    obtain ⟨b, known, rfl, hb, hknown⟩ := List.map_eq_cons_iff.1 hcore.symm
    rw [List.map_cons, restored_eq hids (hmem l List.mem_cons_self) hb.symm,
      ih hknown.symm fun l' hl' => hmem l' (List.mem_cons_of_mem l hl')]

/-- Sound lists are restored as they were stored. -/
theorem ofStored_eq (h : IsSound lists) : ofStored lists = lists := by
  have hfront : FilterList.builtIn.map (restored lists) = lists.take FilterList.builtIn.length :=
    map_restored_eq h.ids h.builtIn fun _ => List.mem_of_mem_take
  have hnone : (lists.take FilterList.builtIn.length).filter (fun l => !l.isBuiltIn) = [] := by
    refine List.filter_eq_nil_iff.2 fun l hl => ?_
    rw [h.isBuiltIn_of_mem_take hl]
    decide
  have hall : (lists.drop FilterList.builtIn.length).filter (fun l => !l.isBuiltIn) =
      lists.drop FilterList.builtIn.length := by
    refine List.filter_eq_self.2 fun l hl => ?_
    rw [(h.custom l hl).1]
    rfl
  calc ofStored lists
      = lists.take FilterList.builtIn.length ++
          (lists.take FilterList.builtIn.length ++ lists.drop FilterList.builtIn.length).filter
            fun l => !l.isBuiltIn := by rw [ofStored, hfront, List.take_append_drop]
    _ = lists.take FilterList.builtIn.length ++ lists.drop FilterList.builtIn.length := by
      rw [List.filter_append, hnone, List.nil_append, hall]
    _ = lists := List.take_append_drop _ _

/-- A registry is opened from the file that has its lists. -/
theorem ofDisk_of_read (h : IsSound lists) (hread : d.read path = .ok (toJson lists).indented)
    (urls : UrlReader) : (ofDisk d path urls).1 = ⟨path, lists, urls⟩ := by
  have hstored := Disk.readJson_of_read hread (isPlain_toJson lists) (list?_toJson lists)
  simp only [ofDisk, hstored, ofStored_eq h]

theorem ofDisk_of_missing (h : d.read path = .error .missing) (urls : UrlReader) :
    (ofDisk d path urls).1 = ⟨path, FilterList.builtIn, urls⟩ := by
  have hstored : d.readJson path (Json.list? FilterList.ofJson?) = .ok none := by
    rw [Disk.readJson, h]
  simp only [ofDisk, hstored]
  rfl

/-! ### Edits and restarts -/

/-- The call gives a failure. -/
def refuses (r : Registry) (d : Disk) : Edit → Bool
  | .add name url => !(r.add d name url).2.2.isOk
  | .remove id => !(r.remove d id).2.2.isOk
  | .setEnabled id enabled => !(r.setEnabled d id enabled).2.2.isOk
  | .markUpdated _ _ => false

/-- What happens to a registry. -/
inductive Action where
  | edit (e : Edit)
  /-- The registry is opened again at its path. -/
  | reopen

/-- The registry and the disk after something has happened. -/
def act (s : Registry × Disk) : Action → Registry × Disk
  | .edit e => s.1.edit s.2 e
  | .reopen => ofDisk s.2 s.1.path s.1.urls

/-- The registry is opened at a path, then all of it happens. -/
def afterActions (d : Disk) (path : String) (urls : UrlReader) (actions : List Action) :
    Registry × Disk :=
  actions.foldl act (ofDisk d path urls)

/-- The lists can be written to their file. There is none at the empty path. -/
def canSave (r : Registry) (d : Disk) : Bool := (d.writeJson r.path (toJson r.lists)).2.isOk

/-- What is to be written can be. -/
def saves (s : Registry × Disk) : Action → Bool
  | .edit e => !s.1.changedBy e || (s.1.edit s.2 e).1.canSave s.2
  | .reopen => (ofDisk s.2 s.1.path s.1.urls).1.canSave s.2

/-- All that is to be written can be, from a registry on. -/
def savesAll (s : Registry × Disk) : List Action → Bool
  | [] => true
  | a :: actions => saves s a && savesAll (act s a) actions

theorem edit_of_refuses {e : Edit} (h : r.refuses d e = true) : r.edit d e = (r, d) := by
  rcases e with ⟨name, url⟩ | id | ⟨id, enabled⟩ | ⟨id, time⟩
  · simp only [refuses, edit, add] at h ⊢
    split
    · rfl
    · next hnormal =>
      rw [hnormal] at h
      split
      · rfl
      · next hfree => simp [hfree, Except.isOk, Except.toBool] at h
  · simp only [refuses, edit, remove] at h ⊢
    split
    · rfl
    · next hfound =>
      rw [hfound] at h
      split
      · rfl
      · next hbuiltIn => simp [hbuiltIn, Except.isOk, Except.toBool] at h
  · simp only [refuses, edit, setEnabled] at h ⊢
    split
    · rfl
    · next list hfound =>
      by_cases hsame : list.isEnabled = enabled
      · rw [if_pos hsame]
      · simp [hfound, hsame, Except.isOk, Except.toBool] at h
  · cases h

/-- The registry is sound, and its lists are in its file. -/
structure IsWritten (path : String) (urls : UrlReader) (s : Registry × Disk) : Prop where
  isAt : s.1.path = path
  reads : s.1.urls = urls
  sound : IsSound s.1.lists
  read : s.2.read path = .ok (toJson s.1.lists).indented

theorem read_save (h : r.canSave d = true) :
    (r.save d).read r.path = .ok (toJson r.lists).indented := by
  have hread := Disk.read_of_writeJson h
  have hpath : r.path.isEmpty = false := by
    refine Bool.eq_false_iff.2 fun hempty => ?_
    rw [Disk.read, Disk.find, if_pos hempty] at hread
    cases hread
  rw [save_eq, hpath]
  exact hread

theorem isWritten_save (hsound : IsSound r.lists) (h : r.canSave d = true) :
    IsWritten r.path r.urls (r, r.save d) := ⟨rfl, rfl, hsound, read_save h⟩

theorem IsWritten.act {s : Registry × Disk} (h : IsWritten path urls s) {a : Action}
    (hsaves : saves s a = true) : IsWritten path urls (act s a) := by
  obtain ⟨r, d⟩ := s
  obtain ⟨rfl, rfl, hsound, hread⟩ := h
  rcases a with e | _
  · have hedited := isSound_edit hsound d e
    simp only [Registry.act, saves] at hsaves ⊢
    rcases r.edit_cases e with ⟨-, hedit⟩ | ⟨hchanged, lists, hedit⟩
    · rw [hedit]
      exact ⟨rfl, rfl, hsound, hread⟩
    · rw [hedit] at hedited hsaves ⊢
      rw [hchanged] at hsaves
      exact isWritten_save hedited hsaves
  · have hopened := ofDisk_of_read hsound hread r.urls
    have hsaves : (ofDisk d r.path r.urls).1.canSave d = true := hsaves
    show IsWritten r.path r.urls ((ofDisk d r.path r.urls).1, (ofDisk d r.path r.urls).1.save d)
    rw [hopened] at hsaves ⊢
    exact isWritten_save hsound hsaves

theorem IsWritten.foldl_act {s : Registry × Disk} (h : IsWritten path urls s)
    {actions : List Action} (hsaves : savesAll s actions = true) :
    IsWritten path urls (actions.foldl Registry.act s) := by
  induction actions generalizing s with
  | nil => exact h
  | cons a actions ih =>
    obtain ⟨hfirst, hrest⟩ := Bool.and_eq_true_iff.1 hsaves
    exact ih (h.act hfirst) hrest

/-- A registry is opened where there is no file, edited and opened again, in any order, and
    all that is to be written can be. Then it is sound, opening it again gives the same
    registry, and a call that fails changes neither the lists nor the disk. -/
theorem sound_after_restarts (hmissing : d.read path = .error .missing)
    (hopening : (ofDisk d path urls).1.canSave d = true) {actions : List Action}
    (hsaves : savesAll (ofDisk d path urls) actions = true) :
    let s := afterActions d path urls actions
    IsSound s.1.lists ∧ (ofDisk s.2 path urls).1 = s.1 ∧
      ∀ e, s.1.refuses s.2 e = true → s.1.edit s.2 e = s := by
  intro s
  have hopened : IsWritten path urls (ofDisk d path urls) := by
    have hfirst := ofDisk_of_missing hmissing urls
    show IsWritten path urls ((ofDisk d path urls).1, (ofDisk d path urls).1.save d)
    rw [hfirst] at hopening ⊢
    exact isWritten_save isSound_builtIn hopening
  obtain ⟨hpath, hurls, hsound, hread⟩ : IsWritten path urls s := hopened.foldl_act hsaves
  refine ⟨hsound, ?_, fun e => edit_of_refuses⟩
  rw [ofDisk_of_read hsound hread, ← hpath, ← hurls]

/-- A built-in list is disabled and a list without a name is added, before the registry is
    opened again. -/
theorem sound_after_restarts_reopened :
    let d : Disk := {}
    let path := "filter_lists.json"
    let actions : List Action := [.edit (.setEnabled "easylist" false),
      .edit (.add "" "https://lists.example.org/a.txt"), .reopen]
    let s := afterActions d path Url.reader actions
    d.read path = .error .missing ∧ (ofDisk d path Url.reader).1.canSave d = true ∧
      savesAll (ofDisk d path Url.reader) actions = true ∧ IsSound s.1.lists ∧
      (ofDisk s.2 path Url.reader).1 = s.1 ∧
        ∀ e, s.1.refuses s.2 e = true → s.1.edit s.2 e = s := by
  intro d path actions s
  have hmissing : d.read path = .error .missing := by decide +kernel
  have hopening : (ofDisk d path Url.reader).1.canSave d = true := by decide +kernel
  have hsaves : savesAll (ofDisk d path Url.reader) actions = true := by decide +kernel
  exact ⟨hmissing, hopening, hsaves, sound_after_restarts hmissing hopening hsaves⟩

end Registry

end ContentBlocking
