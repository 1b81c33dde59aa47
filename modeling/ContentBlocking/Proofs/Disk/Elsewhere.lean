import ContentBlocking.Config
import ContentBlocking.FilterList.Registry
import ContentBlocking.FilterList.Source
import ContentBlocking.Proofs.Disk.Paths
import ContentBlocking.Settings
import ContentBlocking.Statistics

/-!
# Files that are kept elsewhere

The settings, the statistics, the registry and the copies of the lists are kept in
files with names of their own, so that none is lost when another one is written. The
copy of a list is named by the identifier of the list, and keeps to the cache as long
as that has no slash.

* `Elsewhere`: neither a file nor its draft is at a place;
* `ListSource.Elsewhere`: nor is the copy of a list;
* `Config.elsewhere_of_mem`: the files of a service are not in the way of each other;
* `Config.elsewhere_of_slash`: and neither are copies of lists without a slash.
-/

namespace ContentBlocking

open Disk ContentBlocking.Path

variable {place : Place} {d : Disk}

/-- Neither the file at the path nor its draft is at the place. -/
structure Elsewhere (place : Place) (path : String) : Prop where
  file : placeOf path ≠ place
  draft : placeOf (draftPath path) ≠ place

theorem spares_writeJson {path : String} (h : Elsewhere place path) (d : Disk) (value : Json) :
    Spares place d (d.writeJson path value).1 := spares_writeWhole h.draft h.file d value.indented

/-! ### Settings and statistics -/

theorem SettingsStore.spares_change {s : SettingsStore} (h : Elsewhere place s.path) (d : Disk)
    (change : Settings → Settings) : Spares place d (s.change d change).2 :=
  spares_writeJson h d _

theorem StatisticsTracker.spares_save {t : StatisticsTracker} (h : Elsewhere place t.path)
    (d : Disk) : Spares place d (t.save d) := spares_writeJson h d _

/-! ### Copies of lists -/

namespace ListSource

/-- The copy of the list is not at the place. -/
structure Elsewhere (source : ListSource) (place : Place) (id : String) : Prop where
  text : placeOf (source.textPath id) ≠ place
  time : placeOf (source.timePath id) ≠ place

variable {source : ListSource} {id : String}

theorem spares_store (h : source.Elsewhere place id) (d : Disk) (text : String) (time : UInt64) :
    Spares place d (source.store d id text time) := by
  have hdirs := spares_makeDirs place d source.cacheDir
  rw [store]
  split
  · next d₁ heq =>
    rw [heq] at hdirs
    exact hdirs
  · next d₁ heq =>
    rw [heq] at hdirs
    have htext := hdirs.trans (spares_write h.text d₁ text)
    split
    · next d₂ heq =>
      rw [heq] at htext
      exact htext
    · next d₂ heq =>
      rw [heq] at htext
      exact htext.trans (spares_write h.time d₂ _)

theorem spares_finish (h : source.Elsewhere place id) (d : Disk) (now : UInt64)
    (copy : Option FetchedList) (reply : FetchReply) :
    Spares place d (source.finish d now id copy reply).1 := by
  cases reply with
  | ok text => exact spares_store h d text now
  | error e => cases copy <;> exact spares_refl place d

theorem spares_evict (h : source.Elsewhere place id) (d : Disk) :
    Spares place d (source.evict d id) :=
  (spares_remove h.text d).trans (spares_remove h.time _)

end ListSource

/-! ### The registry -/

namespace Registry

variable {r : Registry}

theorem spares_save (h : Elsewhere place r.path) (d : Disk) : Spares place d (r.save d) := by
  rw [save]
  split
  · exact spares_refl place d
  · exact spares_writeJson h d _

/-- What a change keeps of a list, such as its identifier, is kept of all lists. -/
theorem map_changeFirst {α : Type} {f : FilterList → α} (id : String)
    {change : FilterList → FilterList} (hc : ∀ l, f (change l) = f l) (lists : List FilterList) :
    (changeFirst id change lists).map f = lists.map f := by
  induction lists with
  | nil => rfl
  | cons l lists ih =>
    rw [changeFirst]
    split
    · simp [hc]
    · simp [ih]

/-- What a change of the registry does: the file at the place stays, the path too, and
    there are no new identifiers but the given one. -/
structure Changes (place : Place) (r : Registry) (d : Disk) (added : Option String)
    (r' : Registry) (d' : Disk) : Prop where
  spares : Spares place d d'
  path : r'.path = r.path
  ids : ∀ id ∈ r'.lists.map (·.id), id ∈ r.lists.map (·.id) ∨ added = some id

theorem changes_refl (r : Registry) (d : Disk) (added : Option String) :
    r.Changes place d added r d := ⟨spares_refl place d, rfl, fun _ => .inl⟩

theorem changes_save (h : Elsewhere place r.path) (d : Disk) {lists : List FilterList}
    {added : Option String}
    (hids : ∀ id ∈ lists.map (·.id), id ∈ r.lists.map (·.id) ∨ added = some id) :
    r.Changes place d added { r with lists := lists } (save { r with lists := lists } d) :=
  ⟨spares_save (r := { r with lists := lists }) h d, rfl, hids⟩

theorem changes_changeFirst (h : Elsewhere place r.path) (d : Disk) (id : String)
    {change : FilterList → FilterList} (hc : ∀ l, (change l).id = l.id) :
    let r' : Registry := { r with lists := changeFirst id change r.lists }
    r.Changes place d none r' (r'.save d) := by
  refine changes_save h d fun id' hid' => ?_
  rw [map_changeFirst id hc] at hid'
  exact .inl hid'

theorem changes_setEnabled (h : Elsewhere place r.path) (d : Disk) (id : String) (enabled : Bool) :
    r.Changes place d none (r.setEnabled d id enabled).1 (r.setEnabled d id enabled).2.1 := by
  rw [setEnabled]
  split
  · exact changes_refl r d none
  · split
    · exact changes_refl r d none
    · exact changes_changeFirst h d id fun _ => rfl

theorem changes_markUpdated (h : Elsewhere place r.path) (d : Disk) (id : String)
    (time : UInt64) :
    r.Changes place d none (r.markUpdated d id time).1 (r.markUpdated d id time).2 := by
  rw [markUpdated]
  split
  · exact changes_refl r d none
  · split
    · exact changes_refl r d none
    · exact changes_changeFirst h d id fun _ => rfl

/-- A list that is added is named after its URL. -/
theorem changes_add (h : Elsewhere place r.path) (d : Disk) (name url : String) :
    ∃ normal, r.Changes place d (some (FilterList.customId normal)) (r.add d name url).1
      (r.add d name url).2.1 := by
  rw [add]
  split
  · exact ⟨url, changes_refl r d _⟩
  · next normal _ =>
    refine ⟨normal, ?_⟩
    split
    · exact changes_refl r d _
    · refine changes_save h d fun id hid => ?_
      rw [List.map_append] at hid
      rcases List.mem_append.1 hid with hid | hid
      · exact .inl hid
      · exact .inr (congrArg some (List.mem_singleton.1 hid).symm)

theorem changes_remove (h : Elsewhere place r.path) (d : Disk) (id : String) :
    r.Changes place d none (r.remove d id).1 (r.remove d id).2.1 := by
  rw [remove]
  split
  · exact changes_refl r d none
  · split
    · exact changes_refl r d none
    · refine changes_save h d fun id' hid' => .inl ?_
      exact ((List.eraseP_sublist).map _).subset hid'

/-- A list that is removed was in the registry. -/
theorem mem_of_remove {id : String} {list : FilterList}
    (h : (r.remove d id).2.2 = .ok list) : list.id ∈ r.lists.map (·.id) := by
  rw [remove] at h
  split at h
  · cases h
  · next found hfound =>
    split at h
    · cases h
    · obtain rfl := Except.ok.inj h
      exact List.mem_map_of_mem (List.mem_of_find?_eq_some hfound)

end Registry

/-! ### Names -/

theorem slash_not_mem_toDigits (n : Nat) : '/' ∉ Nat.toDigits 16 n := by
  have hcore (fuel n : Nat) (digits : List Char) (h : '/' ∉ digits) :
      '/' ∉ Nat.toDigitsCore 16 fuel n digits := by
    induction fuel generalizing n digits with
    | zero => exact h
    | succ fuel ih =>
      have hdigit : '/' ∉ Nat.digitChar (n % 16) :: digits := by
        refine List.not_mem_cons_of_ne_of_not_mem (Ne.symm ?_) h
        exact Nat.digitChar_ne '/' (by decide)
      rw [Nat.toDigitsCore]
      split
      · exact hdigit
      · exact ih _ _ hdigit
  exact hcore _ n [] List.not_mem_nil

theorem slash_not_mem_customId (url : String) : '/' ∉ (FilterList.customId url).toList := by
  have hhex : '/' ∉ (Fingerprint.hex url).toList := by
    rw [Fingerprint.hex, Fingerprint.padHex, String.toList_ofList, List.mem_append,
      List.mem_replicate]
    rintro (⟨-, h⟩ | h)
    · exact absurd h (by decide)
    · exact slash_not_mem_toDigits _ h
  rw [FilterList.customId, String.toList_append, List.mem_append]
  exact not_or_intro (by decide) hhex

/-- A file in the same directory, and with another name. -/
theorem elsewhere_join {directory name name' : String} (h : IsFileName name)
    (hdraft : IsFileName (draftName name)) (h' : IsFileName name') (hne : name ≠ name')
    (hne' : draftName name ≠ name') :
    Elsewhere (placeOf (join directory name')) (join directory name) where
  file := placeOf_join_ne h h' hne
  draft := by
    rw [draftPath_join h hdraft]
    exact placeOf_join_ne hdraft h' hne'

namespace Config

/-- The names of the files in the data directory. -/
def fileNames : List String :=
  ["settings.json", "statistics.json", "filter_lists.json", "artifacts.json"]

theorem isFileName_of_mem {name : String} (h : name ∈ fileNames) :
    IsFileName name ∧ IsFileName (draftName name) ∧ draftName name ∉ fileNames := by
  revert name
  decide

/-- The files in the data directory are not in the way of each other. -/
theorem elsewhere_of_mem {directory name name' : String} (h : name ∈ fileNames)
    (h' : name' ∈ fileNames) (hne : name ≠ name') :
    Elsewhere (placeOf (join directory name')) (join directory name) := by
  obtain ⟨hname, hdraft, hnot⟩ := isFileName_of_mem h
  exact elsewhere_join hname hdraft (isFileName_of_mem h').1 hne fun heq => hnot (heq ▸ h')

variable (c : Config)

theorem elsewhere_settingsPath : Elsewhere (placeOf c.artifactsPath) c.settingsPath :=
  elsewhere_of_mem (by decide) (by decide) (by decide)

theorem elsewhere_statisticsPath : Elsewhere (placeOf c.artifactsPath) c.statisticsPath :=
  elsewhere_of_mem (by decide) (by decide) (by decide)

theorem elsewhere_filterListsPath : Elsewhere (placeOf c.artifactsPath) c.filterListsPath :=
  elsewhere_of_mem (by decide) (by decide) (by decide)

/-- The copy of a list stays in the cache if the identifier of the list has no slash. -/
theorem elsewhere_of_slash (ttl : Nat) {id name : String} (h : '/' ∉ id.toList)
    (hname : name ∈ fileNames) :
    ListSource.Elsewhere ⟨c.cacheDir, ttl⟩ (placeOf (join c.dataDir name)) id where
  text := placeOf_join_join_ne (by decide) (.append h (by decide)) (isFileName_of_mem hname).1
  time := placeOf_join_join_ne (by decide) (.append h (by decide)) (isFileName_of_mem hname).1

end Config

end ContentBlocking
