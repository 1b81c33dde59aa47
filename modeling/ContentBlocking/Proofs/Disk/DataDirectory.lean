import ContentBlocking.Proofs.Disk.Elsewhere
import ContentBlocking.Proofs.KeptFiles

/-!
# The data directory

The directory is empty before the first start. Then it gets the files of the settings,
of the counts and of the lists, each of which is written by its own store alone, and
whatever else is written there leaves them alone. So the total of blocked requests that
is read at the next start is the one that was written last.

* `Disk.IsEmptyAt`: nothing in the directory has a name;
* `SparesStores`: the files of the stores are left alone;
* `KeepsTotal`: what the files of the counts and of the lists hold;
* `KeepsTotal.totalBlocked_ofDisk`: the total that is read from the counts.
-/

namespace ContentBlocking

open Disk ContentBlocking.Path

variable {d d' : Disk} {directory name : String} {total : UInt64}

/-! ### Empty directories -/

/-- Nothing in the directory has a name. -/
def Disk.IsEmptyAt (d : Disk) (directory : String) : Prop :=
  ∀ name, IsFileName name → d.look (placeOf (join directory name)) = none

theorem Disk.IsEmptyAt.textAt (h : d.IsEmptyAt directory) (hname : IsFileName name) :
    d.textAt (join directory name) = none := by
  rw [Disk.textAt, h name hname]

/-- On an empty disk every directory is empty. -/
theorem Disk.isEmptyAt_of_entries (h : d.entries = []) (directory : String) :
    d.IsEmptyAt directory := by
  intro name hname
  obtain ⟨place, hplace⟩ := exists_placeOf_join directory
  rw [hplace name hname, look, h, if_neg]
  · rfl
  · rintro (habove | hroot)
    · rw [isAbove, List.all_append, Bool.and_eq_true] at habove
      have hdots : name = ".." := by simpa using habove.2
      exact hname.not_dots.2 (hdots ▸ rfl)
    · have hroot : name = "/" := by simpa using congrArg List.getLast? hroot
      exact hname.slash (hroot ▸ by decide)

/-! ### Files of stores -/

/-- The files of the settings, of the counts and of the lists in the directory are left
    alone. -/
def SparesStores (directory : String) (d d' : Disk) : Prop :=
  ∀ name ∈ Config.fileNames, name ≠ "artifacts.json" → Spares (placeOf (join directory name)) d d'

theorem sparesStores_refl (directory : String) (d : Disk) : SparesStores directory d d :=
  fun _ _ _ => spares_refl _ d

theorem sparesStores_writeManifest (d : Disk) (directory : String) (m : Manifest) :
    SparesStores directory d (m.save d (join directory "artifacts.json")).1 :=
  fun _ hmem hne =>
    spares_writeJson (Config.elsewhere_of_mem (by decide) hmem hne.symm) d m.toJson

/-- The file of the counts holds some with this total, or there is none and nothing was
    blocked. If there is a file of lists, it holds lists with identifiers that have no
    slash. -/
structure KeepsTotal (directory : String) (total : UInt64) (d : Disk) : Prop where
  counts : (d.textAt (join directory "statistics.json") = none ∧ total = 0) ∨
    ∃ stored : Statistics, stored.domains.IsAscending ∧ stored.totalBlocked = total ∧
      d.read (join directory "statistics.json") = .ok stored.toJson.indented
  lists : ∀ text, d.textAt (join directory "filter_lists.json") = some text →
    ∃ lists : List FilterList, text = (Registry.toJson lists).indented ∧
      ∀ l ∈ lists, '/' ∉ l.id.toList

theorem keepsTotal_of_isEmptyAt (h : d.IsEmptyAt directory) : KeepsTotal directory 0 d where
  counts := .inl ⟨h.textAt (by decide), rfl⟩
  lists text htext := by
    rw [h.textAt (by decide)] at htext
    cases htext

namespace KeepsTotal

/-! ### What is written -/

theorem counts_of_spares (h : KeepsTotal directory total d)
    (hspares : Spares (placeOf (join directory "statistics.json")) d d') :
    (d'.textAt (join directory "statistics.json") = none ∧ total = 0) ∨
      ∃ stored : Statistics, stored.domains.IsAscending ∧ stored.totalBlocked = total ∧
        d'.read (join directory "statistics.json") = .ok stored.toJson.indented := by
  rcases h.counts with ⟨hnone, htotal⟩ | ⟨stored, hdomains, htotal, hread⟩
  · exact .inl ⟨hspares.textAt.trans hnone, htotal⟩
  · exact .inr ⟨stored, hdomains, htotal, hspares.read hread⟩

theorem spares (h : KeepsTotal directory total d) (hspares : SparesStores directory d d') :
    KeepsTotal directory total d' where
  counts := h.counts_of_spares (hspares _ (by decide) (by decide))
  lists := (hspares "filter_lists.json" (by decide) (by decide)).textAt ▸ h.lists

theorem writeSettings (h : KeepsTotal directory total d) (value : Json) :
    KeepsTotal directory total (d.writeJson (join directory "settings.json") value).1 := by
  have hspares (name : String) (hmem : name ∈ Config.fileNames) (hne : "settings.json" ≠ name) :
      Spares (placeOf (join directory name)) d
        (d.writeJson (join directory "settings.json") value).1 :=
    spares_writeJson (Config.elsewhere_of_mem (by decide) hmem hne) d value
  exact ⟨h.counts_of_spares (hspares _ (by decide) (by decide)),
    (hspares "filter_lists.json" (by decide) (by decide)).textAt ▸ h.lists⟩

/-- The counts are written with a new total. -/
theorem writeCounts (h : KeepsTotal directory total d) {t : StatisticsTracker}
    (hgood : t.IsGood (join directory "statistics.json"))
    (hsaves : (d.writeJson t.path t.snapshot.toJson).2.isOk = true) :
    KeepsTotal directory t.totalBlocked (t.save d) := by
  have hread := read_of_writeJson hsaves
  rw [hgood.path] at hread
  refine ⟨.inr ⟨t.snapshot, hgood.domains, rfl, ?_⟩, ?_⟩
  · rw [StatisticsTracker.save, hgood.path]
    exact hread
  · have helsewhere : Elsewhere (placeOf (join directory "filter_lists.json")) t.path :=
      hgood.path ▸ Config.elsewhere_of_mem (by decide) (by decide) (by decide)
    exact (StatisticsTracker.spares_save helsewhere d).textAt ▸ h.lists

/-- The lists are written, as far as that is possible. -/
theorem writeLists (h : KeepsTotal directory total d) {r : Registry}
    (hpath : r.path = join directory "filter_lists.json")
    (hslash : ∀ l ∈ r.lists, '/' ∉ l.id.toList) : KeepsTotal directory total (r.save d) := by
  have helsewhere : Elsewhere (placeOf (join directory "statistics.json")) r.path :=
    hpath ▸ Config.elsewhere_of_mem (by decide) (by decide) (by decide)
  refine ⟨h.counts_of_spares (Registry.spares_save helsewhere d), fun text htext => ?_⟩
  rw [Registry.save_eq, hpath] at htext
  split at htext
  · rcases textAt_writeJson d (join directory "filter_lists.json") (Registry.toJson r.lists) with
      hnew | hold
    · rw [hnew] at htext
      exact ⟨r.lists, (Option.some.inj htext).symm, hslash⟩
    · exact h.lists text (hold ▸ htext)
  · exact h.lists text htext

/-! ### What is read -/

theorem totalBlocked_ofDisk (h : KeepsTotal directory total d) (maxPages : Nat)
    (defaultBytes : UInt64) :
    (StatisticsTracker.ofDisk d (join directory "statistics.json") maxPages
      defaultBytes).totalBlocked = total := by
  rw [StatisticsTracker.ofDisk]
  rcases h.counts with ⟨hnone, rfl⟩ | ⟨stored, hdomains, rfl, hread⟩
  · dsimp only
    split
    · next found hfound =>
      obtain ⟨text, hread, -⟩ := exists_of_readJson hfound
      rw [textAt_of_read hread] at hnone
      cases hnone
    · rfl
  · rw [readJson_of_read hread stored.isPlain_toJson (Statistics.ofJson?_toJson hdomains)]

theorem slash_ofStored {stored : List FilterList} (h : ∀ l ∈ stored, '/' ∉ l.id.toList) :
    ∀ l ∈ Registry.ofStored stored, '/' ∉ l.id.toList := by
  have hbuiltIn : ∀ l ∈ FilterList.builtIn, '/' ∉ l.id.toList := by decide
  have hid (l : FilterList) : (Registry.restored stored l).id = l.id := by
    rw [Registry.restored]
    split <;> rfl
  intro l hl
  rcases List.mem_append.1 hl with hl | hl
  · obtain ⟨builtIn, hmem, rfl⟩ := List.mem_map.1 hl
    exact hid builtIn ▸ hbuiltIn builtIn hmem
  · exact h l (List.mem_of_mem_filter hl)

theorem slash_ofDisk (h : KeepsTotal directory total d) (urls : UrlReader) :
    ∀ l ∈ (Registry.ofDisk d (join directory "filter_lists.json") urls).1.lists,
      '/' ∉ l.id.toList := by
  rw [Registry.ofDisk]
  refine slash_ofStored ?_
  split
  · next stored hstored =>
    obtain ⟨text, hread, hvalue⟩ := exists_of_readJson hstored
    -- The registry has written the text itself, so it gets back the lists that it had.
    obtain ⟨lists, rfl, hslash⟩ := h.lists text (textAt_of_read hread)
    rw [Json.parse?_indented (Registry.isPlain_toJson lists), Option.bind_some,
      Registry.list?_toJson] at hvalue
    exact Option.some.inj hvalue ▸ hslash
  · exact fun l hl => absurd hl List.not_mem_nil

/-- The lists are read, and written back. -/
theorem lists_ofDisk (h : KeepsTotal directory total d) (urls : UrlReader) :
    KeepsTotal directory total (Registry.ofDisk d (join directory "filter_lists.json") urls).2 :=
  h.writeLists rfl (h.slash_ofDisk urls)

end KeepsTotal

/-- Whatever is done with the lists, what is new there is named after its URL. -/
theorem Registry.changes_edit {place : Place} {r : Registry} (h : Elsewhere place r.path)
    (d : Disk) (e : Edit) : ∃ added, r.Changes place d added (r.edit d e).1 (r.edit d e).2 ∧
      ∀ id, added = some id → ∃ url, id = FilterList.customId url := by
  rcases e with ⟨name, url⟩ | id | ⟨id, enabled⟩ | ⟨id, time⟩
  · obtain ⟨normal, hchanges⟩ := changes_add h d name url
    rw [edit]
    exact ⟨_, hchanges, fun id hid => ⟨normal, (Option.some.inj hid).symm⟩⟩
  · exact ⟨none, changes_remove h d id, by simp⟩
  · exact ⟨none, changes_setEnabled h d id enabled, by simp⟩
  · exact ⟨none, changes_markUpdated h d id time, by simp⟩

/-! ### Settings -/

namespace SettingsStore

/-- Where there is no file the settings have their defaults. -/
theorem settings_ofDisk {path : String} (h : d.textAt path = none) :
    (ofDisk d path).1.settings = {} := by
  rw [ofDisk]
  split
  · next settings hsettings =>
    obtain ⟨text, hread, -⟩ := exists_of_readJson hsettings
    rw [textAt_of_read hread] at h
    cases h
  · rfl
  · rfl

theorem read_change {s : SettingsStore} {change : Settings → Settings}
    (h : (s.update d change).2.2.isOk = true) :
    (s.change d change).2.read s.path = .ok (change s.settings).toJson.indented :=
  read_of_writeJson h

end SettingsStore

theorem KeepsTotal.settings_ofDisk (h : KeepsTotal directory total d) :
    KeepsTotal directory total (SettingsStore.ofDisk d (join directory "settings.json")).2 := by
  rw [SettingsStore.ofDisk]
  split
  · exact h
  · exact h.writeSettings _
  · exact h

end ContentBlocking
