import ContentBlocking.Artifact.Manifest
import ContentBlocking.FilterList.Registry
import ContentBlocking.Proofs.Disk.Files
import ContentBlocking.Proofs.Json.Records
import ContentBlocking.Proofs.Table
import ContentBlocking.Settings
import ContentBlocking.Statistics
import Mathlib.Data.String.Basic

/-!
# Values that are read back

A value whose record is read back is the value that its file holds, once the file
could be written.

* `Disk.readJson_writeJson`: any value with such a record;
* `Manifest.ofJson?_toJson`, `Settings.ofJson?_toJson`, `Registry.list?_toJson`,
  `Statistics.ofJson?_toJson`: the records of the manifest, of the settings, of the lists
  and of the counts;
* `SettingsStore.ofDisk_save`: settings that were saved are those of the next start.
-/

namespace ContentBlocking

namespace Disk

variable {α : Type} {d d' : Disk} {path : String} {value? : Json → Option α} {j : Json} {x : α}

theorem readJson_of_read (hread : d.read path = .ok j.indented) (hplain : j.IsPlain)
    (hvalue : value? j = some x) : d.readJson path value? = .ok (some x) := by
  rw [readJson, hread]
  dsimp only
  rw [Json.parse?_indented hplain, Option.bind_some, hvalue]

theorem exists_of_readJson (h : d.readJson path value? = .ok (some x)) :
    ∃ text, d.read path = .ok text ∧ (Json.parse? text).bind value? = some x := by
  rw [readJson] at h
  split at h
  · cases h
  · cases h
  · next text hread =>
    refine ⟨text, hread, ?_⟩
    split at h
    · next found hfound => rw [hfound, Option.some.inj (Except.ok.inj h)]
    · cases h

theorem readJson_writeJson (hplain : j.IsPlain) (hvalue : value? j = some x)
    (h : d.writeJson path j = (d', .ok ())) : d'.readJson path value? = .ok (some x) :=
  readJson_of_read (read_writeWhole h) hplain hvalue

end Disk

namespace Manifest

/-- The number of the run is a counter. -/
theorem ofJson?_toJson {m : Manifest} (h : m.generation < UInt64.size) :
    ofJson? m.toJson = some m := by
  have hfields : m.toJson.fields? ["generation", "identifiers"] =
      some [("generation", some (.nat m.generation)),
        ("identifiers", some (.arr (m.identifiers.map .str)))] := rfl
  simp only [ofJson?, hfields, Option.bind_eq_bind, Option.bind_some]
  rw [Json.Fields.get?_of_lookup rfl, Json.Fields.get?_of_lookup rfl, Json.count?_nat h,
    Json.list?_strings]
  rfl

theorem isPlain_toJson (m : Manifest) : m.toJson.IsPlain := by
  refine .obj fun member hmember => ?_
  simp only [List.mem_cons, List.not_mem_nil, or_false] at hmember
  rcases hmember with rfl | rfl
  · exact .nat
  · exact Json.isPlain_strings _

theorem load_of_read {m : Manifest} (h : m.generation < UInt64.size) {d : Disk} {path : String}
    (hread : d.read path = .ok m.toJson.indented) : load d path = some m := by
  rw [load, Disk.readJson_of_read hread m.isPlain_toJson (ofJson?_toJson h)]

end Manifest

namespace Settings

theorem ofJson?_toJson (s : Settings) : ofJson? s.toJson = some s := by
  have hfields : s.toJson.fields? ["isEnabled", "totalBlockedRequests",
      "blockedRequestsThisSession", "whitelistedDomains"] =
      some [("isEnabled", some (.bool s.isEnabled)),
        ("totalBlockedRequests", some (.nat s.totalBlockedRequests.toNat)),
        ("blockedRequestsThisSession", some (.nat s.blockedRequestsThisSession.toNat)),
        ("whitelistedDomains", some (.arr (s.whitelistedDomains.map .str)))] := rfl
  simp only [ofJson?, hfields, Option.bind_eq_bind, Option.bind_some]
  rw [Json.Fields.getD?_of_given _ rfl, Json.Fields.getD?_of_given _ rfl,
    Json.Fields.getD?_of_given _ rfl, Json.Fields.getD?_of_given _ rfl, Json.word?_toNat,
    Json.word?_toNat, Json.list?_strings]
  rfl

theorem isPlain_toJson (s : Settings) : s.toJson.IsPlain := by
  refine .obj fun member hmember => ?_
  simp only [List.mem_cons, List.not_mem_nil, or_false] at hmember
  rcases hmember with rfl | rfl | rfl | rfl
  · exact .bool
  · exact .nat
  · exact .nat
  · exact Json.isPlain_strings _

end Settings

/-! ### Lists -/

namespace FilterList

theorem orNull?_time (time : Option UInt64) :
    Json.orNull? Json.word? (match time with
      | some time => .nat time.toNat
      | none => .null) = some time := by
  rcases time with _ | time
  · rfl
  · have hnat : Json.nat time.toNat ≠ .null := nofun
    exact (Json.orNull?_of_ne_null hnat).trans (by rw [Json.word?_toNat]; rfl)

theorem ofJson?_toJson (l : FilterList) : ofJson? l.toJson = some l := by
  have hfields : l.toJson.fields?
      ["id", "name", "sourceURL", "isBuiltIn", "isEnabled", "lastUpdated"] =
      some [("id", some (.str l.id)), ("name", some (.str l.name)),
        ("sourceURL", some (.str l.url)), ("isBuiltIn", some (.bool l.isBuiltIn)),
        ("isEnabled", some (.bool l.isEnabled)), ("lastUpdated", some (match l.lastUpdated with
          | some time => .nat time.toNat
          | none => .null))] := rfl
  simp only [ofJson?, hfields, Option.bind_eq_bind, Option.bind_some]
  rw [Json.Fields.get?_of_lookup rfl, Json.Fields.get?_of_lookup rfl,
    Json.Fields.get?_of_lookup rfl, Json.Fields.get?_of_lookup rfl,
    Json.Fields.get?_of_lookup rfl, Json.Fields.getD?_of_given _ rfl, orNull?_time]
  rfl

theorem isPlain_toJson (l : FilterList) : l.toJson.IsPlain := by
  refine .obj fun member hmember => ?_
  simp only [List.mem_cons, List.not_mem_nil, or_false] at hmember
  rcases hmember with rfl | rfl | rfl | rfl | rfl | rfl
  · exact .str
  · exact .str
  · exact .str
  · exact .bool
  · exact .bool
  · rcases l.lastUpdated with _ | time
    · exact .null
    · exact .nat

end FilterList

namespace Registry

theorem list?_toJson (lists : List FilterList) :
    Json.list? FilterList.ofJson? (toJson lists) = some lists :=
  Json.list?_map fun l _ => l.ofJson?_toJson

theorem isPlain_toJson (lists : List FilterList) : (toJson lists).IsPlain :=
  Json.isPlain_list FilterList.isPlain_toJson lists

end Registry

/-! ### Counts -/

namespace PageStats

theorem ofJson?_toJson (p : PageStats) : ofJson? p.toJson = some p := by
  have hfields : p.toJson.fields? ["url", "blocked", "bytesSaved"] =
      some [("url", some (.str p.url)), ("blocked", some (.nat p.blocked.toNat)),
        ("bytesSaved", some (.nat p.bytesSaved.toNat))] := rfl
  simp only [ofJson?, hfields, Option.bind_eq_bind, Option.bind_some]
  rw [Json.Fields.get?_of_lookup rfl, Json.Fields.get?_of_lookup rfl,
    Json.Fields.get?_of_lookup rfl, Json.word?_toNat, Json.word?_toNat]
  rfl

theorem isPlain_toJson (p : PageStats) : p.toJson.IsPlain := by
  refine .obj fun member hmember => ?_
  simp only [List.mem_cons, List.not_mem_nil, or_false] at hmember
  rcases hmember with rfl | rfl | rfl
  · exact .str
  · exact .nat
  · exact .nat

end PageStats

namespace Statistics

/-- The counts by domain that an object holds are put into ascending order. -/
theorem isAscending_of_domainsOfJson? {j : Json} {domains : Table String UInt64}
    (h : domainsOfJson? j = some domains) : domains.IsAscending := by
  obtain ⟨counts, -, rfl⟩ := Option.map_eq_some_iff.1 h
  exact Table.IsAscending.foldl_set Table.isAscending_nil counts

theorem domainsOfJson?_domains {domains : Table String UInt64} (h : domains.IsAscending) :
    domainsOfJson? (.obj (domains.map fun (domain, count) => (domain, .nat count.toNat))) =
      some domains := by
  have hmap : Json.map? Json.word?
      (.obj (domains.map fun (domain, count) => (domain, .nat count.toNat))) = some domains :=
    Json.map?_map Json.word?_toNat domains
  rw [domainsOfJson?, hmap, Option.map_some, Table.foldl_set_eq h]

theorem ofJson?_toJson {s : Statistics} (h : s.domains.IsAscending) :
    ofJson? s.toJson = some s := by
  have hpages : Json.list? PageStats.ofJson? (.arr (s.pages.map PageStats.toJson)) = some s.pages :=
    Json.list?_map fun p _ => p.ofJson?_toJson
  have hfields : s.toJson.fields? ["totalBlocked", "totalRequests", "bandwidthSavedBytes",
      "sessionBlocked", "domains", "pages"] =
      some [("totalBlocked", some (.nat s.totalBlocked.toNat)),
        ("totalRequests", some (.nat s.totalRequests.toNat)),
        ("bandwidthSavedBytes", some (.nat s.bandwidthSavedBytes.toNat)),
        ("sessionBlocked", some (.nat s.sessionBlocked.toNat)),
        ("domains", some (.obj (s.domains.map fun (domain, count) => (domain, .nat count.toNat)))),
        ("pages", some (.arr (s.pages.map PageStats.toJson)))] := rfl
  simp only [ofJson?, hfields, Option.bind_eq_bind, Option.bind_some]
  rw [Json.Fields.getD?_of_given _ rfl, Json.Fields.getD?_of_given _ rfl,
    Json.Fields.getD?_of_given _ rfl, Json.Fields.getD?_of_given _ rfl,
    Json.Fields.getD?_of_given _ rfl, Json.Fields.getD?_of_given _ rfl, Json.word?_toNat,
    Json.word?_toNat, Json.word?_toNat, Json.word?_toNat, domainsOfJson?_domains h, hpages]
  rfl

theorem isPlain_toJson (s : Statistics) : s.toJson.IsPlain := by
  refine .obj fun member hmember => ?_
  simp only [List.mem_cons, List.not_mem_nil, or_false] at hmember
  rcases hmember with rfl | rfl | rfl | rfl | rfl | rfl
  · exact .nat
  · exact .nat
  · exact .nat
  · exact .nat
  · refine .obj fun member hmember => ?_
    obtain ⟨p, -, rfl⟩ := List.mem_map.1 hmember
    exact .nat
  · exact Json.isPlain_list PageStats.isPlain_toJson s.pages

/-- Whatever a file holds, the counts by domain that are read stand in ascending order. -/
theorem isAscending_of_ofJson? {j : Json} {s : Statistics} (h : ofJson? j = some s) :
    s.domains.IsAscending := by
  simp only [ofJson?, Option.bind_eq_bind, Option.bind_eq_some_iff] at h
  obtain ⟨fields, -, _, -, _, -, _, -, _, -, domains, hdomains, _, -, h⟩ := h
  obtain rfl := Option.some.inj h
  rw [Json.Fields.getD?] at hdomains
  split at hdomains
  · exact isAscending_of_domainsOfJson? hdomains
  · obtain rfl := Option.some.inj hdomains
    exact Table.isAscending_nil

end Statistics

/-- Settings that were saved are those of the next start. -/
theorem SettingsStore.ofDisk_save {s : SettingsStore} {d d' : Disk} (h : s.save d = (d', .ok ())) :
    ofDisk d' s.path = (s, d') := by
  rw [ofDisk, Disk.readJson_writeJson s.settings.isPlain_toJson s.settings.ofJson?_toJson h]

end ContentBlocking
