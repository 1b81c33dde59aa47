import ContentBlocking.Proofs.Disk.Obstacles
import ContentBlocking.Proofs.Disk.Values

/-!
# Saved values

The settings, the counts, the lists and the manifest are saved in the same way, as a record
that is written by way of a draft. If nothing is in the way of that, the value is read back
and no draft is left. If something is, or the writing breaks off at any stage, the file is what
it was. All other files are what they were in any case.

* `Disk.WritesWhole`: what becomes of the disk when a value is saved;
* `values_written_whole`: so it is for all values that are saved.
-/

namespace ContentBlocking

namespace Disk

variable {α : Type} {value? : Json → Option α} {j : Json} {x : α}

/-- A value `x` with the record `j` is saved: it is read back and no draft is left, or the file
    at the place of the path has what it had. The files elsewhere have what they had. -/
structure WritesWhole (d : Disk) (path : String) (value? : Json → Option α) (j : Json) (x : α) :
    Prop where
  succeeds : (d.writeJson path j).2.isOk = true ↔ d.HasRoomFor path
  written : (d.writeJson path j).2.isOk = true →
    (d.writeJson path j).1.readJson path value? = .ok (some x) ∧
      (d.writeJson path j).1.look (placeOf (draftPath path)) = none
  /-- A path that leads nowhere for want of a directory may be read when that was made; one that
      leads somewhere is read as before. -/
  failed : (d.writeJson path j).2.isOk = false →
    (d.writeJson path j).1.textAt path = d.textAt path ∧
      ∀ place, d.find path = .ok place → (d.writeJson path j).1.read path = d.read path
  elsewhere : ∀ place, place ≠ placeOf path → place ≠ placeOf (draftPath path) →
    ∀ text, (d.writeJson path j).1.look place = some (.file text) ↔
      d.look place = some (.file text)

/-- A value is saved so if it is the one of its record. -/
theorem writesWhole (hplain : j.IsPlain) (hvalue : value? j = some x) (d : Disk) (path : String) :
    d.WritesWhole path value? j x where
  succeeds := isOk_writeWhole_iff
  written hok := by
    rcases hwrite : d.writeJson path j with ⟨d', _ | _⟩
    · rw [hwrite] at hok
      cases hok
    · exact ⟨readJson_writeJson hplain hvalue hwrite, look_draft_of_writeWhole hwrite⟩
  failed hfailed := by
    rcases hwrite : d.writeJson path j with ⟨d', e | _⟩
    · exact ⟨(spares_of_writeWhole_error hwrite).textAt,
        fun place hfind => read_of_writeWhole_error hwrite hfind⟩
    · rw [hwrite] at hfailed
      cases hfailed
  elsewhere place hfile hdraft := (spares_writeWhole hdraft.symm hfile.symm d j.indented).file

end Disk

/-! ### The values that are saved -/

/-- The settings, the counts, the lists and the manifest are saved as a whole or not at all, on
    any disk and under any path, with any texts and any words in them. The counts by domain are
    in a table, whose keys ascend, and the number of a run is a word. -/
theorem values_written_whole (d : Disk) (path : String) :
    (∀ settings : Settings, d.WritesWhole path Settings.ofJson? settings.toJson settings) ∧
      (∀ counts : Statistics, counts.domains.IsAscending →
        d.WritesWhole path Statistics.ofJson? counts.toJson counts) ∧
      (∀ lists : List FilterList,
        d.WritesWhole path (Json.list? FilterList.ofJson?) (Registry.toJson lists) lists) ∧
      ∀ manifest : Manifest, manifest.generation < UInt64.size →
        d.WritesWhole path Manifest.ofJson? manifest.toJson manifest :=
  ⟨fun settings => Disk.writesWhole settings.isPlain_toJson settings.ofJson?_toJson d path,
    fun counts hdomains =>
      Disk.writesWhole counts.isPlain_toJson (Statistics.ofJson?_toJson hdomains) d path,
    fun lists =>
      Disk.writesWhole (Registry.isPlain_toJson lists) (Registry.list?_toJson lists) d path,
    fun manifest hgeneration =>
      Disk.writesWhole manifest.isPlain_toJson (Manifest.ofJson?_toJson hgeneration) d path⟩

/-- The counts come to their place over an older draft. The manifest breaks off when its draft
    is to be moved, so that the older one stays. -/
theorem values_written_whole_midway :
    let counts : Statistics :=
      { totalRequests := 18446744073709551615
        domains := [("\"\\\u0001", 18446744073709551615), ("ä.test", 1)]
        pages := [{ url := "https://\u2028\n", blocked := 18446744073709551615 }] }
    let manifest : Manifest := ⟨18446744073709551615, ["shard_0", "\t"]⟩
    let d : Disk :=
      { entries := [(["data"], .directory), (["data", "artifacts.json"], .file "older"),
          (["data", "statistics.json.tmp"], .file "a part of")]
        outages := [none, some .atRename] }
    let saved := (d.writeJson "data/statistics.json" counts.toJson).1
    counts.domains.IsAscending ∧ manifest.generation < UInt64.size ∧
      saved.readJson "data/statistics.json" Statistics.ofJson? = .ok (some counts) ∧
      saved.look ["data", "statistics.json.tmp"] = none ∧
      (saved.writeJson "data/artifacts.json" manifest.toJson).1.read "data/artifacts.json" =
        .ok "older" := by
  intro counts manifest d saved
  have hdomains : counts.domains.IsAscending :=
    show counts.domains.keys.Pairwise (· < ·) by decide +kernel
  have hgeneration : manifest.generation < UInt64.size := by decide
  have hwritten : (d.writeJson "data/statistics.json" counts.toJson).2.isOk = true := by
    decide +kernel
  have hfailed : (saved.writeJson "data/artifacts.json" manifest.toJson).2.isOk = false := by
    decide +kernel
  obtain ⟨hread, hdraft⟩ :=
    ((values_written_whole d "data/statistics.json").2.1 counts hdomains).written hwritten
  have hkept := (((values_written_whole saved "data/artifacts.json").2.2.2 manifest
    hgeneration).failed hfailed).2 ["data", "artifacts.json"] (by decide +kernel)
  exact ⟨hdomains, hgeneration, hread, hdraft, hkept.trans (by decide +kernel)⟩

end ContentBlocking
