import ContentBlocking.Proofs.Disk.Drafts

/-!
# Whole files or none

A file is written by way of a draft at another place, and comes to its own place in one
move. So whatever stands in the way of that, and wherever it breaks off, the file has
the new text or the text that it had before, if it was there.

* `Disk.textAt`: the text of the file at the place of a path;
* `Disk.read_of_writeJson`, `Disk.spares_of_writeJson`: a value that could be written is in
  its file, and otherwise the file is left alone.
-/

namespace ContentBlocking.Disk

open ContentBlocking.Path

variable {d d' : Disk} {path text : String}

/-- The text of the file at the place of a path, if there is one. -/
def textAt (d : Disk) (path : String) : Option String :=
  match d.look (placeOf path) with
  | some (.file text) => some text
  | _ => none

theorem textAt_eq_some_iff : d.textAt path = some text ↔
    d.look (placeOf path) = some (.file text) := by
  rw [textAt]
  split
  · next found hlook => simp [hlook]
  · next hnot => exact ⟨nofun, fun hlook => absurd hlook (hnot text)⟩

theorem Spares.textAt (h : Spares (placeOf path) d d') : d'.textAt path = d.textAt path := by
  ext text
  rw [textAt_eq_some_iff, textAt_eq_some_iff, h.file]

theorem textAt_of_read (h : d.read path = .ok text) : d.textAt path = some text := by
  obtain ⟨place, hfind, hlook⟩ := read_eq_ok_iff.1 h
  obtain rfl := find_eq_ok hfind
  exact textAt_eq_some_iff.2 hlook

/-- A file that can be reached is removed. -/
theorem textAt_remove (h : d.textAt path = none ∨ ∃ text, d.read path = .ok text) :
    (d.remove path).textAt path = none := by
  rw [remove]
  split
  · next place hplace =>
    obtain ⟨-, rfl, hlook⟩ := placeForFile_eq_some hplace
    rw [textAt, look_erase hlook, if_pos rfl]
  · next hnone =>
    rcases h with h | ⟨text, hread⟩
    · exact h
    · obtain ⟨place, hfind, hlook⟩ := read_eq_ok_iff.1 hread
      simp [placeForFile, hfind, hlook] at hnone

/-! ### Writes that fail -/

theorem write_of_placeForFile_eq_none (h : d.placeForFile path = none) (text : String) :
    d.write path text = (d, false) := by
  rw [write, h]

theorem draftPath_of_not_isName (h : ¬IsName (split path.toList).2) : draftPath path = path := by
  have hslash : '/' ∉ (split path.toList).2 := by
    rcases split_cases path.toList with ⟨-, hname, hslash⟩ | ⟨front, -, -, hslash⟩
    · rwa [hname]
    · exact hslash
  rw [draftPath, withExtension]
  refine if_pos ?_
  rcases eq_of_not_isName hslash h with hnil | hdot | hdots
  · exact .inl (List.isEmpty_iff.2 hnil)
  · exact .inr (.inr hdot)
  · exact .inr (.inl hdots)

/-- The draft is written without harm to the file itself. -/
theorem spares_writeDraft_self (d : Disk) (outage : Option Outage) (path text : String) :
    Spares (placeOf path) d (d.writeDraft outage path text).1 := by
  by_cases h : IsName (split path.toList).2
  · exact spares_writeDraft (placeOf_draftPath_ne h) d outage text
  · -- Then no draft can be written.
    have hnone := placeForFile_eq_none h d
    rw [writeDraft.eq_def, draftPath_of_not_isName h]
    dsimp only
    split
    · exact spares_refl _ d
    · rw [write_of_placeForFile_eq_none hnone]
      exact spares_refl _ d
    · rw [write_of_placeForFile_eq_none hnone]
      exact spares_refl _ d

theorem rename_eq_false {source target : String} (h : d.rename source target = (d', false)) :
    d' = d := by
  rw [rename] at h
  split at h
  · cases h
  · exact (congrArg Prod.fst h).symm

theorem commit_eq_error {outage : Option Outage} {e : Failure}
    (h : d.commit outage path = (d', .error e)) : d' = d := by
  rw [commit] at h
  split at h
  · exact (congrArg Prod.fst h).symm
  · split at h
    · cases h
    · next heq =>
      obtain rfl := congrArg Prod.fst h
      exact rename_eq_false heq

/-- A write that fails, at whatever stage, leaves the file alone. -/
theorem spares_of_writeWhole_error {e : Failure} (h : d.writeWhole path text = (d', .error e)) :
    Spares (placeOf path) d d' := by
  have houtage := spares_nextOutage (placeOf path) d
  rw [writeWhole] at h
  generalize d.nextOutage = next at h houtage
  obtain ⟨outage, d₀⟩ := next
  have hprepare := houtage.trans (spares_prepare (placeOf path) d₀ outage path)
  dsimp only at h
  split at h
  · next d₁ e heq =>
    obtain rfl := congrArg Prod.fst h
    rwa [heq] at hprepare
  · next d₁ heq =>
    rw [heq] at hprepare
    have hdraft := hprepare.trans (spares_writeDraft_self d₁ outage path text)
    split at h
    · next d₂ e heq =>
      obtain rfl := congrArg Prod.fst h
      rwa [heq] at hdraft
    · next d₂ heq =>
      rw [heq] at hdraft
      rwa [commit_eq_error h]

/-! ### Values -/

/-- A value that could be written is in its file. -/
theorem read_of_writeJson {value : Json} (h : (d.writeJson path value).2.isOk = true) :
    (d.writeJson path value).1.read path = .ok value.indented := by
  rcases hwrite : d.writeJson path value with ⟨d', _ | _⟩
  · rw [hwrite] at h
    cases h
  · exact read_writeWhole hwrite

theorem spares_of_writeJson {value : Json} (h : ¬(d.writeJson path value).2.isOk = true) :
    Spares (placeOf path) d (d.writeJson path value).1 := by
  rcases hwrite : d.writeJson path value with ⟨d', _ | _⟩
  · exact spares_of_writeWhole_error hwrite
  · rw [hwrite] at h
    exact absurd rfl h

theorem textAt_writeJson (d : Disk) (path : String) (value : Json) :
    (d.writeJson path value).1.textAt path = some value.indented ∨
      (d.writeJson path value).1.textAt path = d.textAt path := by
  by_cases h : (d.writeJson path value).2.isOk = true
  · exact .inl (textAt_of_read (read_of_writeJson h))
  · exact .inr (spares_of_writeJson h).textAt

end ContentBlocking.Disk
