import ContentBlocking.Proofs.Disk.WholeWrites

/-!
# What is in the way of a file

A whole file is written in three steps, for each of which something can be in the way: a file
where a directory should be, a directory at the place of the draft, a directory at the place of
the file, or a name that nothing can have. The draft itself is not in the way of the file, and
is gone when it was moved there.

A path that leads somewhere leads through directories that are there. So none is made for such
a path, and what stands where it leads is found there after a write that fails.

* `Path.exists_names_parent`: the names of the directory that a path stands in;
* `Disk.makeDirs_parent`, `Disk.read_of_writeWhole_error`: paths that lead somewhere;
* `Disk.look_draft_of_writeWhole`: no draft is left of a file that was written;
* `Disk.HasRoomFor`, `Disk.isOk_writeWhole_iff`: when a file is written.
-/

namespace ContentBlocking

/-- The names of the directory that a path with a name stands in come first in the path, as far
    as they are not dots at its end. -/
theorem Path.exists_names_parent {path : String} (hname : IsName (split path.toList).2) :
    ∃ directory rest n, rest ≠ [] ∧ names path = directory ++ rest ∧
      names (parent path) = directory ++ List.replicate n "." := by
  have hne : path ≠ "" := by
    rintro rfl
    exact hname.ne_nil rfl
  obtain ⟨l, hl⟩ := exists_names_eq hne
  rcases split_cases path.toList with ⟨hfront, hlast, -⟩ | ⟨front, hfront, hpath, -⟩
  · have hparent : parent path = String.ofList (trimEnd []) := by
      rw [← hfront]
      rfl
    refine ⟨[], names path, 0, ?_, rfl, by rw [hparent]; rfl⟩
    rw [hl, ← hlast, frontNames_of_isName hname]
    exact List.cons_ne_nil _ _
  · rw [hpath, frontNames_append_isName hname] at hl
    by_cases hparent : parent path = ""
    · exact ⟨[], names path, 0, by simp [hl], rfl, by rw [hparent]; rfl⟩
    · have hdirectory : (parent path).toList = trimEnd (front ++ ['/']) := by
        rw [← hfront]
        exact String.toList_ofList
      obtain ⟨n, hn⟩ := exists_names_eq hparent
      -- What ends the directory is trimmed twice, and is nothing but dots each time.
      obtain ⟨m, hm⟩ := exists_frontNames_eq (parent path).toList
      obtain ⟨k, hk⟩ := exists_frontNames_eq (front ++ ['/'])
      rw [← hdirectory, hm, frontNames_append_cons] at hk
      have hfronts : frontNames front =
          frontNames (trimEnd (parent path).toList) ++ List.replicate m "." ++
            List.replicate k "." := by
        rw [← hk]
        exact (List.append_nil _).symm
      refine ⟨_, List.replicate m "." ++ List.replicate k "." ++
        [String.ofList (split path.toList).2] ++ List.replicate l ".", n, by simp, ?_, hn⟩
      rw [hl, hfronts]
      simp only [List.append_assoc]

namespace Disk

open ContentBlocking.Path

variable {d d' : Disk} {path text : String}

/-! ### Paths that lead somewhere -/

theorem look_of_resolve {start place : Place} {names : List String} (hne : names ≠ [])
    (h : d.resolve start names = .ok place) : d.look start = some .directory := by
  obtain ⟨name, rest, rfl⟩ := List.exists_cons_of_ne_nil hne
  rw [resolve] at h
  split at h
  · cases h
  · cases h
  · next hlook => exact hlook

/-- The directories that a path leads through are there, so that none of them is made. -/
theorem makeDirsAt_of_resolve {start place : Place} {names rest : List String} (n : Nat)
    (hrest : rest ≠ []) (h : d.resolve start (names ++ rest) = .ok place) :
    d.makeDirsAt start (names ++ List.replicate n ".") = (d, true) := by
  induction names generalizing start with
  | nil =>
    have hlook := look_of_resolve hrest h
    induction n with
    | zero => rfl
    | succ n ih =>
      rw [List.nil_append, List.replicate_succ, makeDirsAt, step_dot, hlook]
      exact ih
  | cons name names ih =>
    have hnext : d.resolve (step start name) (names ++ rest) = .ok place := by
      rw [List.cons_append, resolve, look_of_resolve (List.cons_ne_nil _ _) h] at h
      dsimp only at h
      split at h
      · cases h
      · exact h
    have hlook := look_of_resolve (List.append_ne_nil_of_right_ne_nil names hrest) hnext
    rw [List.cons_append, makeDirsAt, hlook]
    exact ih hnext

/-- A path with a name leads through the directory that it stands in. -/
theorem makeDirs_parent {place : Place} (hname : IsName (split path.toList).2)
    (hfind : d.find path = .ok place) : d.makeDirs (parent path) = (d, true) := by
  obtain ⟨directory, rest, n, hrest, hpath, hparent⟩ := exists_names_parent hname
  rw [find, hpath] at hfind
  split at hfind
  · cases hfind
  · rw [makeDirs, hparent]
    exact makeDirsAt_of_resolve n hrest hfind

theorem prepare_of_find {place : Place} (hname : IsName (split path.toList).2)
    (hfind : d.find path = .ok place) (outage : Option Outage) :
    (d.prepare outage path).1 = d := by
  rw [prepare]
  split
  · rfl
  · rw [makeDirs_parent hname hfind]

theorem look_write {place : Place} (hne : placeOf path ≠ place) (d : Disk) (text : String) :
    (d.write path text).1.look place = d.look place := by
  rw [write]
  split
  · next q hq =>
    obtain ⟨-, rfl, hlook⟩ := placeForFile_eq_some hq
    rw [look_put hlook, if_neg hne.symm]
  · rfl

theorem look_writeDraft {place : Place} (hne : placeOf (draftPath path) ≠ place) (d : Disk)
    (outage : Option Outage) (text : String) :
    (d.writeDraft outage path text).1.look place = d.look place := by
  rw [writeDraft.eq_def]
  dsimp only
  split
  · rfl
  · dsimp only
    exact look_write hne d _
  · have hwrite := look_write hne d text
    split
    all_goals
      next heq =>
      rw [heq] at hwrite
      exact hwrite

theorem look_nextOutage (d : Disk) (place : Place) : d.nextOutage.2.look place = d.look place := by
  rw [nextOutage]
  split <;> rfl

/-- If a path leads somewhere, a write that fails leaves what stands there. -/
theorem look_of_writeWhole_error {place : Place} {e : Failure}
    (h : d.writeWhole path text = (d', .error e)) (hname : IsName (split path.toList).2)
    (hfind : d.find path = .ok place) : d'.look (placeOf path) = d.look (placeOf path) := by
  have hfind := (spares_nextOutage (placeOf path) d).directories.find hfind
  rw [← look_nextOutage d]
  rw [writeWhole] at h
  generalize d.nextOutage = next at h hfind ⊢
  obtain ⟨outage, d₀⟩ := next
  have hprepare := prepare_of_find hname hfind outage
  have hdraft := look_writeDraft (placeOf_draftPath_ne hname) d₀ outage text
  dsimp only at h ⊢
  split at h
  · next d₁ e heq =>
    rw [heq] at hprepare
    obtain rfl := congrArg Prod.fst h
    rw [hprepare]
  · next d₁ heq =>
    rw [heq] at hprepare
    obtain rfl : d₁ = d₀ := hprepare
    split at h
    · next d₂ e heq =>
      obtain rfl := congrArg Prod.fst h
      rwa [heq] at hdraft
    · next d₂ heq =>
      rw [heq] at hdraft
      rwa [commit_eq_error h]

theorem look_of_placeForFile_eq_none {place : Place} (hfind : d.find path = .ok place)
    (h : d.placeForFile path = none) : d.look place = some .directory := by
  rw [placeForFile, hfind] at h
  by_contra hlook
  dsimp only at h
  rw [if_neg hlook] at h
  cases h

/-- If a path leads somewhere, it is read after a write that fails as it was before. -/
theorem read_of_writeWhole_error {place : Place} {e : Failure}
    (h : d.writeWhole path text = (d', .error e)) (hfind : d.find path = .ok place) :
    d'.read path = d.read path := by
  have hspares := spares_of_writeWhole_error h
  have hfind' := hspares.directories.find hfind
  have hlook : d'.look place = d.look place := by
    by_cases hname : IsName (split path.toList).2
    · obtain rfl := find_eq_ok hfind
      exact look_of_writeWhole_error h hname hfind
    · -- Then it leads to a directory.
      have hlook := look_of_placeForFile_eq_none hfind (placeForFile_eq_none hname d)
      rw [hlook, hspares.directories place hlook]
  rw [read, read, hfind, hfind']
  simp only [bind, Except.bind, hlook]

/-! ### Drafts that are moved -/

theorem look_source_of_rename {source target : String} (hne : placeOf source ≠ placeOf target)
    (h : d.rename source target = (d', true)) : d'.look (placeOf source) = none := by
  rw [rename] at h
  split at h
  · next t p q _ hp hq =>
    obtain ⟨-, rfl, hp⟩ := placeForFile_eq_some hp
    obtain ⟨-, rfl, hq⟩ := placeForFile_eq_some hq
    obtain rfl := congrArg Prod.fst h
    have htarget : look { d with entries := d.entries.erase (placeOf source) }
        (placeOf target) ≠ some .directory := by
      rwa [look_erase hp, if_neg hne.symm]
    rw [look_put htarget, if_neg hne, look_erase hp, if_pos rfl]
  · cases h

theorem isName_of_rename {source target : String} (h : d.rename source target = (d', true)) :
    IsName (split target.toList).2 := by
  by_contra hname
  rw [rename] at h
  split at h
  · next hplace =>
    rw [placeForFile_eq_none hname d] at hplace
    cases hplace
  · cases h

/-- No draft is left of a file that was written. -/
theorem look_draft_of_writeWhole (h : d.writeWhole path text = (d', .ok ())) :
    d'.look (placeOf (draftPath path)) = none := by
  rw [writeWhole] at h
  dsimp only at h
  split at h
  · cases h
  · split at h
    · cases h
    · rw [commit] at h
      split at h
      · cases h
      · split at h
        · next heq =>
          obtain rfl := congrArg Prod.fst h
          exact look_source_of_rename (placeOf_draftPath_ne (isName_of_rename heq)) heq
        · cases h

/-! ### Writes that succeed -/

/-- Nothing is in the way of a file: the writing does not break off, its directory is there or
    can be made, and then neither at its place nor at that of its draft is a directory. -/
structure HasRoomFor (d : Disk) (path : String) : Prop where
  outage : d.nextOutage.1 = none
  directory : (d.nextOutage.2.makeDirs (parent path)).2 = true
  draft : ((d.nextOutage.2.makeDirs (parent path)).1.placeForFile (draftPath path)).isSome = true
  file : ((d.nextOutage.2.makeDirs (parent path)).1.placeForFile path).isSome = true

theorem isSome_placeForFile_of_directories
    (h : ∀ q, d'.look q = some .directory ↔ d.look q = some .directory)
    (hsome : (d.placeForFile path).isSome = true) : (d'.placeForFile path).isSome = true := by
  obtain ⟨place, hplace⟩ := Option.isSome_iff_exists.1 hsome
  obtain ⟨hfind, -, hlook⟩ := placeForFile_eq_some hplace
  have hfind' : d'.find path = .ok place := KeepsDirectories.find (fun q => (h q).2) hfind
  rw [placeForFile, hfind']
  dsimp only
  rw [if_neg (mt (h place).1 hlook)]
  rfl

/-- It depends on the directories alone whether there can be a file at a path. -/
theorem isSome_placeForFile_congr
    (h : ∀ q, d'.look q = some .directory ↔ d.look q = some .directory) (path : String) :
    (d'.placeForFile path).isSome = (d.placeForFile path).isSome :=
  Bool.eq_iff_iff.2 ⟨isSome_placeForFile_of_directories fun q => (h q).symm,
    isSome_placeForFile_of_directories h⟩

theorem look_putFile_eq_directory_iff {place : Place} (hlook : d.look place ≠ some .directory)
    (text : String) (q : Place) :
    (d.put place (.file text)).look q = some .directory ↔ d.look q = some .directory := by
  rw [look_put hlook]
  split
  · next heq => simp [heq, hlook]
  · rfl

theorem write_snd (d : Disk) (path text : String) :
    (d.write path text).2 = (d.placeForFile path).isSome := by
  rw [write]
  cases d.placeForFile path <;> rfl

/-- A draft that could be written is not in the way of its own move. -/
theorem isOk_commit_iff (hdraft : (d.placeForFile (draftPath path)).isSome = true) (text : String) :
    ((d.write (draftPath path) text).1.commit none path).2.isOk = true ↔
      (d.placeForFile path).isSome = true := by
  obtain ⟨place, hplace⟩ := Option.isSome_iff_exists.1 hdraft
  obtain ⟨hfind, -, hlook⟩ := placeForFile_eq_some hplace
  have hwrite : d.write (draftPath path) text = (d.put place (.file text), true) := by
    rw [write, hplace]
  have hdirectories := look_putFile_eq_directory_iff hlook text
  obtain ⟨source, hsource⟩ := Option.isSome_iff_exists.1
    ((isSome_placeForFile_congr hdirectories (draftPath path)).trans hdraft)
  rw [← isSome_placeForFile_congr hdirectories path, hwrite, commit, if_neg (by decide), rename,
    read_putFile hfind hlook text, hsource]
  cases (d.put place (.file text)).placeForFile path <;> exact Iff.rfl

theorem outage_of_isOk (h : (d.writeWhole path text).2.isOk = true) : d.nextOutage.1 = none := by
  rw [writeWhole] at h
  rcases hnext : d.nextOutage with ⟨_ | outage, d₀⟩
  · rfl
  · rw [hnext] at h
    dsimp only at h
    split at h
    · cases h
    · next d₁ hprepare =>
      split at h
      · cases h
      · next d₂ hdraft =>
        cases outage with
        | atDirectory =>
          rw [prepare, if_pos rfl] at hprepare
          cases hprepare
        | atDraft => cases hdraft
        | afterCharacters count => cases hdraft
        | atRename =>
          rw [commit, if_pos rfl] at h
          cases h

/-- If the writing does not break off, the directory, the draft and the move have to succeed. -/
theorem isOk_writeWhole {made : Disk × Bool} (houtage : d.nextOutage.1 = none)
    (hdirs : d.nextOutage.2.makeDirs (parent path) = made) :
    (d.writeWhole path text).2.isOk = (made.2 && (made.1.write (draftPath path) text).2 &&
      ((made.1.write (draftPath path) text).1.commit none path).2.isOk) := by
  rw [writeWhole]
  generalize d.nextOutage = next at houtage hdirs
  obtain ⟨outage, d₀⟩ := next
  obtain rfl : outage = none := houtage
  dsimp only at hdirs ⊢
  rw [prepare, if_neg (by decide), hdirs]
  rcases made with ⟨d₁, _ | _⟩
  · rfl
  · rw [Bool.true_and]
    dsimp only
    rw [writeDraft.eq_def]
    dsimp only
    rcases d₁.write (draftPath path) text with ⟨d₂, _ | _⟩
    · rfl
    · exact (Bool.true_and _).symm

/-- A whole file is written if and only if nothing is in the way. -/
theorem isOk_writeWhole_iff : (d.writeWhole path text).2.isOk = true ↔ d.HasRoomFor path := by
  by_cases houtage : d.nextOutage.1 = none
  · rw [isOk_writeWhole houtage rfl, Bool.and_eq_true, Bool.and_eq_true, write_snd]
    refine ⟨fun ⟨⟨hdirs, hdraft⟩, hfile⟩ => ?_, fun h => ?_⟩
    · exact ⟨houtage, hdirs, hdraft, (isOk_commit_iff hdraft text).1 hfile⟩
    · exact ⟨⟨h.directory, h.draft⟩, (isOk_commit_iff h.draft text).2 h.file⟩
  · exact iff_of_false (mt outage_of_isOk houtage) fun h => houtage h.outage

end Disk

end ContentBlocking
