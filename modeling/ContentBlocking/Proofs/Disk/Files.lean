import ContentBlocking.Persist

/-!
# Files that are read back

A path leads to one place on every disk, if it leads anywhere. What an operation does
not aim at stays: directories are never removed, and a file is changed only at the
place that the operation is about. So a file that was written is read back, for as
long as nothing else is written at its place.

* `Disk.Spares`: the directories stay, and so does what file is at a place;
* `spares_writeWhole`: a whole file is written without harm to the files elsewhere;
* `read_writeWhole`: a whole file is read back.
-/

namespace ContentBlocking.Disk

/-- The place that a path leads to, if nothing is in the way. -/
def placeOf (path : String) : Place := (Path.names path).foldl step []

variable {d d' d'' : Disk} {place place' : Place} {path text : String}

/-! ### What stands at a place -/

theorem look_of_ne_directory (h : d.look place ≠ some .directory) :
    ¬(isAbove place ∨ place = ["/"]) := by
  intro habove
  rw [look, if_pos habove] at h
  exact h rfl

theorem look_put (h : d.look place ≠ some .directory) (entry : Entry) (q : Place) :
    (d.put place entry).look q = if q = place then some entry else d.look q := by
  have hplace := look_of_ne_directory h
  rw [look, put, Table.get?_set]
  by_cases hq : q = place
  · rw [if_pos hq, if_pos hq, if_neg (hq ▸ hplace)]
  · rw [if_neg hq, if_neg hq, look]

theorem look_erase (h : d.look place ≠ some .directory) (q : Place) :
    look { d with entries := d.entries.erase place } q =
      if q = place then none else d.look q := by
  have hplace := look_of_ne_directory h
  rw [look, Table.get?_erase]
  by_cases hq : q = place
  · rw [if_pos hq, if_pos hq, if_neg (hq ▸ hplace)]
  · rw [if_neg hq, if_neg hq, look]

/-! ### Places of paths -/

theorem resolve_eq_ok {names : List String} {start : Place}
    (h : d.resolve start names = .ok place) : place = names.foldl step start := by
  induction names generalizing start with
  | nil => exact (Except.ok.inj h).symm
  | cons name names ih =>
    rw [resolve] at h
    split at h
    · cases h
    · cases h
    · split at h
      · cases h
      · exact ih h

theorem find_eq_ok (h : d.find path = .ok place) : place = placeOf path := by
  rw [find] at h
  split at h
  · cases h
  · exact resolve_eq_ok h

theorem placeForFile_eq_some (h : d.placeForFile path = some place) :
    d.find path = .ok place ∧ place = placeOf path ∧ d.look place ≠ some .directory := by
  rw [placeForFile] at h
  split at h
  · next q hq =>
    split at h
    · cases h
    · next hlook =>
      obtain rfl := Option.some.inj h
      exact ⟨hq, find_eq_ok hq, hlook⟩
  · cases h

theorem read_eq_ok_iff : d.read path = .ok text ↔
    ∃ place, d.find path = .ok place ∧ d.look place = some (.file text) := by
  rw [read]
  cases hfind : d.find path with
  | error e => exact ⟨nofun, fun ⟨_, h, _⟩ => nomatch h⟩
  | ok place =>
    simp only [bind, Except.bind, Except.ok.injEq, exists_eq_left']
    cases hlook : d.look place with
    | none => simp
    | some entry => cases entry <;> simp

/-! ### What stays -/

/-- No directory is lost. -/
def KeepsDirectories (d d' : Disk) : Prop :=
  ∀ q, d.look q = some .directory → d'.look q = some .directory

theorem KeepsDirectories.trans (h : KeepsDirectories d d') (h' : KeepsDirectories d' d'') :
    KeepsDirectories d d'' := fun q hq => h' q (h q hq)

/-- The way to a place leads through directories. -/
theorem KeepsDirectories.resolve (h : KeepsDirectories d d') {names : List String} {start : Place}
    (hres : d.resolve start names = .ok place) : d'.resolve start names = .ok place := by
  induction names generalizing start with
  | nil => exact hres
  | cons name names ih =>
    rw [Disk.resolve] at hres ⊢
    split at hres
    · cases hres
    · cases hres
    · next hlook =>
      rw [h start hlook]
      split at hres
      · cases hres
      · next husable =>
        dsimp only
        rw [if_neg husable]
        exact ih hres

theorem KeepsDirectories.find (h : KeepsDirectories d d') (hfind : d.find path = .ok place) :
    d'.find path = .ok place := by
  rw [Disk.find] at hfind ⊢
  split at hfind
  · cases hfind
  · next hempty =>
    rw [if_neg hempty]
    exact h.resolve hfind

/-- The directories stay, and so does the file at a place; none comes there. -/
structure Spares (place : Place) (d d' : Disk) : Prop where
  directories : KeepsDirectories d d'
  file : ∀ text, d'.look place = some (.file text) ↔ d.look place = some (.file text)

theorem spares_refl (place : Place) (d : Disk) : Spares place d d :=
  ⟨fun _ h => h, fun _ => Iff.rfl⟩

theorem Spares.trans (h : Spares place d d') (h' : Spares place d' d'') : Spares place d d'' where
  directories := h.directories.trans h'.directories
  file text := (h'.file text).trans (h.file text)

/-- A file is read as before. -/
theorem Spares.read (h : Spares (placeOf path) d d') (hread : d.read path = .ok text) :
    d'.read path = .ok text := by
  obtain ⟨place, hfind, hlook⟩ := read_eq_ok_iff.1 hread
  obtain rfl := find_eq_ok hfind
  exact read_eq_ok_iff.2 ⟨_, h.directories.find hfind, (h.file text).2 hlook⟩

/-! ### What the operations leave alone -/

theorem keepsDirectories_putFile (hlook : d.look place ≠ some .directory) (text : String) :
    KeepsDirectories d (d.put place (.file text)) := by
  intro q hq
  have hne : q ≠ place := fun h => hlook (h ▸ hq)
  rw [look_put hlook, if_neg hne, hq]

theorem keepsDirectories_erase (hlook : d.look place ≠ some .directory) :
    KeepsDirectories d { d with entries := d.entries.erase place } := by
  intro q hq
  have hne : q ≠ place := fun h => hlook (h ▸ hq)
  rw [look_erase hlook, if_neg hne, hq]

theorem spares_putFile (hlook : d.look place ≠ some .directory) (hne : place ≠ place') :
    Spares place' d (d.put place (.file text)) where
  directories := keepsDirectories_putFile hlook text
  file t := by rw [look_put hlook, if_neg hne.symm]

theorem spares_erase (hlook : d.look place ≠ some .directory) (hne : place ≠ place') :
    Spares place' d { d with entries := d.entries.erase place } where
  directories := keepsDirectories_erase hlook
  file t := by rw [look_erase hlook, if_neg hne.symm]

theorem spares_putDirectory (hlook : d.look place = none) (q : Place) :
    Spares q d (d.put place .directory) := by
  have hlook' : d.look place ≠ some .directory := by simp [hlook]
  refine ⟨fun q' hq' => ?_, fun t => ?_⟩
  · rw [look_put hlook']
    split
    · rfl
    · exact hq'
  · rw [look_put hlook']
    split
    · next heq => simp [heq, hlook]
    · rfl

/-- Directories are made where there was nothing. -/
theorem spares_makeDirsAt (q start : Place) (names : List String) (d : Disk) :
    Spares q d (d.makeDirsAt start names).1 := by
  induction names generalizing d start with
  | nil => exact spares_refl q d
  | cons name names ih =>
    rw [makeDirsAt]
    split
    · exact ih _ d
    · exact spares_refl q d
    · next hlook =>
      split
      · exact spares_refl q d
      · exact (spares_putDirectory hlook q).trans (ih _ _)

theorem spares_makeDirs (q : Place) (d : Disk) (path : String) :
    Spares q d (d.makeDirs path).1 := spares_makeDirsAt q [] _ d

theorem spares_write (hne : placeOf path ≠ place) (d : Disk) (text : String) :
    Spares place d (d.write path text).1 := by
  rw [write]
  split
  · next q hq =>
    obtain ⟨-, rfl, hlook⟩ := placeForFile_eq_some hq
    exact spares_putFile hlook hne
  · exact spares_refl place d

theorem spares_remove (hne : placeOf path ≠ place) (d : Disk) :
    Spares place d (d.remove path) := by
  rw [remove]
  split
  · next q hq =>
    obtain ⟨-, rfl, hlook⟩ := placeForFile_eq_some hq
    exact spares_erase hlook hne
  · exact spares_refl place d

theorem spares_rename {source target : String} (hsource : placeOf source ≠ place)
    (htarget : placeOf target ≠ place) (d : Disk) : Spares place d (d.rename source target).1 := by
  rw [rename]
  split
  · next t p q _ hp hq =>
    obtain ⟨-, rfl, hp⟩ := placeForFile_eq_some hp
    obtain ⟨-, rfl, hq⟩ := placeForFile_eq_some hq
    refine (spares_erase hp hsource).trans (spares_putFile ?_ htarget)
    rw [look_erase hp]
    split
    · exact nofun
    · exact hq
  · exact spares_refl place d

theorem spares_nextOutage (q : Place) (d : Disk) : Spares q d d.nextOutage.2 := by
  rw [nextOutage]
  split <;> exact ⟨fun _ h => h, fun _ => Iff.rfl⟩

theorem spares_prepare (q : Place) (d : Disk) (outage : Option Outage) (path : String) :
    Spares q d (d.prepare outage path).1 := by
  have hdirs := spares_makeDirs q d (Path.parent path)
  rw [prepare]
  split
  · exact spares_refl q d
  · split
    all_goals
      next heq =>
      rw [heq] at hdirs
      exact hdirs

theorem spares_writeDraft (hne : placeOf (draftPath path) ≠ place) (d : Disk)
    (outage : Option Outage) (text : String) :
    Spares place d (d.writeDraft outage path text).1 := by
  rw [writeDraft.eq_def]
  dsimp only
  split
  · exact spares_refl place d
  · exact spares_write hne d _
  · have hwrite := spares_write hne d text
    split
    all_goals
      next heq =>
      rw [heq] at hwrite
      exact hwrite

theorem spares_commit (hdraft : placeOf (draftPath path) ≠ place) (hne : placeOf path ≠ place)
    (d : Disk) (outage : Option Outage) : Spares place d (d.commit outage path).1 := by
  have hrename := spares_rename hdraft hne d
  rw [commit]
  split
  · exact spares_refl place d
  · split
    all_goals
      next heq =>
      rw [heq] at hrename
      exact hrename

/-- A whole file is written, whatever that meets, without harm to the files that are
    neither at its place nor at that of its draft. -/
theorem spares_writeWhole (hdraft : placeOf (draftPath path) ≠ place) (hne : placeOf path ≠ place)
    (d : Disk) (text : String) : Spares place d (d.writeWhole path text).1 := by
  have houtage := spares_nextOutage place d
  rw [writeWhole]
  generalize d.nextOutage = next at houtage
  obtain ⟨outage, d₀⟩ := next
  have hprepare := houtage.trans (spares_prepare place d₀ outage path)
  dsimp only
  split
  · next d₁ e heq =>
    rw [heq] at hprepare
    exact hprepare
  · next d₁ heq =>
    rw [heq] at hprepare
    have hwrite := hprepare.trans (spares_writeDraft hdraft d₁ outage text)
    split
    · next d₂ e heq =>
      rw [heq] at hwrite
      exact hwrite
    · next d₂ heq =>
      rw [heq] at hwrite
      exact hwrite.trans (spares_commit hdraft hne d₂ outage)

/-! ### What is read back -/

theorem read_putFile (hfind : d.find path = .ok place) (hlook : d.look place ≠ some .directory)
    (text : String) : (d.put place (.file text)).read path = .ok text := by
  refine read_eq_ok_iff.2 ⟨place, (keepsDirectories_putFile hlook text).find hfind, ?_⟩
  rw [look_put hlook, if_pos rfl]

theorem read_write (h : d.write path text = (d', true)) : d'.read path = .ok text := by
  rw [write] at h
  split at h
  · next q hq =>
    obtain ⟨hfind, rfl, hlook⟩ := placeForFile_eq_some hq
    obtain rfl := congrArg Prod.fst h
    exact read_putFile hfind hlook text
  · cases h

theorem read_rename {source target : String} (hread : d.read source = .ok text)
    (h : d.rename source target = (d', true)) : d'.read target = .ok text := by
  rw [rename] at h
  split at h
  · next t p q ht hp hq =>
    obtain rfl := Except.ok.inj (hread.symm.trans ht)
    obtain ⟨-, rfl, hp⟩ := placeForFile_eq_some hp
    obtain ⟨hfind, rfl, hq⟩ := placeForFile_eq_some hq
    obtain rfl := congrArg Prod.fst h
    -- The file at the old place goes first, which is no directory on the way to the new one.
    refine read_putFile ((keepsDirectories_erase hp).find hfind) ?_ text
    rw [look_erase hp]
    split
    · exact nofun
    · exact hq
  · cases h

theorem read_writeDraft {outage : Option Outage}
    (h : d.writeDraft outage path text = (d', .ok ())) : d'.read (draftPath path) = .ok text := by
  rw [writeDraft.eq_def] at h
  dsimp only at h
  split at h
  · cases h
  · cases h
  · split at h
    · next heq =>
      obtain rfl := congrArg Prod.fst h
      exact read_write heq
    · cases h

theorem read_commit {outage : Option Outage} (hread : d.read (draftPath path) = .ok text)
    (h : d.commit outage path = (d', .ok ())) : d'.read path = .ok text := by
  rw [commit] at h
  split at h
  · cases h
  · split at h
    · next heq =>
      obtain rfl := congrArg Prod.fst h
      exact read_rename hread heq
    · cases h

/-- A whole file that was written is read back. -/
theorem read_writeWhole (h : d.writeWhole path text = (d', .ok ())) : d'.read path = .ok text := by
  rw [writeWhole] at h
  dsimp only at h
  split at h
  · cases h
  · split at h
    · cases h
    · next hdraft => exact read_commit (read_writeDraft hdraft) h

end ContentBlocking.Disk
