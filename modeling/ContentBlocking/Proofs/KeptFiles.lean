import ContentBlocking.Proofs.Disk.Values
import ContentBlocking.Proofs.Disk.WholeWrites

/-!
# Values kept in files

The settings, the counts and the lists are read once, and most edits write them to
their file. What is in memory does not depend on whether that could be done. The file
has what it had at first until a write succeeds, and then the value of the last write
that did.

* `Keeper`: a store that keeps its value in a file, with what was written last;
* `Keeper.IsLawful`: an edit writes the new value or nothing, and memory does not depend
  on the disk;
* `Keeper.KeepsWhole`: what follows for memory and the file, after any edits;
* `stores_keep_whole`: so it is for the settings, the counts and the lists.
-/

namespace ContentBlocking

/-! ### Keepers -/

/-- A store that keeps a value of type `σ` in a file, which is changed by edits of type
    `ε`; what is read back of it is of type `α`. -/
structure Keeper (σ ε α : Type) where
  path : String
  toJson : σ → Json
  ofJson? : Json → Option α
  /-- What is read back of a value. -/
  kept : σ → α
  opening : Disk → σ × Disk
  /-- Opening the store writes its value. -/
  savesFirst : Disk → Bool
  edit : ε → σ → Disk → σ × Disk
  /-- The edit writes the value. -/
  saves : ε → σ → Bool

namespace Keeper

variable {σ ε α : Type}

/-- The value in memory, the disk, and the value of the last write that succeeded. -/
structure State (σ : Type) where
  value : σ
  disk : Disk
  written : Option σ := none

/-- The value that was written last, when `x` was to be written or not. -/
def note (k : Keeper σ ε α) (saved : Bool) (x : σ) (d : Disk) (written : Option σ) : Option σ :=
  if saved && (d.writeJson k.path (k.toJson x)).2.isOk then some x else written

/-- The store is opened. -/
def opened (k : Keeper σ ε α) (d : Disk) : State σ where
  value := (k.opening d).1
  disk := (k.opening d).2
  written := k.note (k.savesFirst d) (k.opening d).1 d none

/-- An edit. -/
def step (k : Keeper σ ε α) (s : State σ) (e : ε) : State σ where
  value := (k.edit e s.value s.disk).1
  disk := (k.edit e s.value s.disk).2
  written := k.note (k.saves e s.value) (k.edit e s.value s.disk).1 s.disk s.written

/-- The store is opened over a disk and edited. -/
def after (k : Keeper σ ε α) (d : Disk) (edits : List ε) : State σ :=
  edits.foldl k.step (k.opened d)

/-- The disk after a value was written, or was not. -/
def saved (k : Keeper σ ε α) (saves : Bool) (x : σ) (d : Disk) : Disk :=
  if saves then (d.writeJson k.path (k.toJson x)).1 else d

/-- The store writes its value as a whole or not at all, and what is in memory does not
    depend on the disk once the store is open. -/
structure IsLawful (k : Keeper σ ε α) (IsGood : σ → Prop) : Prop where
  good_opening : ∀ d, IsGood (k.opening d).1
  good_edit : ∀ e x d, IsGood x → IsGood (k.edit e x d).1
  isPlain : ∀ x, (k.toJson x).IsPlain
  readBack : ∀ x, IsGood x → k.ofJson? (k.toJson x) = some (k.kept x)
  opening_fst : ∀ d d', d.readJson k.path k.ofJson? = d'.readJson k.path k.ofJson? →
    (k.opening d).1 = (k.opening d').1
  opening_snd : ∀ d, (k.opening d).2 = k.saved (k.savesFirst d) (k.opening d).1 d
  edit_fst : ∀ e x d d', (k.edit e x d).1 = (k.edit e x d').1
  edit_snd : ∀ e x d, IsGood x → (k.edit e x d).2 = k.saved (k.saves e x) (k.edit e x d).1 d

/-- After the edits memory is what it is over any other disk on which the store opens with
    the same value, such as one on which all writes succeed. The file is what it was
    before the store was opened, or the value of the last write that succeeded, and that
    is what is read back. -/
structure KeepsWhole (k : Keeper σ ε α) (d : Disk) (edits : List ε) : Prop where
  opens : ∀ d', d'.readJson k.path k.ofJson? = d.readJson k.path k.ofJson? →
    (k.opened d').value = (k.opened d).value
  value : ∀ d', (k.opened d').value = (k.opened d).value →
    (k.after d' edits).value = (k.after d edits).value
  text : (k.after d edits).disk.textAt k.path =
    match (k.after d edits).written with
    | some x => some (k.toJson x).indented
    | none => d.textAt k.path
  readBack : ∀ x, (k.after d edits).written = some x →
    (k.after d edits).disk.readJson k.path k.ofJson? = .ok (some (k.kept x))

variable {k : Keeper σ ε α} {IsGood : σ → Prop} {d : Disk} {s : State σ}

/-- What was written last is in the file, or else what was there at first. -/
structure Holds (k : Keeper σ ε α) (IsGood : σ → Prop) (original : Option String) (d : Disk)
    (written : Option σ) : Prop where
  unwritten : written = none → d.textAt k.path = original
  written : ∀ x, written = some x → IsGood x ∧ d.read k.path = .ok (k.toJson x).indented

theorem Holds.save {original : Option String} {written : Option σ}
    (h : k.Holds IsGood original d written) {x : σ} (hx : IsGood x) (saves : Bool) :
    k.Holds IsGood original (k.saved saves x d) (k.note saves x d written) := by
  rw [saved, note]
  rcases saves with _ | _
  · exact h
  · simp only [Bool.true_and, if_true]
    split
    · next hok =>
      refine ⟨nofun, fun y hy => ?_⟩
      obtain rfl := Option.some.inj hy
      exact ⟨hx, Disk.read_of_writeJson hok⟩
    · next hfailed =>
      have hspares := Disk.spares_of_writeJson hfailed
      refine ⟨fun hnone => hspares.textAt.trans (h.unwritten hnone), fun y hy => ?_⟩
      obtain ⟨hgood, hread⟩ := h.written y hy
      exact ⟨hgood, hspares.read hread⟩

theorem holds_opened (hk : k.IsLawful IsGood) (d : Disk) :
    IsGood (k.opened d).value ∧
      k.Holds IsGood (d.textAt k.path) (k.opened d).disk (k.opened d).written := by
  refine ⟨hk.good_opening d, ?_⟩
  rw [opened, hk.opening_snd]
  exact Holds.save ⟨fun _ => rfl, nofun⟩ (hk.good_opening d) _

theorem holds_step (hk : k.IsLawful IsGood) {original : Option String}
    (h : IsGood s.value ∧ k.Holds IsGood original s.disk s.written) (e : ε) :
    IsGood (k.step s e).value ∧ k.Holds IsGood original (k.step s e).disk (k.step s e).written := by
  obtain ⟨hgood, hholds⟩ := h
  have hedited := hk.good_edit e s.value s.disk hgood
  refine ⟨hedited, ?_⟩
  rw [step, hk.edit_snd e _ _ hgood]
  exact hholds.save hedited _

theorem holds_after (hk : k.IsLawful IsGood) (d : Disk) (edits : List ε) :
    IsGood (k.after d edits).value ∧
      k.Holds IsGood (d.textAt k.path) (k.after d edits).disk (k.after d edits).written := by
  rw [after]
  have hopened := holds_opened hk d
  generalize k.opened d = s at hopened ⊢
  induction edits generalizing s with
  | nil => exact hopened
  | cons e edits ih => exact ih (k.step s e) (holds_step hk hopened e)

theorem value_after (hk : k.IsLawful IsGood) {d d' : Disk}
    (h : (k.opened d').value = (k.opened d).value) (edits : List ε) :
    (k.after d' edits).value = (k.after d edits).value := by
  rw [after, after]
  generalize k.opened d = s at h ⊢
  generalize k.opened d' = s' at h ⊢
  induction edits generalizing s s' with
  | nil => exact h
  | cons e edits ih =>
    refine ih (k.step s e) (k.step s' e) ?_
    show (k.edit e s'.value s'.disk).1 = (k.edit e s.value s.disk).1
    rw [h, hk.edit_fst]

/-- Memory and the file of a lawful store. -/
theorem IsLawful.keepsWhole (hk : k.IsLawful IsGood) (d : Disk) (edits : List ε) :
    k.KeepsWhole d edits := by
  obtain ⟨-, hholds⟩ := holds_after hk d edits
  refine ⟨fun d' hread => hk.opening_fst d' d hread, fun d' hopened => value_after hk hopened edits,
    ?_, fun x hx => ?_⟩
  · rcases hwritten : (k.after d edits).written with _ | x
    · exact hholds.unwritten hwritten
    · exact Disk.textAt_of_read (hholds.written x hwritten).2
  · obtain ⟨hgood, hread⟩ := hholds.written x hx
    exact Disk.readJson_of_read hread (hk.isPlain x) (hk.readBack x hgood)

end Keeper

/-! ### Settings -/

namespace SettingsStore

/-- The settings in the file at a path. Every edit is written, and so are the defaults if
    there is no file. -/
def keeper (path : String) : Keeper SettingsStore (Settings → Settings) Settings where
  path := path
  toJson s := s.settings.toJson
  ofJson? := Settings.ofJson?
  kept := (·.settings)
  opening d := ofDisk d path
  savesFirst d := match d.readJson path Settings.ofJson? with
    | .ok none => true
    | _ => false
  edit change s d := s.change d change
  saves _ _ := true

theorem ofDisk_snd (d : Disk) (path : String) :
    (ofDisk d path).2 = (keeper path).saved ((keeper path).savesFirst d) (ofDisk d path).1 d := by
  rcases hread : d.readJson path Settings.ofJson? with e | _ | stored
  · have hfirst : (keeper path).savesFirst d = false := by simp only [keeper, hread]
    rw [hfirst, ofDisk, hread]
    rfl
  · have hfirst : (keeper path).savesFirst d = true := by simp only [keeper, hread]
    rw [hfirst, ofDisk, hread]
    rfl
  · have hfirst : (keeper path).savesFirst d = false := by simp only [keeper, hread]
    rw [hfirst, ofDisk, hread]
    rfl

theorem isLawful_keeper (path : String) : (keeper path).IsLawful (·.path = path) where
  good_opening d := by
    show (ofDisk d path).1.path = path
    rw [ofDisk]
    split <;> rfl
  good_edit _ _ _ h := h
  isPlain s := s.settings.isPlain_toJson
  readBack s _ := s.settings.ofJson?_toJson
  opening_fst d d' h := by
    show (ofDisk d path).1 = (ofDisk d' path).1
    have h : d.readJson path Settings.ofJson? = d'.readJson path Settings.ofJson? := h
    rw [ofDisk, ofDisk, h]
    split <;> rfl
  opening_snd d := ofDisk_snd d path
  edit_fst _ _ _ _ := rfl
  edit_snd f s d h := by
    show (s.change d f).2 = (d.writeJson path (f s.settings).toJson).1
    rw [change, update, save, h]

end SettingsStore

/-! ### Counts -/

namespace StatisticsTracker

/-- What is counted. -/
inductive Edit where
  | request
  | blocked (url : String) (page : Option String) (size : Option UInt64)
  | pageLoad (url : String)
  | resetSession

/-- Counts something. -/
def editWith {m : Type → Type} [Monad m] (c : Counting m) (t : StatisticsTracker) (d : Disk) :
    Edit → m (StatisticsTracker × Disk)
  | .request => t.recordRequest c d
  | .blocked url page size => t.recordBlocked c d url page size
  | .pageLoad url => return t.recordPageLoad d url
  | .resetSession => return t.resetSession d

/-- Counts something, in a build without overflow checks. -/
def edit (t : StatisticsTracker) (d : Disk) (e : Edit) : StatisticsTracker × Disk :=
  (t.editWith .wrapping d e).run

/-- The counts in the file at a path. Every edit is written. -/
def keeper (path : String) (maxPages : Nat) (defaultBytes : UInt64) :
    Keeper StatisticsTracker Edit Statistics where
  path := path
  toJson t := t.snapshot.toJson
  ofJson? := Statistics.ofJson?
  kept := snapshot
  opening d := (ofDisk d path maxPages defaultBytes, d)
  savesFirst _ := false
  edit e t d := t.edit d e
  saves _ _ := true

/-- The counts belong to the file at the path, and those by domain stand in ascending
    order. -/
structure IsGood (path : String) (t : StatisticsTracker) : Prop where
  path : t.path = path
  domains : t.domains.IsAscending

variable {t : StatisticsTracker} {path : String}

theorem isGood_ofDisk (d : Disk) (path : String) (maxPages : Nat) (defaultBytes : UInt64) :
    (ofDisk d path maxPages defaultBytes).IsGood path where
  path := rfl
  domains := by
    rw [ofDisk]
    dsimp only
    split
    · next stored hread =>
      obtain ⟨text, -, hfound⟩ := Disk.exists_of_readJson hread
      obtain ⟨j, -, hj⟩ := Option.bind_eq_some_iff.1 hfound
      exact Statistics.isAscending_of_ofJson? hj
    · exact Table.isAscending_nil

theorem isAscending_countDomain {domains : Table String UInt64} (h : domains.IsAscending)
    (url : String) : (countDomain .wrapping domains url).run.IsAscending := by
  rw [countDomain]
  split
  · exact h.set _ _
  · exact h

theorem IsGood.edit (h : t.IsGood path) (d : Disk) (e : Edit) : (t.edit d e).1.IsGood path := by
  rcases e with _ | ⟨url, page, size⟩ | url | _
  · exact ⟨h.path, h.domains⟩
  · exact ⟨h.path, isAscending_countDomain h.domains url⟩
  · exact ⟨h.path, h.domains⟩
  · exact ⟨h.path, h.domains⟩

theorem isLawful_keeper (path : String) (maxPages : Nat) (defaultBytes : UInt64) :
    (keeper path maxPages defaultBytes).IsLawful (IsGood path) where
  good_opening d := isGood_ofDisk d path maxPages defaultBytes
  good_edit e t d h := h.edit d e
  isPlain t := t.snapshot.isPlain_toJson
  readBack _ h := Statistics.ofJson?_toJson h.domains
  opening_fst d d' h := by
    show ofDisk d path maxPages defaultBytes = ofDisk d' path maxPages defaultBytes
    have h : d.readJson path Statistics.ofJson? = d'.readJson path Statistics.ofJson? := h
    rw [ofDisk, ofDisk, h]
  opening_snd _ := rfl
  edit_fst e _ _ _ := by rcases e <;> rfl
  edit_snd e t d h := by
    obtain rfl := h.path
    rcases e <;> rfl

end StatisticsTracker

/-! ### Lists -/

namespace Registry

/-- What is done with the lists. -/
inductive Edit where
  | add (name url : String)
  | remove (id : String)
  | setEnabled (id : String) (enabled : Bool)
  | markUpdated (id : String) (time : UInt64)

/-- Does something with the lists, if it is possible. -/
def edit (r : Registry) (d : Disk) : Edit → Registry × Disk
  | .add name url => ((r.add d name url).1, (r.add d name url).2.1)
  | .remove id => ((r.remove d id).1, (r.remove d id).2.1)
  | .setEnabled id enabled => ((r.setEnabled d id enabled).1, (r.setEnabled d id enabled).2.1)
  | .markUpdated id time => r.markUpdated d id time

/-- The edit changes the lists. -/
def changedBy (r : Registry) : Edit → Bool
  | .add name url => (r.add {} name url).2.2.isOk
  | .remove id => (r.remove {} id).2.2.isOk
  | .setEnabled id enabled => (r.get? id).any (·.isEnabled ≠ enabled)
  | .markUpdated id time => (r.get? id).any (·.lastUpdated ≠ some time)

/-- The lists in the file at a path, if that is not empty. They are written when they are
    read, and whenever they are changed. -/
def keeper (path : String) (urls : UrlReader) : Keeper Registry Edit (List FilterList) where
  path := path
  toJson r := toJson r.lists
  ofJson? := Json.list? FilterList.ofJson?
  kept := (·.lists)
  opening d := ofDisk d path urls
  savesFirst _ := !path.isEmpty
  edit e r d := r.edit d e
  saves e r := !path.isEmpty && r.changedBy e

theorem save_eq (r : Registry) (d : Disk) :
    r.save d = if !r.path.isEmpty then (d.writeJson r.path (toJson r.lists)).1 else d := by
  rw [save]
  rcases r.path.isEmpty <;> rfl

/-- An edit changes the lists and writes them, or does nothing. -/
theorem edit_cases (r : Registry) (e : Edit) :
    (r.changedBy e = false ∧ ∀ d, r.edit d e = (r, d)) ∨
      (r.changedBy e = true ∧ ∃ lists, ∀ d,
        r.edit d e = ({ r with lists := lists }, save { r with lists := lists } d)) := by
  rcases e with ⟨name, url⟩ | id | ⟨id, enabled⟩ | ⟨id, time⟩
  · simp only [changedBy, edit, add]
    split
    · exact .inl ⟨rfl, fun _ => rfl⟩
    · split
      · exact .inl ⟨rfl, fun _ => rfl⟩
      · exact .inr ⟨rfl, _, fun _ => rfl⟩
  · simp only [changedBy, edit, remove]
    split
    · exact .inl ⟨rfl, fun _ => rfl⟩
    · split
      · exact .inl ⟨rfl, fun _ => rfl⟩
      · exact .inr ⟨rfl, _, fun _ => rfl⟩
  · simp only [changedBy, edit, setEnabled]
    rcases r.get? id with _ | list
    · exact .inl ⟨rfl, fun _ => rfl⟩
    · by_cases h : list.isEnabled = enabled
      · exact .inl ⟨by simp [h], fun _ => by simp only [if_pos h]⟩
      · exact .inr ⟨by simp [h], _, fun _ => by simp only [if_neg h]; rfl⟩
  · simp only [changedBy, edit, markUpdated]
    rcases r.get? id with _ | list
    · exact .inl ⟨rfl, fun _ => rfl⟩
    · by_cases h : list.lastUpdated = some time
      · exact .inl ⟨by simp [h], fun _ => by simp only [if_pos h]⟩
      · exact .inr ⟨by simp [h], _, fun _ => by simp only [if_neg h]; rfl⟩

theorem isLawful_keeper (path : String) (urls : UrlReader) :
    (keeper path urls).IsLawful (·.path = path) where
  good_opening _ := rfl
  good_edit e r d h := by
    show (r.edit d e).1.path = path
    rcases r.edit_cases e with ⟨-, hedit⟩ | ⟨-, lists, hedit⟩
    · rw [hedit, h]
    · rw [hedit]
      exact h
  isPlain r := isPlain_toJson r.lists
  readBack r _ := list?_toJson r.lists
  opening_fst d d' h := by
    show (ofDisk d path urls).1 = (ofDisk d' path urls).1
    have h : d.readJson path (Json.list? FilterList.ofJson?) =
      d'.readJson path (Json.list? FilterList.ofJson?) := h
    rw [ofDisk, ofDisk, h]
  opening_snd d := by
    show save (ofDisk d path urls).1 d = _
    rw [save_eq]
    rfl
  edit_fst e r d d' := by
    show (r.edit d e).1 = (r.edit d' e).1
    rcases r.edit_cases e with ⟨-, hedit⟩ | ⟨-, lists, hedit⟩
    · rw [hedit, hedit]
    · rw [hedit, hedit]
  edit_snd e r d h := by
    obtain rfl := h
    show (r.edit d e).2 =
      (keeper r.path urls).saved ((keeper r.path urls).saves e r) (r.edit d e).1 d
    have hsaves : (keeper r.path urls).saves e r = (!r.path.isEmpty && r.changedBy e) := rfl
    rcases r.edit_cases e with ⟨hsame, hedit⟩ | ⟨hchanged, lists, hedit⟩
    · rw [hsaves, hsame, Bool.and_false, hedit]
      rfl
    · rw [hsaves, hchanged, Bool.and_true, hedit]
      exact save_eq _ d

end Registry

/-! ### The three stores -/

/-- The settings, the counts and the lists, read from any disk and edited in any way, with
    any of their writes breaking off at any stage, are in memory what they are when all of
    them succeed. Their files have what they had at first or what was last written. -/
theorem stores_keep_whole (d : Disk) (path : String) :
    (∀ edits, (SettingsStore.keeper path).KeepsWhole d edits) ∧
      (∀ maxPages defaultBytes edits,
        (StatisticsTracker.keeper path maxPages defaultBytes).KeepsWhole d edits) ∧
      ∀ urls edits, (Registry.keeper path urls).KeepsWhole d edits :=
  ⟨fun edits => (SettingsStore.isLawful_keeper path).keepsWhole d edits,
    fun maxPages defaultBytes edits =>
      (StatisticsTracker.isLawful_keeper path maxPages defaultBytes).keepsWhole d edits,
    fun urls edits => (Registry.isLawful_keeper path urls).keepsWhole d edits⟩

/-- The last write breaks off when the draft is moved, so the file keeps what the write
    before has put there. -/
example :
    let d : Disk := { outages := [none, none, some .atRename] }
    let s := (SettingsStore.keeper "settings.json").after d
      [({ · with isEnabled := false }), ({ · with totalBlockedRequests := 1 })]
    s.value.settings = { isEnabled := false, totalBlockedRequests := 1 } ∧
      s.written.map (·.settings) = some { isEnabled := false } := by
  decide +kernel

end ContentBlocking
