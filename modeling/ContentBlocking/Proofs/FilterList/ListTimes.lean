import ContentBlocking.Proofs.FilterList.RegistryRestarts

/-!
# Times of lists

The registry has for every list the time of its last download. Only a note of a download
changes it: a list that is added has none yet, and the others keep theirs whatever else is
done with the lists.

* `Registry.timeOf?`: the time of the list with an identifier;
* `Registry.timeOf?_markUpdated`: the note of a download;
* `Registry.KeepsTimes`, `Registry.keepsTimes_edit`: all other edits.
-/

namespace ContentBlocking

namespace Registry

/-- The time of the last download of the list with the identifier, if there is such a
    list. -/
def timeOf? (r : Registry) (id : String) : Option (Option UInt64) := (r.get? id).map (·.lastUpdated)

variable {r : Registry} {id id' : String}

/-- A list has the time that is found under its identifier, if no other list has that. -/
theorem timeOf?_of_mem (hids : (r.lists.map (·.id)).Nodup) {l : FilterList} (hl : l ∈ r.lists) :
    r.timeOf? l.id = some l.lastUpdated := by
  rw [timeOf?, get?, find?_eq_of_mem hids hl rfl, Option.map_some]

theorem timeOf?_eq_some {time : Option UInt64} (h : r.timeOf? id = some time) :
    ∃ l ∈ r.lists, l.id = id ∧ l.lastUpdated = time := by
  obtain ⟨l, hfound, hl⟩ := Option.map_eq_some_iff.1 h
  exact ⟨l, List.mem_of_find?_eq_some hfound, by simpa using List.find?_some hfound, hl⟩

theorem timeOf?_eq_none_iff : r.timeOf? id = none ↔ ∀ l ∈ r.lists, l.id ≠ id := by
  rw [timeOf?, Option.map_eq_none_iff, get?, List.find?_eq_none]
  simp only [beq_iff_eq, ne_eq]

/-! ### Notes of downloads -/

/-- A change of a list is found under its identifier, and under no other. -/
theorem find?_changeFirst {change : FilterList → FilterList} (hc : ∀ l, (change l).id = l.id)
    (id id' : String) (lists : List FilterList) :
    (changeFirst id change lists).find? (·.id == id') =
      (lists.find? (·.id == id')).map fun l => if id' = id then change l else l := by
  induction lists with
  | nil => rfl
  | cons l lists ih =>
    rw [changeFirst]
    by_cases hl : l.id = id <;> by_cases hl' : l.id = id'
    · rw [if_pos hl, List.find?_cons_of_pos (by simp [hc, hl']),
        List.find?_cons_of_pos (by simp [hl']), Option.map_some, if_pos (hl'.symm.trans hl)]
    · have hne : ¬id' = id := fun h => hl' (hl.trans h.symm)
      rw [if_pos hl, List.find?_cons_of_neg (by simp [hc, hl']),
        List.find?_cons_of_neg (by simp [hl'])]
      simp only [if_neg hne, Option.map_id']
    · have hne : ¬id' = id := fun h => hl (hl'.trans h)
      rw [if_neg hl, List.find?_cons_of_pos (by simp [hl']),
        List.find?_cons_of_pos (by simp [hl']), Option.map_some, if_neg hne]
    · rw [if_neg hl, List.find?_cons_of_neg (by simp [hl']),
        List.find?_cons_of_neg (by simp [hl']), ih]

theorem timeOf?_changeFirst {change : FilterList → FilterList} (hid : ∀ l, (change l).id = l.id)
    {f : Option UInt64 → Option UInt64} (hf : ∀ l, (change l).lastUpdated = f l.lastUpdated)
    (r : Registry) (id id' : String) :
    timeOf? { r with lists := changeFirst id change r.lists } id' =
      (r.timeOf? id').map fun time => if id' = id then f time else time := by
  rw [timeOf?, get?, find?_changeFirst hid, timeOf?, get?, Option.map_map, Option.map_map]
  congr 1
  funext l
  simp only [Function.comp_apply]
  split
  · exact hf l
  · rfl

/-- A note of a download gives its list the time of the download. -/
theorem timeOf?_markUpdated (r : Registry) (d : Disk) (id id' : String) (time : UInt64) :
    (r.markUpdated d id time).1.timeOf? id' =
      (r.timeOf? id').map fun last => if id' = id then some time else last := by
  have hsame (h : ∀ last ∈ r.timeOf? id, last = some time) : r.timeOf? id' =
      (r.timeOf? id').map fun last => if id' = id then some time else last := by
    by_cases hid : id' = id
    · subst hid
      simp only [if_true]
      rcases htime : r.timeOf? id' with _ | last
      · rfl
      · rw [h last htime, Option.map_some]
    · simp only [if_neg hid, Option.map_id']
  rw [markUpdated]
  split
  · next hnone =>
    refine hsame fun last hlast => ?_
    rw [timeOf?, hnone] at hlast
    cases hlast
  · next l hl =>
    split
    · next htime =>
      refine hsame fun last hlast => ?_
      rw [timeOf?, hl] at hlast
      exact (Option.some.inj hlast).symm.trans htime
    · have hid (l : FilterList) : { l with lastUpdated := some time }.id = l.id := rfl
      exact timeOf?_changeFirst hid (f := fun _ => some time) (fun _ => rfl) r id id'

theorem ids_markUpdated (r : Registry) (d : Disk) (id : String) (time : UInt64) :
    (r.markUpdated d id time).1.lists.map (·.id) = r.lists.map (·.id) := by
  rw [markUpdated]
  split
  · rfl
  · split
    · rfl
    · have hid (l : FilterList) : { l with lastUpdated := some time }.id = l.id := rfl
      exact map_changeFirst id hid r.lists

/-! ### Other edits -/

/-- The edit notes a download. -/
def Edit.isNote : Edit → Bool
  | .markUpdated _ _ => true
  | _ => false

/-- No two lists of `r'` have the same identifier, and every one has the time that it had
    in `r`, or is new and has none. -/
structure KeepsTimes (r r' : Registry) : Prop where
  ids : (r'.lists.map (·.id)).Nodup
  time : ∀ id time, r'.timeOf? id = some time →
    r.timeOf? id = some time ∨ r.timeOf? id = none ∧ time = none

theorem keepsTimes_refl (hids : (r.lists.map (·.id)).Nodup) : r.KeepsTimes r :=
  ⟨hids, fun _ _ => .inl⟩

/-- The lists that are left have the times they had. -/
theorem keepsTimes_of_sublist (hids : (r.lists.map (·.id)).Nodup) {lists : List FilterList}
    (h : lists.Sublist r.lists) : r.KeepsTimes { r with lists := lists } where
  ids := hids.sublist (h.map _)
  time id time htime := by
    obtain ⟨l, hl, rfl, rfl⟩ := timeOf?_eq_some htime
    exact .inl (timeOf?_of_mem hids (h.subset hl))

/-- Only notes of downloads change the times of lists. -/
theorem keepsTimes_edit (hids : (r.lists.map (·.id)).Nodup) (d : Disk) {e : Edit}
    (he : e.isNote = false) : r.KeepsTimes (r.edit d e).1 := by
  rcases e with ⟨name, url⟩ | id | ⟨id, enabled⟩ | ⟨id, time⟩
  · simp only [edit, add]
    split
    · exact keepsTimes_refl hids
    · next normal _ =>
      split
      · exact keepsTimes_refl hids
      · next hfree =>
        have hnew : ∀ l ∈ r.lists, l.id ≠ (FilterList.custom name normal).id := fun l hl => by
          have hl := List.any_eq_false.1 (Bool.eq_false_iff.2 hfree) l hl
          exact fun heq => hl (by simpa [FilterList.custom] using Or.inl heq)
        refine ⟨nodup_map_append hids hnew, fun id time htime => ?_⟩
        obtain ⟨l, hl, rfl, rfl⟩ := timeOf?_eq_some htime
        rcases List.mem_append.1 hl with hl | hl
        · exact .inl (timeOf?_of_mem hids hl)
        · obtain rfl := List.mem_singleton.1 hl
          exact .inr ⟨timeOf?_eq_none_iff.2 hnew, rfl⟩
  · simp only [edit, remove]
    split
    · exact keepsTimes_refl hids
    · split
      · exact keepsTimes_refl hids
      · exact keepsTimes_of_sublist hids List.eraseP_sublist
  · simp only [edit, setEnabled]
    split
    · exact keepsTimes_refl hids
    · split
      · exact keepsTimes_refl hids
      · have hid (l : FilterList) : { l with isEnabled := enabled }.id = l.id := rfl
        refine ⟨?_, fun id' time htime => .inl ?_⟩
        · exact (map_changeFirst id hid r.lists).symm ▸ hids
        · have hsame := timeOf?_changeFirst hid (f := fun time => time) (fun _ => rfl) r id id'
          simp only [ite_self, Option.map_id'] at hsame
          exact hsame.symm.trans htime
  · cases he

end Registry

end ContentBlocking
