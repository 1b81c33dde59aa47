import ContentBlocking.Table
import Mathlib.Data.List.Nodup
import Mathlib.Data.List.Perm.Basic
import Mathlib.Order.Lattice

/-!
# Tables as collections

Up to their order, the pairs of a table are those that were there before a change and
the one that has come or gone.

* `Table.mem_keys`: the keys are what has a value;
* `Table.get?_eq_some_iff`: the value of a key stands beside it;
* `Table.perm_set`: a value for a new key;
* `Table.perm_erase`: a key that goes;
* `Table.IsAscending`: the keys stand in ascending order;
* `Table.IsAscending.eq_of_get?_eq`: such a table is told by the values of its keys;
* `Table.foldl_set_eq`: such a table is put together again from its pairs.
-/

namespace ContentBlocking.Table

variable {κ α : Type} [DecidableEq κ] {t : Table κ α} {key : κ} {value : α}

theorem mem_keys : key ∈ t.keys ↔ t.has key = true := by
  induction t with
  | nil => simp [keys, has, get?]
  | cons p rest ih =>
    obtain ⟨k, v⟩ := p
    rw [has] at ih
    rw [keys, List.map_cons, List.mem_cons, ← keys, ih, has, get?]
    split
    · next h => simp [h]
    · next h => simp [Ne.symm h]

theorem get?_eq_none_iff : t.get? key = none ↔ key ∉ t.keys := by
  rw [mem_keys, has, Bool.not_eq_true, Option.isSome_eq_false_iff, Option.isNone_iff_eq_none]

theorem get?_eq_some_iff (hkeys : t.keys.Nodup) :
    t.get? key = some value ↔ (key, value) ∈ t := by
  induction t with
  | nil => simp [get?]
  | cons p rest ih =>
    obtain ⟨k, v⟩ := p
    obtain ⟨hk, hrest⟩ := List.nodup_cons.1 hkeys
    rw [get?, List.mem_cons, Prod.mk.injEq]
    split
    · next heq =>
      subst heq
      -- The key stands nowhere else.
      have hnot : (k, value) ∉ rest := fun hmem => hk (List.mem_map_of_mem (f := (·.1)) hmem)
      simp [hnot, eq_comm]
    · next hne =>
      rw [ih hrest]
      simp [Ne.symm hne]

theorem perm_set [LT κ] [DecidableLT κ] (h : t.get? key = none) (value : α) :
    (t.set key value).Perm ((key, value) :: t) := by
  induction t with
  | nil => exact .refl _
  | cons p rest ih =>
    obtain ⟨k, v⟩ := p
    rw [get?] at h
    split at h
    · cases h
    · next hne =>
      rw [set, if_neg hne]
      split
      · exact .refl _
      · exact ((ih h).cons _).trans (.swap _ _ _)

theorem erase_of_get?_eq_none (h : t.get? key = none) : t.erase key = t := by
  rw [erase, List.filter_eq_self]
  intro p hp
  have hne : p.1 ≠ key := by
    rintro rfl
    exact get?_eq_none_iff.1 h (List.mem_map_of_mem hp)
  simpa using hne

theorem perm_erase (hkeys : t.keys.Nodup) (h : t.get? key = some value) :
    t.Perm ((key, value) :: t.erase key) := by
  induction t with
  | nil => cases h
  | cons p rest ih =>
    obtain ⟨k, v⟩ := p
    obtain ⟨hk, hrest⟩ := List.nodup_cons.1 hkeys
    rw [get?] at h
    split at h
    · next heq =>
      subst heq
      obtain rfl := Option.some.inj h
      -- The key stands nowhere else.
      have hsame : erase ((k, v) :: rest) k = rest := by
        rw [erase, List.filter_cons_of_neg (by simp)]
        exact erase_of_get?_eq_none (get?_eq_none_iff.2 hk)
      rw [hsame]
    · next hne =>
      have hcons : erase ((k, v) :: rest) key = (k, v) :: erase rest key := by
        rw [erase, List.filter_cons_of_pos (by simpa using hne), erase]
      rw [hcons]
      exact ((ih hrest h).cons _).trans (.swap _ _ _)

theorem nodup_keys_set [LT κ] [DecidableLT κ] (hkeys : t.keys.Nodup) (h : t.get? key = none)
    (value : α) : (t.set key value).keys.Nodup := by
  have hperm := (perm_set h value).map (·.1)
  exact hperm.nodup_iff.2 (List.nodup_cons.2 ⟨get?_eq_none_iff.1 h, hkeys⟩)

theorem nodup_keys_erase (hkeys : t.keys.Nodup) (key : κ) : (t.erase key).keys.Nodup :=
  hkeys.sublist (List.filter_sublist.map _)

/-! ### Ascending keys -/

section

variable {κ : Type} [LinearOrder κ] {t : Table κ α} {key : κ}

/-- The keys stand in ascending order. -/
def IsAscending (t : Table κ α) : Prop := t.keys.Pairwise (· < ·)

theorem isAscending_nil : IsAscending ([] : Table κ α) := List.Pairwise.nil

theorem mem_keys_set {value : α} {k : κ} (h : k ∈ (t.set key value).keys) :
    k = key ∨ k ∈ t.keys := by
  have hhas := mem_keys.1 h
  rw [has, get?_set] at hhas
  split at hhas
  · next heq => exact .inl heq
  · exact .inr (mem_keys.2 hhas)

theorem IsAscending.set (h : t.IsAscending) (key : κ) (value : α) :
    IsAscending (t.set key value) := by
  induction t with
  | nil => exact List.pairwise_singleton _ _
  | cons p rest ih =>
    obtain ⟨k, v⟩ := p
    obtain ⟨hhead, hrest⟩ := List.pairwise_cons.1 h
    rw [Table.set]
    split
    · next heq => exact heq ▸ h
    · next hne =>
      split
      · next hlt =>
        refine List.pairwise_cons.2 ⟨fun k' hk' => ?_, h⟩
        rcases List.mem_cons.1 hk' with rfl | hk'
        · exact hlt
        · exact lt_trans hlt (hhead k' hk')
      · next hle =>
        refine List.pairwise_cons.2 ⟨fun k' hk' => ?_, ih hrest⟩
        rcases mem_keys_set hk' with rfl | hk'
        · exact lt_of_le_of_ne (not_lt.1 hle) hne
        · exact hhead k' hk'

theorem IsAscending.foldl_set (h : t.IsAscending) (pairs : List (κ × α)) :
    IsAscending (pairs.foldl (fun (t : Table κ α) (k, v) => t.set k v) t) := by
  induction pairs generalizing t with
  | nil => exact h
  | cons p pairs ih => exact ih (h.set p.1 p.2)

theorem IsAscending.erase (h : t.IsAscending) (key : κ) : IsAscending (t.erase key) :=
  h.sublist (List.filter_sublist.map _)

theorem IsAscending.nodup_keys (h : t.IsAscending) : t.keys.Nodup := h.imp ne_of_lt

/-- There is one order for the pairs that the values of the keys tell. -/
theorem IsAscending.eq_of_get?_eq {t' : Table κ α} (h : t.IsAscending) (h' : t'.IsAscending)
    (hget : ∀ key, t.get? key = t'.get? key) : t = t' := by
  have hmem (p : κ × α) : p ∈ t ↔ p ∈ t' := by
    rw [← get?_eq_some_iff h.nodup_keys, ← get?_eq_some_iff h'.nodup_keys, hget]
  have hperm : t.Perm t' :=
    (List.perm_ext_iff_of_nodup (List.Nodup.of_map _ h.nodup_keys)
      (List.Nodup.of_map _ h'.nodup_keys)).2 hmem
  have hlt (t : Table κ α) (h : t.IsAscending) : t.Pairwise (·.1 < ·.1) := List.pairwise_map.1 h
  exact hperm.eq_of_pairwise (fun p q _ _ hpq hqp => absurd hqp (lt_asymm hpq)) (hlt t h)
    (hlt t' h')

/-- A greater key comes to the end. -/
theorem set_of_forall_lt (h : ∀ k ∈ t.keys, k < key) (value : α) :
    t.set key value = t ++ [(key, value)] := by
  induction t with
  | nil => rfl
  | cons p rest ih =>
    obtain ⟨k, v⟩ := p
    obtain ⟨hhead, hrest⟩ := List.forall_mem_cons.1 h
    replace hhead : k < key := hhead
    rw [set, if_neg (ne_of_lt hhead), if_neg (not_lt_of_gt hhead), ih hrest, List.cons_append]

/-- A table is put together again from its pairs. -/
theorem foldl_set_eq (h : t.IsAscending) :
    t.foldl (fun (t : Table κ α) (k, v) => t.set k v) [] = t := by
  have hfold (front rest : Table κ α) (hall : IsAscending (front ++ rest)) :
      rest.foldl (fun (t : Table κ α) (k, v) => t.set k v) front = front ++ rest := by
    induction rest generalizing front with
    | nil => exact (List.append_nil front).symm
    | cons p rest ih =>
      obtain ⟨k, v⟩ := p
      have hlast : ∀ k' ∈ front.keys, k' < k := by
        intro k' hk'
        rw [IsAscending, keys, List.map_append, List.pairwise_append] at hall
        exact hall.2.2 k' hk' k List.mem_cons_self
      rw [List.foldl_cons]
      dsimp only
      rw [set_of_forall_lt hlast, ih]
      · simp
      · simpa using hall
  exact hfold [] t h

end

end ContentBlocking.Table
