import ContentBlocking.Table
import Mathlib.Data.List.Induction
import Mathlib.Data.List.Sort

/-!
# Ascending lists

A set is kept as the ascending list of its members, so it is known by them.

* `pairwise_ascending`, `mem_ascending`: the list of a set is ascending and has its members;
* `ascending_eq_iff`: there is no other such list.
-/

namespace ContentBlocking

variable {α : Type} [LinearOrder α] {items items' : List α}

theorem pairwise_insertAscending (h : items.Pairwise (· < ·)) (a : α) :
    (insertAscending a items).Pairwise (· < ·) := by
  induction items with
  | nil => exact List.pairwise_singleton _ _
  | cons b rest ih =>
    obtain ⟨hhead, hrest⟩ := List.pairwise_cons.1 h
    rw [insertAscending]
    split
    · exact h
    · next hne =>
      split
      · next hlt =>
        refine List.pairwise_cons.2 ⟨fun c hc => ?_, h⟩
        rcases List.mem_cons.1 hc with rfl | hc
        · exact hlt
        · exact lt_trans hlt (hhead c hc)
      · next hle =>
        refine List.pairwise_cons.2 ⟨fun c hc => ?_, ih hrest⟩
        rcases mem_insertAscending.1 hc with rfl | hc
        · exact lt_of_le_of_ne (not_lt.1 hle) (Ne.symm hne)
        · exact hhead c hc

theorem ascending_concat (items : List α) (a : α) :
    ascending (items ++ [a]) = insertAscending a (ascending items) := by
  rw [ascending, List.foldl_append, ascending]
  rfl

theorem pairwise_ascending (items : List α) : (ascending items).Pairwise (· < ·) := by
  induction items using List.reverseRecOn with
  | nil => exact .nil
  | append_singleton items a ih =>
    rw [ascending_concat]
    exact pairwise_insertAscending ih a

theorem mem_ascending {a : α} : a ∈ ascending items ↔ a ∈ items := by
  induction items using List.reverseRecOn with
  | nil => exact Iff.rfl
  | append_singleton items b ih =>
    rw [ascending_concat, mem_insertAscending, ih, List.mem_append, List.mem_singleton, or_comm]

/-- Items are put into the ascending list that has the same members. -/
theorem ascending_eq_iff (h : items'.Pairwise (· < ·)) :
    ascending items = items' ↔ ∀ a, a ∈ items ↔ a ∈ items' := by
  constructor
  · rintro rfl a
    exact mem_ascending.symm
  · intro hmem
    exact (pairwise_ascending items).eq_of_mem_iff h fun a => mem_ascending.trans (hmem a)

end ContentBlocking
