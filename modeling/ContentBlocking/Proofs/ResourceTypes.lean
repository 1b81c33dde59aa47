import ContentBlocking.ResourceType
import Mathlib.Data.List.Basic

/-!
# Sets of resource types by their members

A set of types is told by the types that belong to it, so a rule for some listed types
applies to a request if none is listed or the request has one of them.

* `ext_contains`: sets with the same members are the same;
* `covers_ofList_iff`: the requests to which a rule for the listed types applies.
-/

namespace ContentBlocking.ResourceTypes

variable {s s' : ResourceTypes} {t : ResourceType}

theorem contains_empty (t : ResourceType) : (∅ : ResourceTypes).contains t = false := by
  cases t <;> rfl

theorem contains_singleton (t t' : ResourceType) :
    (singleton t).contains t' = decide (t = t') := by
  cases t <;> cases t' <;> rfl

theorem contains_union (s s' : ResourceTypes) (t : ResourceType) :
    (s.union s').contains t = (s.contains t || s'.contains t) :=
  BitVec.getLsbD_or

theorem exists_index (i : Fin 9) : ∃ t : ResourceType, t.index = i := by
  have hall : ∀ i : Fin 9, (ResourceType.all.any fun t => t.index = i) = true := by decide
  obtain ⟨t, -, ht⟩ := List.any_eq_true.1 (hall i)
  exact ⟨t, of_decide_eq_true ht⟩

/-- Sets with the same members are the same. -/
theorem ext_contains (h : ∀ t, s.contains t = s'.contains t) : s = s' := by
  obtain ⟨mask⟩ := s
  obtain ⟨mask'⟩ := s'
  refine congrArg ResourceTypes.mk (BitVec.eq_of_getLsbD_eq fun i hi => ?_)
  obtain ⟨t, ht⟩ := exists_index ⟨i, hi⟩
  have hbit := h t
  rw [contains, contains, ht] at hbit
  exact hbit

theorem isEmpty_iff : s.isEmpty = true ↔ ∀ t, s.contains t = false := by
  have hempty : s.isEmpty = true ↔ s = ∅ := by
    rw [isEmpty, beq_iff_eq]
    exact ⟨fun h => congrArg ResourceTypes.mk h, fun h => congrArg mask h⟩
  rw [hempty]
  constructor
  · rintro rfl
    exact contains_empty
  · exact fun h => ext_contains fun t => (h t).trans (contains_empty t).symm

theorem contains_inter (s s' : ResourceTypes) (t : ResourceType) :
    contains ⟨s.mask &&& s'.mask⟩ t = (s.contains t && s'.contains t) :=
  BitVec.getLsbD_and

theorem meets_iff :
    s.meets s' = true ↔ ∃ t, s.contains t = true ∧ s'.contains t = true := by
  have hmeets : s.meets s' = !isEmpty ⟨s.mask &&& s'.mask⟩ := rfl
  rw [hmeets, Bool.not_eq_true', ← Bool.not_eq_true, isEmpty_iff]
  simp [contains_inter]

theorem contains_ofList {ts : List ResourceType} : (ofList ts).contains t = true ↔ t ∈ ts := by
  have hfold (s : ResourceTypes) :
      (ts.foldl insert s).contains t = true ↔ s.contains t = true ∨ t ∈ ts := by
    induction ts generalizing s with
    | nil => simp
    | cons t' ts ih =>
      rw [List.foldl_cons, ih, insert, contains_union, contains_singleton, List.mem_cons,
        Bool.or_eq_true, decide_eq_true_iff, or_assoc, @eq_comm _ t']
  rw [ofList, hfold, contains_empty]
  simp

/-- A rule for the listed types applies to the requests that have one of them; if none is
    listed, to all. -/
theorem covers_ofList_iff {ts : List ResourceType} : (ofList ts).covers s = true ↔
    ts = [] ∨ ∃ t ∈ ts, s.contains t = true := by
  rw [covers, Bool.or_eq_true, isEmpty_iff, meets_iff]
  simp only [← Bool.not_eq_true, contains_ofList, List.eq_nil_iff_forall_not_mem]

end ContentBlocking.ResourceTypes
