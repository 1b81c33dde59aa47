import ContentBlocking.Proofs.Json.RoundTrip

/-!
# Records read back

The members of a record are found by their names, and lists of texts and counters are
read back as they were written.
-/

namespace ContentBlocking.Json

variable {α : Type}

/-! ### Members -/

namespace Fields

variable {fields : Fields} {name : String}

theorem get?_of_lookup {value? : Json → Option α} {j : Json}
    (h : fields.lookup name = some (some j)) : fields.get? name value? = value? j := by
  simp [get?, h]

theorem getD?_of_given {value? : Json → Option α} {j : Json} (default : α)
    (h : fields.lookup name = some (some j)) : fields.getD? name value? default = value? j := by
  simp [getD?, h]

/-- A member that is left out if there is nothing to say is read back. -/
theorem getD?_of_lookup {o : Option α} {write : α → Json} {value? : Json → Option (Option α)}
    (h : fields.lookup name = some (o.map write)) (hw : ∀ a, value? (write a) = some (some a)) :
    fields.getD? name value? none = some o := by
  cases o with
  | none => simp [getD?, h]
  | some a => simp [getD?, h, hw]

end Fields

/-! ### Values of members -/

theorem list?_map {write : α → Json} {item? : Json → Option α} {items : List α}
    (h : ∀ a ∈ items, item? (write a) = some a) :
    list? item? (.arr (items.map write)) = some items := by
  rw [list?, List.mapM_map]
  induction items with
  | nil => rfl
  | cons a items ih =>
    obtain ⟨ha, hitems⟩ := List.forall_mem_cons.1 h
    rw [List.mapM_cons, ih hitems, Function.comp_apply, ha]
    rfl

theorem map?_map {write : α → Json} {value? : Json → Option α} (h : ∀ a, value? (write a) = some a)
    (members : List (String × α)) :
    map? value? (.obj (members.map fun (key, a) => (key, write a))) = some members := by
  rw [map?, List.mapM_map]
  induction members with
  | nil => rfl
  | cons member members ih =>
    rw [List.mapM_cons, ih, Function.comp_apply]
    dsimp only
    rw [h]
    rfl

theorem list?_strings (ss : List String) : list? str? (.arr (ss.map .str)) = some ss :=
  list?_map fun _ _ => rfl

theorem isPlain_list {write : α → Json} (h : ∀ a, (write a).IsPlain) (items : List α) :
    IsPlain (.arr (items.map write)) := by
  refine .arr fun j hj => ?_
  obtain ⟨a, -, rfl⟩ := List.mem_map.1 hj
  exact h a

theorem isPlain_strings (ss : List String) : IsPlain (.arr (ss.map .str)) :=
  isPlain_list (fun _ => .str) ss

theorem orNull?_of_ne_null {value? : Json → Option α} {j : Json} (h : j ≠ .null) :
    orNull? value? j = (value? j).map some := by
  cases j <;> first | rfl | exact absurd rfl h

theorem count?_nat {n : Nat} (h : n < UInt64.size) : count? (.nat n) = some n := if_pos h

theorem word?_toNat (n : UInt64) : word? (.nat n.toNat) = some n := by
  rw [word?, count?_nat n.toNat_lt_size, Option.map_some]
  exact congrArg some n.ofNat_toNat

end ContentBlocking.Json
