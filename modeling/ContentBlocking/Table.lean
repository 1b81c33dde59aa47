/-!
# Tables

A finite map is kept as the list of its pairs by ascending key, so that equal
maps are equal lists and every walk over a map has one order.

* `Table.get?`, `Table.set`, `Table.erase` — look-up and change.
* `Table.keys` — the keys in ascending order.
-/

namespace ContentBlocking

/-- A finite map as the list of its pairs by ascending key. -/
abbrev Table (κ α : Type) := List (κ × α)

namespace Table

variable {κ α : Type}

section

variable [DecidableEq κ]

/-- The value of a key. -/
def get? (t : Table κ α) (key : κ) : Option α :=
  match t with
  | [] => none
  | (k, v) :: rest => if k = key then some v else get? rest key

/-- The key has a value. -/
def has (t : Table κ α) (key : κ) : Bool := (t.get? key).isSome

/-- The table without a key. -/
def erase (t : Table κ α) (key : κ) : Table κ α := t.filter fun (k, _) => k ≠ key

/-- The table with a value for a key, in the place of any earlier one. -/
def set [LT κ] [DecidableLT κ] (t : Table κ α) (key : κ) (value : α) : Table κ α :=
  match t with
  | [] => [(key, value)]
  | (k, v) :: rest =>
    if k = key then (key, value) :: rest
    else if key < k then (key, value) :: (k, v) :: rest
    else (k, v) :: set rest key value

theorem get?_erase (t : Table κ α) (key key' : κ) :
    (t.erase key).get? key' = if key' = key then none else t.get? key' := by
  induction t with
  | nil => simp [erase, get?]
  | cons p rest ih =>
    obtain ⟨k, v⟩ := p
    simp only [erase] at ih
    by_cases hk : k = key
    · simp only [erase, List.filter_cons, hk, ne_eq, not_true_eq_false, decide_false,
        Bool.false_eq_true, if_false, ih, get?]
      grind
    · simp only [erase, List.filter_cons, hk, ne_eq, not_false_eq_true, decide_true, if_true,
        get?, ih]
      grind

theorem get?_set [LT κ] [DecidableLT κ] (t : Table κ α) (key key' : κ) (value : α) :
    (t.set key value).get? key' = if key' = key then some value else t.get? key' := by
  induction t with
  | nil => simp [set, get?, eq_comm]
  | cons p rest ih =>
    obtain ⟨k, v⟩ := p
    rw [set]
    split
    · next h => simp only [get?]; grind
    · split
      · simp only [get?]; grind
      · simp only [get?, ih]; grind

end

/-- The keys in ascending order. -/
def keys (t : Table κ α) : List κ := t.map (·.1)

/-- The values in the order of their keys. -/
def values (t : Table κ α) : List α := t.map (·.2)

end Table

/-! ### Ascending lists as sets -/

/-- The ascending list with one more item, unless it is there already. -/
def insertAscending {α : Type} [DecidableEq α] [LT α] [DecidableLT α] (a : α) :
    List α → List α
  | [] => [a]
  | b :: rest =>
    if a = b then b :: rest
    else if a < b then a :: b :: rest
    else b :: insertAscending a rest

/-- The items in ascending order, each once. -/
def ascending {α : Type} [DecidableEq α] [LT α] [DecidableLT α] (items : List α) : List α :=
  items.foldl (fun found a => insertAscending a found) []

theorem mem_insertAscending {α : Type} [DecidableEq α] [LT α] [DecidableLT α] {a b : α}
    {items : List α} : b ∈ insertAscending a items ↔ b = a ∨ b ∈ items := by
  induction items with
  | nil => simp [insertAscending]
  | cons c rest ih => rw [insertAscending]; grind

end ContentBlocking
