import ContentBlocking.Rule

/-!
# Removing duplicates

A blocking rule that equals an earlier one is dropped. Exceptions stay where
they are, since they cancel what stands before them.

* `distinctRules` — the rules without duplicates.
* `duplicates` — how many of them are dropped.
-/

namespace ContentBlocking

/-- The rules without those that equal an earlier blocking rule or one of
    `seen`. -/
def distinctFrom (seen : List Rule) : List Rule → List Rule
  | [] => []
  | r :: rest =>
    if r.isException then r :: distinctFrom seen rest
    else if r ∈ seen then distinctFrom seen rest
    else r :: distinctFrom (r :: seen) rest

/-- The rules without blocking rules that equal an earlier one. -/
def distinctRules (rules : List Rule) : List Rule := distinctFrom [] rules

/-- The number of rules that equal an earlier blocking rule or one of `seen`. -/
def duplicatesFrom (seen : List Rule) : List Rule → Nat
  | [] => 0
  | r :: rest =>
    if r.isException then duplicatesFrom seen rest
    else if r ∈ seen then duplicatesFrom seen rest + 1
    else duplicatesFrom (r :: seen) rest

/-- The number of blocking rules that equal an earlier one. -/
def duplicates (rules : List Rule) : Nat := duplicatesFrom [] rules

theorem distinctFrom_sublist (seen rules : List Rule) :
    (distinctFrom seen rules).Sublist rules := by
  induction rules generalizing seen with
  | nil => exact List.Sublist.slnil
  | cons r rest ih =>
    rw [distinctFrom]
    split
    · exact (ih seen).cons_cons r
    · split
      · exact (ih seen).cons r
      · exact (ih (r :: seen)).cons_cons r

/-- Every rule is kept or counted as a duplicate. -/
theorem duplicatesFrom_add_length (seen rules : List Rule) :
    duplicatesFrom seen rules + (distinctFrom seen rules).length = rules.length := by
  induction rules generalizing seen with
  | nil => rfl
  | cons r rest ih =>
    rw [duplicatesFrom, distinctFrom]
    split
    · rw [List.length_cons, List.length_cons, ← ih seen]
      omega
    · split
      · rw [List.length_cons, ← ih seen]
        omega
      · rw [List.length_cons, List.length_cons, ← ih (r :: seen)]
        omega

end ContentBlocking
