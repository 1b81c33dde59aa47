/-!
# Ranges of code points

A set of characters given as an ascending table of inclusive ranges of code
points, which is how the character properties of Unicode are published. A
look-up stops at the first range above the code point it looks for.

* `Ranges.contains` — membership of a code point in a table.
-/

namespace ContentBlocking.Text

/-- An ascending table of disjoint inclusive ranges of code points. -/
abbrev Ranges := List (Nat × Nat)

/-- The code point `n` lies in one of the ranges. -/
def Ranges.contains : Ranges → Nat → Bool
  | [], _ => false
  | (first, last) :: rest, n =>
    if n < first then false
    else if n ≤ last then true
    else Ranges.contains rest n

end ContentBlocking.Text
