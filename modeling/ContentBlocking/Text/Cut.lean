import ContentBlocking.Text.Blank

/-!
# Cutting text

Text is cut and trimmed as a list of characters.

* `trim` — removes the white space at both ends.
* `splitOn` — the pieces between all occurrences of a character.
* `cut?`, `cutLast?` — the parts before and after one separator.
* `lines` — the lines of a text, each without its line end.
-/

namespace ContentBlocking.Text

/-- Drops the characters with the property `p` at the end. -/
def trimEndBy (p : Char → Bool) (s : List Char) : List Char :=
  (s.reverse.dropWhile p).reverse

/-- Drops the characters with the property `p` at both ends. -/
def trimBy (p : Char → Bool) (s : List Char) : List Char :=
  trimEndBy p (s.dropWhile p)

/-- Removes the white space at both ends. -/
def trim (s : List Char) : List Char := trimBy isBlank s

/-- The pieces between the occurrences of `sep`: one more than there are
    occurrences, so that the empty text has one empty piece. -/
def splitOn (sep : Char) : List Char → List (List Char)
  | [] => [[]]
  | c :: s =>
    if c = sep then [] :: splitOn sep s
    else match splitOn sep s with
      | [] => [[c]]
      | piece :: rest => (c :: piece) :: rest

/-- What follows `lead` in a text that begins with it. -/
def dropLead? : (lead s : List Char) → Option (List Char)
  | [], s => some s
  | _ :: _, [] => none
  | c :: lead, d :: s => if c = d then dropLead? lead s else none

/-- The parts of a text before and after the first occurrence of `sep`. -/
def cut? (sep : List Char) : List Char → Option (List Char × List Char)
  | [] => if sep.isEmpty then some ([], []) else none
  | c :: s =>
    match dropLead? sep (c :: s) with
    | some rest => some ([], rest)
    | none => (cut? sep s).map fun (before, after) => (c :: before, after)

/-- The parts of a text before and after the last occurrence of `sep`. -/
def cutLast? (sep : Char) : List Char → Option (List Char × List Char)
  | [] => none
  | c :: s =>
    match cutLast? sep s with
    | some (before, after) => some (c :: before, after)
    | none => if c = sep then some ([], s) else none

/-- The text up to the first character with the property `p`. -/
def upTo (p : Char → Bool) (s : List Char) : List Char := s.takeWhile fun c => !p c

/-- `sub` occurs in the text. -/
def occursIn (sub : List Char) (s : List Char) : Bool := (cut? sub s).isSome

/-- The text without one trailing `c`, if it ends in that. -/
def dropLast? (c : Char) (s : List Char) : Option (List Char) :=
  if s.getLast? = some c then some s.dropLast else none

/-- Joins the pieces, with `sep` between neighbours. -/
def joinWith (sep : List Char) : List (List Char) → List Char
  | [] => []
  | [piece] => piece
  | piece :: rest => piece ++ sep ++ joinWith sep rest

/-- The lines of a text. A line ends before a line feed, or before a carriage
    return and a line feed; what follows the last line feed is a line only if
    it is not empty. -/
def lines (s : List Char) : List (List Char) :=
  let pieces := splitOn '\n' s
  let ended := pieces.dropLast.map fun line => (dropLast? '\r' line).getD line
  match pieces.getLast? with
  | some (c :: rest) => ended ++ [c :: rest]
  | _ => ended

/-! ### The cuts put together again -/

theorem cutLast?_append {sep : Char} {s before after : List Char}
    (h : cutLast? sep s = some (before, after)) : before ++ sep :: after = s := by
  induction s generalizing before after with
  | nil => simp [cutLast?] at h
  | cons c s ih =>
    rw [cutLast?] at h
    split at h
    · next b a hs =>
      obtain ⟨rfl, rfl⟩ : c :: b = before ∧ a = after := by simpa using h
      simp [ih hs]
    · split at h
      · next hc =>
        obtain ⟨rfl, rfl⟩ : [] = before ∧ s = after := by simpa using h
        simp [hc]
      · simp at h

theorem dropLead?_eq_some_iff {lead s rest : List Char} :
    dropLead? lead s = some rest ↔ s = lead ++ rest := by
  fun_induction dropLead? lead s with
  | case1 s => simp [eq_comm]
  | case2 => simp
  | case3 c lead s ih => simp [ih]
  | case4 c lead d s h => simp [Ne.symm h]

theorem cut?_append {sep s before after : List Char}
    (h : cut? sep s = some (before, after)) : before ++ sep ++ after = s := by
  induction s generalizing before after with
  | nil =>
    rw [cut?] at h
    split at h
    · next he =>
      obtain ⟨rfl, rfl⟩ : [] = before ∧ [] = after := by simpa using h
      simpa using he
    · simp at h
  | cons c s ih =>
    rw [cut?] at h
    split at h
    · next rest hr =>
      obtain ⟨rfl, rfl⟩ : [] = before ∧ rest = after := by simpa using h
      simp [dropLead?_eq_some_iff.1 hr]
    · obtain ⟨⟨b, a⟩, hs, hba⟩ := Option.map_eq_some_iff.1 h
      obtain ⟨rfl, rfl⟩ : c :: b = before ∧ a = after := by simpa using hba
      simp [← ih hs]

theorem joinWith_splitOn (sep : Char) (s : List Char) : joinWith [sep] (splitOn sep s) = s := by
  induction s with
  | nil => rfl
  | cons c s ih =>
    rw [splitOn]
    split
    · next h =>
      cases hs : splitOn sep s with
      | nil =>
        cases s with
        | nil => simp [splitOn] at hs
        | cons d s => rw [splitOn] at hs; split at hs <;> (try split at hs) <;> simp at hs
      | cons piece rest => rw [hs] at ih; simp [joinWith, ih, h]
    · split
      · next hs =>
        cases s with
        | nil => rfl
        | cons d s => rw [splitOn] at hs; split at hs <;> (try split at hs) <;> simp at hs
      · next piece rest hs =>
        rw [hs] at ih
        cases rest with
        | nil => simpa [joinWith] using ih
        | cons p r => simpa [joinWith] using ih

end ContentBlocking.Text
