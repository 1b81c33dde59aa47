import ContentBlocking.FilterText.Pattern
import ContentBlocking.Regex.Parser

/-!
# The expression of a URL pattern

The regular expression of a wildcard pattern is read piece by piece: escaped text
gives its characters, a wildcard gives anything, and the anchors stand for
themselves. No piece begins with a question mark, which after a wildcard would
be dropped as a part of the repetition.

* `Regex.Reads`: a text stands for some items wherever it occurs;
* `Regex.reads_escape`: an escaped text stands for its characters;
* `FilterText.parse?_urlPattern`: the expression of a wildcard pattern.
-/

namespace ContentBlocking

open Text

namespace Regex

/-- The text stands for the items, whatever has been read before and follows
    after it. -/
structure Reads (text : List Char) (items : List Regex) : Prop where
  head : text.head? ≠ some '?'
  reads : ∀ outer g rest, rest.head? ≠ some '?' →
    (tokens? (text ++ rest)).bind (ofTokens? outer g) =
      (tokens? rest).bind (ofTokens? outer { g with items := items.reverse ++ g.items })

theorem reads_nil : Reads [] [] where
  head := nofun
  reads _ _ _ _ := rfl

theorem Reads.append {s t : List Char} {xs ys : List Regex} (hs : Reads s xs) (ht : Reads t ys) :
    Reads (s ++ t) (xs ++ ys) where
  head := by
    cases s with
    | nil => exact ht.head
    | cons c s => exact hs.head
  reads outer g rest h := by
    -- What follows the first text begins as the second one does.
    have hrest : (t ++ rest).head? ≠ some '?' := by
      cases t with
      | nil => exact h
      | cons c t => exact ht.head
    rw [List.append_assoc, hs.reads outer g _ hrest, ht.reads outer _ rest h, List.reverse_append,
      List.append_assoc]

/-- A text that stands for items is the pattern of their sequence. -/
theorem parse?_of_reads {text : List Char} {items : List Regex} (h : Reads text items) :
    parse? (String.ofList text) = some (seqAll items) := by
  have hread := h.reads [] {} [] nofun
  rw [List.append_nil] at hread
  rw [parse?, String.toList_ofList, hread, tokens?, Option.bind_some, ofTokens?]
  simp [GroupSoFar.close, altAll]

theorem reads_of_tokens? {text : List Char} {r : Regex} (head : text.head? ≠ some '?')
    (h : ∀ rest, tokens? (text ++ rest) = (tokens? rest).map (.item r :: ·)) :
    Reads text [r] where
  head := head
  reads outer g rest _ := by
    rw [h, Option.bind_map]
    rfl

theorem reads_textStart : Reads ['^'] [.anchor .textStart] :=
  reads_of_tokens? (by decide) fun rest => by rw [List.singleton_append, tokens?]

theorem reads_textEnd : Reads ['$'] [.anchor .textEnd] :=
  reads_of_tokens? (by decide) fun rest => by rw [List.singleton_append, tokens?]

theorem reads_anything : Reads FilterText.anything [anything] where
  head := by decide
  reads outer g rest h := by
    -- After the star a question mark would be taken for a part of it.
    have hlazy : dropLazy rest = rest := by
      unfold dropLazy
      split
      · exact absurd rfl h
      · rfl
    rw [FilterText.anything, List.cons_append, List.singleton_append, tokens?, tokens?, hlazy,
      Option.map_map, Option.bind_map]
    rfl

/-! ### Escaped text -/

open FilterText (isSpecial escape)

theorem readEscape?_of_isSpecial {c : Char} (hc : isSpecial c = true) (rest : List Char) :
    readEscape? (c :: rest) = some (.char c, rest) := by
  simp only [isSpecial, List.contains_iff_mem, List.mem_cons, List.not_mem_nil, or_false] at hc
  -- None of the special characters stands for something else after a backslash.
  rcases hc with rfl | rfl | rfl | rfl | rfl | rfl | rfl | rfl | rfl | rfl | rfl | rfl | rfl | rfl
  all_goals rfl

theorem reads_of_isSpecial {c : Char} (hc : isSpecial c = true) : Reads ['\\', c] [lit c] := by
  refine reads_of_tokens? (by simp) fun rest => ?_
  rw [List.cons_append, List.singleton_append, tokens?]
  · simp [readLong?, readEscape?_of_isSpecial hc]
  all_goals decide

theorem reads_of_not_isSpecial {c : Char} (hc : isSpecial c = false) : Reads [c] [lit c] := by
  -- So it is not one of those for which the reader has a case of its own.
  have hne : ∀ d, isSpecial d = true → c ≠ d := fun d hd h => by simp [h, hd] at hc
  refine reads_of_tokens? (by simpa using hne '?' rfl) fun rest => ?_
  rw [List.singleton_append, tokens?]
  · simp [hne '\\' rfl, hne '[' rfl, hne '\x7b' rfl, hne '(' rfl]
  all_goals exact hne _ rfl

/-- An escaped text stands for its characters. -/
theorem reads_escape (text : List Char) : Reads (escape text) (text.map lit) := by
  induction text with
  | nil => exact reads_nil
  | cons c text ih =>
    rw [escape, List.flatMap_cons, ← escape, List.map_cons]
    split
    · next h => exact (reads_of_isSpecial h).append ih
    · next h => exact (reads_of_not_isSpecial (Bool.eq_false_iff.2 h)).append ih

/-- Escaped texts with wildcards between them. -/
theorem reads_joinWith (pieces : List (List Char)) :
    Reads (joinWith FilterText.anything (pieces.map escape))
      ([anything].intercalate (pieces.map (·.map lit))) := by
  induction pieces with
  | nil => exact reads_nil
  | cons piece pieces ih =>
    cases pieces with
    | nil => simpa [joinWith, List.intercalate] using reads_escape piece
    | cons next pieces =>
      have h := ((reads_escape piece).append reads_anything).append ih
      simpa [joinWith, List.intercalate] using h

end Regex

namespace FilterText

/-- What a wildcard pattern stands for, item by item. -/
def urlItems (literal : List Char) (anchoring : Anchoring) (right : Bool) : List Regex :=
  [if anchoring = .left then .anchor .textStart else .anything] ++
    [Regex.anything].intercalate ((splitOn '*' literal).map (·.map .lit)) ++
    [if right then .anchor .textEnd else .anything]

/-- Every wildcard pattern is well-formed. -/
theorem parse?_urlPattern (literal : List Char) (anchoring : Anchoring) (right : Bool) :
    Regex.parse? (urlPattern literal anchoring right) =
      some (.seqAll (urlItems literal anchoring right)) := by
  -- The two ends depend on the anchors, but what is between them does not.
  refine Regex.parse?_of_reads (.append (.append ?_ (Regex.reads_joinWith _)) ?_)
  · split
    · exact Regex.reads_textStart
    · exact Regex.reads_anything
  · split
    · exact Regex.reads_textEnd
    · exact Regex.reads_anything

theorem urlPattern_ne_empty (literal : List Char) (anchoring : Anchoring) (right : Bool) :
    urlPattern literal anchoring right ≠ "" := by
  rw [urlPattern, Ne, String.ofList_eq_empty_iff, urlPatternChars]
  split <;> simp [anything]

end FilterText

end ContentBlocking
