import ContentBlocking.Text.Cut

/-!
# URL patterns from wildcards

The pattern part of a filter line is text with the wildcard `*`. It becomes a
regular expression in which the text stands escaped and every wildcard matches
anything. Text that is anchored must stand at that end of the URL; without an
anchor, anything may precede or follow it.

* `FilterText.escape` — a text that, as a regular expression, matches itself.
* `FilterText.urlPattern` — the regular expression of a wildcard pattern.
-/

namespace ContentBlocking.FilterText

open Text

/-- How the beginning of a pattern is anchored. A pattern for host names may
    be preceded by anything, just like one without an anchor. -/
inductive Anchoring where
  | none
  | left
  | hostname
  deriving Repr, DecidableEq

/-- The character means something else in a regular expression. -/
def isSpecial (c : Char) : Bool :=
  ['\\', '.', '+', '*', '?', '(', ')', '|', '[', ']', '{', '}', '^', '$'].contains c

/-- A text with a backslash in front of every special character. -/
def escape (text : List Char) : List Char :=
  text.flatMap fun c => if isSpecial c then ['\\', c] else [c]

/-- The part of a regular expression that matches anything. -/
def anything : List Char := ['.', '*']

/-- The regular expression of a wildcard pattern, as a list of characters. -/
def urlPatternChars (literal : List Char) (anchoring : Anchoring) (right : Bool) : List Char :=
  (if anchoring = .left then ['^'] else anything) ++
    joinWith anything ((splitOn '*' literal).map escape) ++
    (if right then ['$'] else anything)

/-- The regular expression of a wildcard pattern; `right` anchors its end. -/
def urlPattern (literal : List Char) (anchoring : Anchoring) (right : Bool) : String :=
  String.ofList (urlPatternChars literal anchoring right)

end ContentBlocking.FilterText
