import ContentBlocking.Regex.CharClass

/-!
# Regular expressions

A regular expression describes pieces of text together with what stands around
them: an anchor looks at the characters before and after a position. `Matches`
says which pieces an expression describes, and `Occurs` that a text holds such
a piece anywhere.

The search follows the partial derivatives of the expression: after a
character, the expressions `r.steps` describe what may follow in a piece that
`r` describes and that begins with it. A search carries the set of derivatives
of all pieces that have begun, and starts a new piece at every position.

* `Regex.Matches` — the pieces of text that an expression describes.
* `Regex.Occurs` — a text holds a piece that the expression describes.
* `Regex.search` — decides that, in one pass over the text.
-/

namespace ContentBlocking

open Text

/-- A condition on the characters next to a position. -/
inductive Anchor where
  | textStart
  | textEnd
  | wordBoundary
  | noWordBoundary
  | wordStart
  | wordEnd
  deriving Repr, DecidableEq

/-- The anchor holds between the given characters; `none` stands for an end of
    the text. -/
def Anchor.holds (before after : Option Char) : Anchor → Bool
  | .textStart => before.isNone
  | .textEnd => after.isNone
  | .wordBoundary => before.any isWord != after.any isWord
  | .noWordBoundary => before.any isWord == after.any isWord
  | .wordStart => !before.any isWord && after.any isWord
  | .wordEnd => before.any isWord && !after.any isWord

/-- A regular expression. -/
inductive Regex where
  | empty
  | chars (k : CharClass)
  | anchor (a : Anchor)
  | seq (r s : Regex)
  | alt (r s : Regex)
  | star (r : Regex)
  deriving Repr, DecidableEq

namespace Regex

/-! ### Pieces of text -/

/-- The expression describes the piece `w`, where `before` and `after` are the
    characters next to it. -/
inductive Matches : Regex → Option Char → List Char → Option Char → Prop where
  | empty {before after} : Matches .empty before [] after
  | chars {k before c after} : k.mem c = true → Matches (.chars k) before [c] after
  | anchor {a before after} : a.holds before after = true → Matches (.anchor a) before [] after
  | seq {r s before u v after} : Matches r before u (v.head?.or after) →
      Matches s (u.getLast?.or before) v after → Matches (.seq r s) before (u ++ v) after
  | left {r s before w after} : Matches r before w after → Matches (.alt r s) before w after
  | right {r s before w after} : Matches s before w after → Matches (.alt r s) before w after
  | starNil {r before after} : Matches (.star r) before [] after
  | starCons {r before u v after} : Matches r before u (v.head?.or after) →
      Matches (.star r) (u.getLast?.or before) v after → Matches (.star r) before (u ++ v) after

/-- Somewhere in the text is a piece that the expression describes. -/
def Occurs (r : Regex) (text : List Char) : Prop :=
  ∃ p w q, text = p ++ w ++ q ∧ Matches r p.getLast? w q.head?

/-! ### Search -/

/-- The expression describes the empty piece at a position between the given
    characters. -/
def nullable (before after : Option Char) : Regex → Bool
  | .empty => true
  | .chars _ => false
  | .anchor a => a.holds before after
  | .seq r s => r.nullable before after && s.nullable before after
  | .alt r s => r.nullable before after || s.nullable before after
  | .star _ => true

/-- The sequence of two expressions, which is the second if the first is
    empty. -/
def followedBy (r s : Regex) : Regex := if r = .empty then s else .seq r s

/-- The partial derivatives of an expression: what it describes after the
    character `c`, which follows the character `before`. -/
def steps (before : Option Char) (c : Char) : Regex → List Regex
  | .empty => []
  | .chars k => if k.mem c then [.empty] else []
  | .anchor _ => []
  | .seq r s =>
    (r.steps before c).map (·.followedBy s) ++
      if r.nullable before (some c) then s.steps before c else []
  | .alt r s => r.steps before c ++ s.steps before c
  | .star r => (r.steps before c).map (·.followedBy (.star r))

/-- A piece that the expression describes begins in the text, or continues one
    of the pieces that have begun. -/
def searchFrom (r : Regex) (begun : List Regex) (before : Option Char) : List Char → Bool
  | [] => (begun.insert r).any (nullable before none)
  | c :: text =>
    let begun := begun.insert r
    begun.any (nullable before (some c)) ||
      searchFrom r ((begun.flatMap (steps before c)).eraseDups) (some c) text

/-- Somewhere in the text is a piece that the expression describes. -/
def search (r : Regex) (text : List Char) : Bool := r.searchFrom [] none text

/-! ### Derived expressions -/

/-- The expressions one after the other. -/
def seqAll : List Regex → Regex
  | [] => .empty
  | [r] => r
  | r :: rest => .seq r (seqAll rest)

/-- One of the expressions. -/
def altAll : List Regex → Regex
  | [] => .empty
  | [r] => r
  | r :: rest => .alt r (altAll rest)

/-- `r` at most `n` times. -/
def upTo (r : Regex) : Nat → Regex
  | 0 => .empty
  | n + 1 => .alt (.seq r (r.upTo n)) .empty

/-- `r` at least `min` and at most `max` times. -/
def repeated (r : Regex) (min : Nat) : (max : Option Nat) → Regex
  | none => seqAll (List.replicate min r ++ [.star r])
  | some max => seqAll (List.replicate min r ++ [r.upTo (max - min)])

/-- The case variants of a character. -/
def lit (c : Char) : Regex := .chars (.char c)

/-- Any text within one line. -/
def anything : Regex := .star (.chars .anyButLineFeed)

end Regex

end ContentBlocking
