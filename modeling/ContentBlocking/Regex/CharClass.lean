import ContentBlocking.Text.Blank
import ContentBlocking.Text.CaseFolding
import ContentBlocking.Text.Word

/-!
# Character classes

The sets of characters a regular expression can name. Patterns are matched
without regard to case, so every class is closed under case variants: a range
holds each character that has a variant in it, and a complement removes all
variants of what it excludes.

* `CharClass.mem` — membership.
-/

namespace ContentBlocking

open Text

/-- A set of characters. -/
inductive CharClass where
  /-- The case variants of one character. -/
  | char (c : Char)
  /-- The case variants of the characters from `first` to `last`. -/
  | range (first last : Char)
  /-- The decimal digits of all scripts. -/
  | digit
  /-- White space. -/
  | blank
  /-- The word characters. -/
  | word
  | union (a b : CharClass)
  | inter (a b : CharClass)
  | compl (a : CharClass)
  deriving Repr, DecidableEq

namespace CharClass

/-- The character belongs to the class. -/
def mem : CharClass → Char → Bool
  | .char d, c => CaseFolding.fold c == CaseFolding.fold d
  | .range first last, c => (CaseFolding.variants c).any fun d => first ≤ d && d ≤ last
  | .digit, c => isDigit c
  | .blank, c => isBlank c
  | .word, c => isWord c
  | .union a b, c => a.mem c || b.mem c
  | .inter a b, c => a.mem c && b.mem c
  | .compl a, c => !a.mem c

/-- Every character but the line feed. -/
def anyButLineFeed : CharClass := .compl (.char '\n')

/-- The class without characters. -/
def nothing : CharClass := .inter (.char 'a') (.compl (.char 'a'))

/-- The union of the classes. -/
def unionAll : List CharClass → CharClass
  | [] => nothing
  | [a] => a
  | a :: rest => .union a (unionAll rest)

/-- The characters of `a` that are not in `b`. -/
def diff (a b : CharClass) : CharClass := .inter a (.compl b)

/-- The characters that are in exactly one of the classes. -/
def symmDiff (a b : CharClass) : CharClass := .inter (.union a b) (.compl (.inter a b))

/-- The classes of ASCII characters that can be named inside brackets. -/
def named? : String → Option CharClass
  | "alnum" => some (.union (.range '0' '9') (.union (.range 'A' 'Z') (.range 'a' 'z')))
  | "alpha" => some (.union (.range 'A' 'Z') (.range 'a' 'z'))
  | "ascii" => some (.range '\x00' '\x7f')
  | "blank" => some (.union (.char '\t') (.char ' '))
  | "cntrl" => some (.union (.range '\x00' '\x1f') (.char '\x7f'))
  | "digit" => some (.range '0' '9')
  | "graph" => some (.range '!' '~')
  | "lower" => some (.range 'a' 'z')
  | "print" => some (.range ' ' '~')
  | "punct" => some (.union (.range '!' '/') (.union (.range ':' '@')
      (.union (.range '[' '\x60') (.range '\x7b' '~'))))
  | "space" => some (.union (.range '\t' '\r') (.char ' '))
  | "upper" => some (.range 'A' 'Z')
  | "word" => some (.union (.range '0' '9') (.union (.range 'A' 'Z') (.union (.char '_')
      (.range 'a' 'z'))))
  | "xdigit" => some (.union (.range '0' '9') (.union (.range 'A' 'F') (.range 'a' 'f')))
  | _ => none

theorem mem_anyButLineFeed {c : Char} :
    anyButLineFeed.mem c = (CaseFolding.fold c != CaseFolding.fold '\n') := rfl

end CharClass

end ContentBlocking
