import ContentBlocking.Regex.Basic
import ContentBlocking.Text.Ascii
import ContentBlocking.Text.Cut

/-!
# The written form of regular expressions

A pattern is read in two steps. First it is cut into tokens: escapes, bracketed
classes and counted repetitions are one token each, and a question mark after
a repetition, which only affects how much text is preferred, is dropped. Then
the tokens are put together, with a stack of the groups that are open.

The syntax has literals, `.`, `^`, `$`, bracketed classes with ranges, nested
classes and the operations `&&`, `--` and `~~`, the classes `\d`, `\s`, `\w`
and their complements, word boundaries, groups, alternatives and repetitions.
A pattern is refused if a group or class is not closed, if a repetition has
nothing to repeat or ends before it begins, if a range of characters ends
before it begins, and if an escape is unknown.

* `Regex.tokens?` — the tokens of a pattern.
* `Regex.ofTokens?` — the expression that a row of tokens denotes.
* `Regex.parse?` — the expression that a pattern denotes.
-/

namespace ContentBlocking.Regex

open Text

/-- A token of a pattern. -/
inductive Token where
  | item (r : Regex)
  | openGroup
  | closeGroup
  | bar
  | times (min : Nat) (max : Option Nat)
  deriving Repr, DecidableEq

/-! ### Escapes -/

/-- What an escape stands for. -/
inductive Escape where
  | char (c : Char)
  | cls (k : CharClass)
  | anchor (a : Anchor)

/-- The character with the code point that the hexadecimal digits denote. -/
def ofHex? (digits : List Char) : Option Char :=
  let n := ofDigits 16 digits
  if !digits.isEmpty && digits.all isHexDigit && n.isValidChar then some (Char.ofNat n) else none

/-- Reads the digits of a code point: in braces, or exactly `width` of them. -/
def readHex? (width : Nat) (s : List Char) : Option (Char × List Char) :=
  match s with
  | '{' :: s =>
    match cut? ['}'] s with
    | some (digits, rest) => (ofHex? digits).map (·, rest)
    | none => none
  | _ =>
    if width ≤ s.length then (ofHex? (s.take width)).map (·, s.drop width) else none

/-- The punctuation that an escape makes literal: all of ASCII but letters,
    digits and the angle brackets. -/
def isEscapable (c : Char) : Bool := isAscii c && !c.isAlphanum && c != '<' && c != '>'

/-- Reads an escape after its backslash. -/
def readEscape? : List Char → Option (Escape × List Char)
  | [] => none
  | c :: s =>
    match c with
    | 'd' => some (.cls .digit, s)
    | 'D' => some (.cls (.compl .digit), s)
    | 's' => some (.cls .blank, s)
    | 'S' => some (.cls (.compl .blank), s)
    | 'w' => some (.cls .word, s)
    | 'W' => some (.cls (.compl .word), s)
    | 'b' => some (.anchor .wordBoundary, s)
    | 'B' => some (.anchor .noWordBoundary, s)
    | '<' => some (.anchor .wordStart, s)
    | '>' => some (.anchor .wordEnd, s)
    | 'A' => some (.anchor .textStart, s)
    | 'z' => some (.anchor .textEnd, s)
    | 'a' => some (.char '\x07', s)
    | 'f' => some (.char '\x0c', s)
    | 't' => some (.char '\t', s)
    | 'n' => some (.char '\n', s)
    | 'r' => some (.char '\r', s)
    | 'v' => some (.char '\x0b', s)
    | 'x' => (readHex? 2 s).map fun (c, rest) => (.char c, rest)
    | 'u' => (readHex? 4 s).map fun (c, rest) => (.char c, rest)
    | 'U' => (readHex? 8 s).map fun (c, rest) => (.char c, rest)
    | c => if isEscapable c then some (.char c, s) else none

/-! ### Bracketed classes -/

/-- An operation on classes. -/
inductive ClassOp where
  | inter
  | diff
  | symmDiff

/-- The class that an operation makes of its operands. -/
def ClassOp.apply : ClassOp → CharClass → CharClass → CharClass
  | .inter => .inter
  | .diff => .diff
  | .symmDiff => .symmDiff

/-- What has been read of a bracketed class: an operation that waits for its
    second operand, and the members of the operand that is being read. -/
structure ClassSoFar where
  pending : Option (ClassOp × CharClass) := none
  members : List CharClass := []

/-- The class that has been read. -/
def ClassSoFar.close (k : ClassSoFar) : CharClass :=
  let operand := CharClass.unionAll k.members.reverse
  match k.pending with
  | some (op, first) => op.apply first operand
  | none => operand

/-- One more member. -/
def ClassSoFar.add (k : ClassSoFar) (member : CharClass) : ClassSoFar :=
  { k with members := member :: k.members }

/-- The next operand begins. -/
def ClassSoFar.operate (k : ClassSoFar) (op : ClassOp) : ClassSoFar :=
  { pending := some (op, k.close) }

/-- Reads one element of a class: a character or a class that an escape
    names. -/
def readElement? : List Char → Option ((Char ⊕ CharClass) × List Char)
  | [] => none
  | '\\' :: s =>
    match readEscape? s with
    | some (.char c, rest) => some (.inl c, rest)
    | some (.cls k, rest) => some (.inr k, rest)
    | _ => none
  | c :: s => some (.inl c, s)

/-- Reads an element or a range of a class. A hyphen stands for itself before
    the closing bracket. -/
def readRange? (s : List Char) : Option (CharClass × List Char) := do
  let (first, rest) ← readElement? s
  let single := (first.elim .char id, rest)
  match rest with
  | '-' :: ']' :: _ | '-' :: '-' :: _ => some single
  -- A range has a single character at each end.
  | '-' :: rest =>
    match first, ← readElement? rest with
    | .inl a, (.inl b, rest) => if a ≤ b then some (.range a b, rest) else none
    | _, _ => none
  | _ => some single

/-- Reads the name of a class, as in `:alpha:]`, with an optional sign that
    takes the complement. -/
def readNamed? (s : List Char) : Option (CharClass × List Char) := do
  let (negated, s) := match s with
    | '^' :: s => (true, s)
    | s => (false, s)
  let (name, rest) ← cut? [':', ']'] s
  let k ← CharClass.named? (String.ofList name)
  some (if negated then .compl k else k, rest)

/-- The signs at the beginning of a class: its complement is meant, and
    hyphens or a closing bracket stand for themselves. -/
def readClassStart (s : List Char) : Bool × ClassSoFar × List Char :=
  let (negated, s) := match s with
    | '^' :: s => (true, s)
    | s => (false, s)
  let hyphens := s.takeWhile (· == '-')
  let k := hyphens.foldl (fun k c => k.add (.char c)) {}
  match s.dropWhile (· == '-') with
  | ']' :: rest => if hyphens.isEmpty then (negated, k.add (.char ']'), rest)
      else (negated, k, ']' :: rest)
  | rest => (negated, k, rest)

/-- Reads a class up to its closing bracket. Every step takes a character off
    the text, so `fuel` need not exceed its length. -/
def readClass? : (fuel : Nat) → (negated : Bool) → ClassSoFar → List Char →
    Option (CharClass × List Char)
  | 0, _, _, _ => none
  | fuel + 1, negated, k, s =>
    match s with
    | [] => none
    | ']' :: rest => some (if negated then .compl k.close else k.close, rest)
    | '&' :: '&' :: rest => readClass? fuel negated (k.operate .inter) rest
    | '-' :: '-' :: rest => readClass? fuel negated (k.operate .diff) rest
    | '~' :: '~' :: rest => readClass? fuel negated (k.operate .symmDiff) rest
    -- A name in colons means a class that has a name, and anything else one of its own.
    | '[' :: rest =>
      match (match rest with | ':' :: rest => readNamed? rest | _ => none) with
      | some (member, rest) => readClass? fuel negated (k.add member) rest
      | none =>
        let (inner, start, rest) := readClassStart rest
        match readClass? fuel inner start rest with
        | some (member, rest) => readClass? fuel negated (k.add member) rest
        | none => none
    | s =>
      match readRange? s with
      | some (member, rest) => readClass? fuel negated (k.add member) rest
      | none => none

/-! ### Counted repetitions -/

/-- Reads a number that fits in 32 bits, with white space around it. -/
def readCount? (s : List Char) : Option Nat × List Char :=
  let s := s.dropWhile isBlank
  let digits := s.takeWhile Char.isDigit
  let n := ofDigits 10 digits
  (if digits.isEmpty || UInt32.size ≤ n then none else some n,
    (s.dropWhile Char.isDigit).dropWhile isBlank)

/-- Reads the bounds of a repetition after the opening brace. -/
def readBounds? (s : List Char) : Option (Token × List Char) :=
  match readCount? s with
  | (some n, '}' :: rest) => some (.times n (some n), rest)
  | (some min, ',' :: '}' :: rest) => some (.times min none, rest)
  | (some min, ',' :: rest) =>
    match readCount? rest with
    | (some max, '}' :: rest) => if min ≤ max then some (.times min (some max), rest) else none
    | _ => none
  | _ => none

/-! ### Tokens -/

/-- Drops the question mark that may follow a repetition. -/
def dropLazy : List Char → List Char
  | '?' :: rest => rest
  | s => s

theorem length_dropLazy_le (s : List Char) : (dropLazy s).length ≤ s.length := by
  unfold dropLazy
  split <;> simp

/-- Reads a token that has more than one character, or whose meaning hangs on
    what follows. -/
def readLong? : List Char → Option (Token × List Char)
  | '\\' :: s =>
    match readEscape? s with
    | some (.char c, rest) => some (.item (lit c), rest)
    | some (.cls k, rest) => some (.item (.chars k), rest)
    | some (.anchor a, rest) => some (.item (.anchor a), rest)
    | none => none
  | '[' :: s =>
    let (negated, start, rest) := readClassStart s
    (readClass? (s.length + 1) negated start rest).map fun (k, rest) => (.item (.chars k), rest)
  | '{' :: s => (readBounds? s).map fun (t, rest) => (t, dropLazy rest)
  | '(' :: '?' :: ':' :: rest => some (.openGroup, rest)
  | '(' :: '?' :: _ => none
  | _ => none

/-- The tokens of a pattern. -/
def tokens? : List Char → Option (List Token)
  | [] => some []
  | '*' :: s => (tokens? (dropLazy s)).map (.times 0 none :: ·)
  | '+' :: s => (tokens? (dropLazy s)).map (.times 1 none :: ·)
  | '?' :: s => (tokens? (dropLazy s)).map (.times 0 (some 1) :: ·)
  | '|' :: s => (tokens? s).map (.bar :: ·)
  | ')' :: s => (tokens? s).map (.closeGroup :: ·)
  | '.' :: s => (tokens? s).map (.item (.chars .anyButLineFeed) :: ·)
  | '^' :: s => (tokens? s).map (.item (.anchor .textStart) :: ·)
  | '$' :: s => (tokens? s).map (.item (.anchor .textEnd) :: ·)
  | c :: s =>
    if c = '\\' ∨ c = '[' ∨ c = '{' ∨ (c = '(' ∧ s.head? = some '?') then
      match readLong? (c :: s) with
      | some (t, rest) =>
        -- What follows a token is shorter anyway; the recursion has to know.
        if rest.length ≤ s.length then (tokens? rest).map (t :: ·) else none
      | none => none
    else if c = '(' then (tokens? s).map (.openGroup :: ·)
    else (tokens? s).map (.item (lit c) :: ·)
termination_by s => s.length
decreasing_by
  all_goals simp_all only [List.length_cons]
  all_goals first
    | omega
    | exact Nat.lt_succ_of_le (length_dropLazy_le _)

/-! ### Expressions -/

/-- What has been read of a group: the alternatives that are complete and the
    items of the one that is being read, the last ones first. -/
structure GroupSoFar where
  complete : List Regex := []
  items : List Regex := []

/-- The expression that the group denotes. -/
def GroupSoFar.close (g : GroupSoFar) : Regex :=
  altAll ((seqAll g.items.reverse :: g.complete).reverse)

/-- Puts the tokens together; `outer` holds the groups around the one that is
    being read, the innermost first. -/
def ofTokens? (outer : List GroupSoFar) (g : GroupSoFar) : List Token → Option Regex
  | [] => if outer.isEmpty then some g.close else none
  | .item r :: ts => ofTokens? outer { g with items := r :: g.items } ts
  | .openGroup :: ts => ofTokens? (g :: outer) {} ts
  | .bar :: ts => ofTokens? outer { complete := seqAll g.items.reverse :: g.complete } ts
  | .closeGroup :: ts =>
    match outer with
    | [] => none
    | h :: outer => ofTokens? outer { h with items := g.close :: h.items } ts
  | .times min max :: ts =>
    match g.items with
    | [] => none
    | r :: items => ofTokens? outer { g with items := r.repeated min max :: items } ts

/-- The expression that a pattern denotes, if it is well-formed. -/
def parse? (pattern : String) : Option Regex := (tokens? pattern.toList).bind (ofTokens? [] {})

end ContentBlocking.Regex
