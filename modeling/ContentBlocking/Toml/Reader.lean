import ContentBlocking.Toml.Scalar

/-!
# Reading TOML

A document is a row of lines, each with a header, a pair or nothing, and
perhaps a comment. Values in brackets may go over several lines, those in
braces may not.

* `Toml.parse?` — the members of the document that a text denotes.
-/

namespace ContentBlocking.Toml

open Text

/-! ### Keys -/

/-- A character of a key without quotation marks. -/
def isBareChar (c : Char) : Bool := c.isAlphanum || c == '-' || c == '_'

/-- Reads one part of a key. -/
def readKeyPart? (s : List Char) : Option (String × List Char) :=
  match readLineString? s with
  | some (text, rest) => some (String.ofList text, rest)
  | none =>
    let bare := s.takeWhile isBareChar
    if bare.isEmpty then none else some (String.ofList bare, s.drop bare.length)

/-- Values may not be nested any deeper, and keys may not have any more
    parts. -/
def maxDepth : Nat := 79

/-- Reads the parts of a key, with dots between them and blanks around them;
    `parts` is the greatest number of them. -/
def readKeyParts? : (parts : Nat) → List Char → Option (List String × List Char)
  | 0, _ => none
  | parts + 1, s => do
    let (part, s) ← readKeyPart? (skipBlanks s)
    match skipBlanks s with
    | '.' :: s => (readKeyParts? parts s).map fun (more, s) => (part :: more, s)
    | s => some ([part], s)

/-- Reads a key: all parts but the last, and the last one. -/
def readKey? (s : List Char) : Option ((List String × String) × List Char) := do
  let (parts, s) ← readKeyParts? maxDepth s
  let last ← parts.getLast?
  some ((parts.dropLast, last), s)

/-! ### Values -/

/-- Drops a comment in front. -/
def skipComment : List Char → List Char
  | '#' :: s => s.dropWhile isTextChar
  | s => s

/-- Drops blanks, line ends and comments in front; every step takes a
    character off the text, so `fuel` need not exceed its length. A comment
    must end with its line. -/
def skipLines : (fuel : Nat) → List Char → List Char
  | 0, s => s
  | fuel + 1, s =>
    match skipSpace s with
    | '#' :: s =>
      match dropNewline? (skipComment ('#' :: s)) with
      | some s => skipLines fuel s
      | none => '#' :: s
    | s => s

/-- Reads a value that is neither in brackets nor in braces. -/
def readScalar? (s : List Char) : Option (Toml × List Char) :=
  match s with
  | '"' :: _ | '\'' :: _ => (readString? s).map fun (text, s) => (.str (String.ofList text), s)
  | 't' :: 'r' :: 'u' :: 'e' :: s => some (.bool true, s)
  | 'f' :: 'a' :: 'l' :: 's' :: 'e' :: s => some (.bool false, s)
  -- A date begins like a number, and a number with a fraction like a whole one.
  | _ => readDateTime? s <|> readFloat? s <|> readInteger? s

mutual

/-- Reads a value whose brackets and braces are nested at most `depth` times.
    Every call takes a character off the text, so `fuel` need not exceed twice
    its length. -/
def readValue? : (fuel depth : Nat) → List Char → Option (Toml × List Char)
  | 0, _, _ => none
  | fuel + 1, depth, s =>
    match s with
    | '[' :: s =>
      match depth with
      | 0 => none
      | depth + 1 =>
        match skipLines s.length s with
        | ']' :: s => some (.array [], s)
        | s => (readItems? fuel depth s).map fun (items, s) => (.array items, s)
    | '{' :: s =>
      match depth with
      | 0 => none
      | depth + 1 =>
        match skipBlanks s with
        | '}' :: s => some (.table .inline [], s)
        | s =>
          match readPairs? fuel depth s with
          | some (pairs, s) => (addPairs? [] pairs).map fun fields => (.table .inline fields, s)
          | none => none
    | s => readScalar? s

/-- Reads the items of an array up to its closing bracket; a comma may stand
    after the last. -/
def readItems? : (fuel depth : Nat) → List Char → Option (List Toml × List Char)
  | 0, _, _ => none
  | fuel + 1, depth, s =>
    match readValue? fuel depth s with
    | none => none
    | some (item, s) =>
      match skipLines s.length s with
      | ']' :: s => some ([item], s)
      | ',' :: s =>
        match skipLines s.length s with
        | ']' :: s => some ([item], s)
        | s => (readItems? fuel depth s).map fun (items, s) => (item :: items, s)
      | _ => none

/-- Reads the pairs of a table up to its closing brace. -/
def readPairs? : (fuel depth : Nat) → List Char → Option (List Pair × List Char)
  | 0, _, _ => none
  | fuel + 1, depth, s =>
    match readKey? s with
    | some ((path, key), '=' :: s) =>
      match readValue? fuel depth (skipBlanks s) with
      | none => none
      | some (value, s) =>
        match skipBlanks s with
        | '}' :: s => some ([⟨path, key, value⟩], s)
        | ',' :: s =>
          (readPairs? fuel depth s).map fun (pairs, s) => (⟨path, key, value⟩ :: pairs, s)
        | _ => none
    | _ => none

end

/-! ### Lines -/

/-- A line of a document. -/
inductive Line where
  | blank
  | pair (p : Pair)
  | header (h : Header)
  deriving Repr

/-- Reads a pair. -/
def readPair? (s : List Char) : Option (Pair × List Char) :=
  match readKey? s with
  | some ((path, key), '=' :: s) =>
    (readValue? (2 * s.length + 1) maxDepth (skipBlanks s)).map fun (value, s) =>
      (⟨path, key, value⟩, s)
  | _ => none

/-- Reads what a line has in front of its comment. -/
def readContent? (s : List Char) : Option (Line × List Char) :=
  match s with
  | [] | '#' :: _ | '\n' :: _ | '\r' :: _ => some (.blank, s)
  | '[' :: '[' :: s =>
    match readKey? s with
    | some ((path, key), ']' :: ']' :: s) => some (.header (.several path key), s)
    | _ => none
  | '[' :: s =>
    match readKey? s with
    | some ((path, key), ']' :: s) => some (.header (.single path key), s)
    | _ => none
  | s => (readPair? s).map fun (p, s) => (.pair p, s)

/-- Reads the lines of a document; every line but the last takes a character
    off the text, so `fuel` need not exceed its length by more than one. -/
def readDocument? : (fuel : Nat) → List Char → Option (List Line)
  | 0, _ => none
  | fuel + 1, s => do
    let (line, s) ← readContent? (skipBlanks s)
    match skipComment (skipBlanks s) with
    | [] => some [line]
    | s => do
      let s ← dropNewline? s
      (readDocument? fuel s).map (line :: ·)

/-- The pairs in front of the first header, and the sections. -/
def sectionsOf : List Line → List Pair × List Section
  | [] => ([], [])
  | .blank :: rest => sectionsOf rest
  | .pair p :: rest =>
    let (pairs, sections) := sectionsOf rest
    (p :: pairs, sections)
  -- The pairs that follow, up to the next header, belong to this one.
  | .header h :: rest =>
    let (pairs, sections) := sectionsOf rest
    ([], ⟨h, pairs⟩ :: sections)

/-- The members of the document that a text denotes. A byte order mark in
    front does not count. -/
def parse? (text : String) : Option Fields := do
  let s := match text.toList with
    | '\uFEFF' :: s => s
    | s => s
  let lines ← readDocument? (s.length + 1) s
  let (pairs, sections) := sectionsOf lines
  ofSections? pairs sections

end ContentBlocking.Toml
