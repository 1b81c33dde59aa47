import ContentBlocking.Json.Basic
import ContentBlocking.Text.Ascii

/-!
# Reading JSON

A text is read as one value with white space around it and nothing after it.
A string literal is read as a row of code points first; the surrogates that
its escapes give are then paired up, and a literal in which one is left over
is `illFormed`.

* `Json.parse?` — the value that a text denotes.
-/

namespace ContentBlocking.Json

open Text

/-- White space between the parts of a value. -/
def isSpace (c : Char) : Bool := c == ' ' || c == '\n' || c == '\r' || c == '\t'

/-- Drops the white space in front. -/
def skipSpace (s : List Char) : List Char := s.dropWhile isSpace

/-! ### String literals -/

/-- The code unit that four hexadecimal digits denote. -/
def unit? (a b c d : Char) : Option Nat :=
  if [a, b, c, d].all isHexDigit then some (ofDigits 16 [a, b, c, d]) else none

/-- The code point that an escape of one letter denotes. -/
def simpleEscape? : Char → Option Nat
  | '"' => some 0x22
  | '\\' => some 0x5C
  | '/' => some 0x2F
  | 'b' => some 0x08
  | 'f' => some 0x0C
  | 'n' => some 0x0A
  | 'r' => some 0x0D
  | 't' => some 0x09
  | _ => none

/-- Reads the rest of a string literal, after its opening quotation mark, as
    the code points and surrogates that it consists of. -/
def readUnits? : List Char → Option (List Nat × List Char)
  | [] => none
  | '"' :: rest => some ([], rest)
  | '\\' :: 'u' :: a :: b :: c :: d :: rest =>
    match unit? a b c d, readUnits? rest with
    | some u, some (us, rest) => some (u :: us, rest)
    | _, _ => none
  | '\\' :: e :: rest =>
    match simpleEscape? e, readUnits? rest with
    | some u, some (us, rest) => some (u :: us, rest)
    | _, _ => none
  | c :: rest =>
    if c.toNat < 0x20 || c == '\\' then none
    else (readUnits? rest).map fun (us, rest) => (c.toNat :: us, rest)

/-- A surrogate that begins a pair. -/
def isHighSurrogate (u : Nat) : Bool := 0xD800 ≤ u && u < 0xDC00

/-- A surrogate that ends a pair. -/
def isLowSurrogate (u : Nat) : Bool := 0xDC00 ≤ u && u < 0xE000

/-- The characters of a row of code points, in which surrogates must stand in
    pairs. -/
def pairUp? : List Nat → Option (List Char)
  | [] => some []
  | u :: us =>
    if isHighSurrogate u then
      match us with
      | v :: us =>
        if isLowSurrogate v then
          (pairUp? us).map (Char.ofNat (0x10000 + (u - 0xD800) * 0x400 + (v - 0xDC00)) :: ·)
        else none
      | [] => none
    else if isLowSurrogate u then none
    else (pairUp? us).map (Char.ofNat u :: ·)

/-- Reads the rest of a string literal; its text is missing if it is
    ill-formed. -/
def readString? (s : List Char) : Option (Option String × List Char) :=
  (readUnits? s).map fun (us, rest) => ((pairUp? us).map String.ofList, rest)

/-! ### Numbers -/

/-- The digits in front and what follows them. -/
def spanDigits (s : List Char) : List Char × List Char :=
  (s.takeWhile Char.isDigit, s.dropWhile Char.isDigit)

/-- Reads the digits of a whole number, which has no leading zero. -/
def readWhole? (s : List Char) : Option (List Char × List Char) :=
  match s with
  | '0' :: rest => if rest.head?.any Char.isDigit then none else some (['0'], rest)
  | _ =>
    match spanDigits s with
    | ([], _) => none
    | (ds, rest) => some (ds, rest)

/-- Reads the fraction of a number, if there is one. -/
def readFraction? (s : List Char) : Option (List Char × List Char) :=
  match s with
  | '.' :: s =>
    match spanDigits s with
    | ([], _) => none
    | (ds, rest) => some ('.' :: ds, rest)
  | _ => some ([], s)

/-- Reads the exponent of a number, if there is one. -/
def readExponent? (s : List Char) : Option (List Char × List Char) :=
  match s with
  | e :: s' =>
    if e == 'e' || e == 'E' then
      let (sign, s') := match s' with
        | '+' :: t => (['+'], t)
        | '-' :: t => (['-'], t)
        | t => ([], t)
      match spanDigits s' with
      | ([], _) => none
      | (ds, rest) => some (e :: sign ++ ds, rest)
    else some ([], s)
  | [] => some ([], [])

/-- Reads a number. -/
def readNumber? (s : List Char) : Option (Json × List Char) := do
  let (sign, s) := match s with
    | '-' :: s => (['-'], s)
    | s => ([], s)
  let (whole, s) ← readWhole? s
  let (fraction, s) ← readFraction? s
  let (exponent, s) ← readExponent? s
  if sign.isEmpty && fraction.isEmpty && exponent.isEmpty then
    some (.nat (ofDigits 10 whole), s)
  else some (.number (String.ofList (sign ++ whole ++ fraction ++ exponent)), s)

/-! ### Values -/

/-- The object with the given members; it is ill-formed if one of its names
    is. -/
def ofMembers (members : List (Option String × Json)) : Json :=
  match members.mapM fun (key, value) => key.map (·, value) with
  | some fields => .obj fields
  | none => .illFormed

mutual

/-- Reads a value. Every call takes a character off the text, so `fuel` need
    not exceed twice its length. -/
def readValue? : (fuel : Nat) → List Char → Option (Json × List Char)
  | 0, _ => none
  | fuel + 1, s =>
    match s with
    | 'n' :: 'u' :: 'l' :: 'l' :: rest => some (.null, rest)
    | 't' :: 'r' :: 'u' :: 'e' :: rest => some (.bool true, rest)
    | 'f' :: 'a' :: 'l' :: 's' :: 'e' :: rest => some (.bool false, rest)
    | '"' :: rest =>
      (readString? rest).map fun
        | (some text, rest) => (.str text, rest)
        | (none, rest) => (.illFormed, rest)
    | '[' :: rest =>
      match skipSpace rest with
      | ']' :: rest => some (.arr [], rest)
      | rest => (readItems? fuel rest).map fun (items, rest) => (.arr items, rest)
    | '{' :: rest =>
      match skipSpace rest with
      | '}' :: rest => some (.obj [], rest)
      | rest => (readMembers? fuel rest).map fun (members, rest) => (ofMembers members, rest)
    | s => readNumber? s

/-- Reads the items of an array up to the closing bracket. -/
def readItems? : (fuel : Nat) → List Char → Option (List Json × List Char)
  | 0, _ => none
  | fuel + 1, s =>
    match readValue? fuel s with
    | none => none
    | some (item, rest) =>
      match skipSpace rest with
      | ']' :: rest => some ([item], rest)
      | ',' :: rest =>
        (readItems? fuel (skipSpace rest)).map fun (items, rest) => (item :: items, rest)
      | _ => none

/-- Reads the members of an object up to the closing brace. -/
def readMembers? : (fuel : Nat) → List Char → Option (List (Option String × Json) × List Char)
  | 0, _ => none
  | fuel + 1, s =>
    match s with
    | '"' :: rest =>
      match readString? rest with
      | none => none
      | some (key, rest) =>
        match skipSpace rest with
        | ':' :: rest =>
          match readValue? fuel (skipSpace rest) with
          | none => none
          | some (value, rest) =>
            match skipSpace rest with
            | '}' :: rest => some ([(key, value)], rest)
            | ',' :: rest =>
              (readMembers? fuel (skipSpace rest)).map fun (members, rest) =>
                ((key, value) :: members, rest)
            | _ => none
        | _ => none
    | _ => none

end

/-- The value that a list of characters denotes. -/
def parseChars? (s : List Char) : Option Json :=
  match readValue? (2 * s.length + 1) (skipSpace s) with
  | some (value, rest) => if (skipSpace rest).isEmpty then some value else none
  | none => none

/-- The value that a text denotes. -/
def parse? (text : String) : Option Json := parseChars? text.toList

end ContentBlocking.Json
