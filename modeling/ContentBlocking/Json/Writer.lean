import ContentBlocking.Json.Basic

/-!
# Written JSON

Values have a compact form without any white space, in which artifacts are
handed to the engine, and an indented form, in which files are kept. In both,
a string escapes the quotation mark, the backslash and the control characters
below the blank, and nothing else.

* `Json.compact` — the compact form.
* `Json.indented` — the form with two blanks per level.
-/

namespace ContentBlocking.Json

/-- The digit for a number below sixteen. -/
def hexDigit (n : Nat) : Char := Nat.digitChar n

/-- The escape of a character inside a string literal. -/
def escapeChar (c : Char) : List Char :=
  match c with
  | '"' => ['\\', '"']
  | '\\' => ['\\', '\\']
  | '\x08' => ['\\', 'b']
  | '\x0c' => ['\\', 'f']
  | '\n' => ['\\', 'n']
  | '\r' => ['\\', 'r']
  | '\t' => ['\\', 't']
  | c =>
    if c.toNat < 0x20 then
      ['\\', 'u', '0', '0', hexDigit (c.toNat / 16), hexDigit (c.toNat % 16)]
    else [c]

/-- A string literal. -/
def quoted (s : String) : List Char := '"' :: s.toList.flatMap escapeChar ++ ['"']

/-- The decimal digits of a natural number. -/
def digits (n : Nat) : List Char := Nat.toDigits 10 n

/-! ### The compact form -/

mutual

/-- The compact form of a value. -/
def compactChars : Json → List Char
  | .null | .illFormed => ['n', 'u', 'l', 'l']
  | .bool true => ['t', 'r', 'u', 'e']
  | .bool false => ['f', 'a', 'l', 's', 'e']
  | .nat n => digits n
  | .number text => text.toList
  | .str s => quoted s
  | .arr items => '[' :: compactItems items ++ [']']
  | .obj fields => '{' :: compactFields fields ++ ['}']

/-- The items of an array, with commas between them. -/
def compactItems : List Json → List Char
  | [] => []
  | [item] => compactChars item
  | item :: rest => compactChars item ++ ',' :: compactItems rest

/-- The members of an object, with commas between them. -/
def compactFields : List (String × Json) → List Char
  | [] => []
  | [(key, value)] => quoted key ++ ':' :: compactChars value
  | (key, value) :: rest =>
    quoted key ++ ':' :: compactChars value ++ ',' :: compactFields rest

end

/-- The compact form of a value, as text. -/
def compact (j : Json) : String := String.ofList (compactChars j)

/-! ### The indented form -/

/-- A new line at the given level. -/
def newLine (level : Nat) : List Char := '\n' :: List.replicate (2 * level) ' '

mutual

/-- The indented form of a value whose line stands at the given level. -/
def indentedChars (level : Nat) : Json → List Char
  | .null | .illFormed => ['n', 'u', 'l', 'l']
  | .bool true => ['t', 'r', 'u', 'e']
  | .bool false => ['f', 'a', 'l', 's', 'e']
  | .nat n => digits n
  | .number text => text.toList
  | .str s => quoted s
  | .arr [] => ['[', ']']
  | .arr items => '[' :: indentedItems (level + 1) items ++ newLine level ++ [']']
  | .obj [] => ['{', '}']
  | .obj fields => '{' :: indentedFields (level + 1) fields ++ newLine level ++ ['}']

/-- The items of an array, each on a line of its own. -/
def indentedItems (level : Nat) : List Json → List Char
  | [] => []
  | [item] => newLine level ++ indentedChars level item
  | item :: rest =>
    newLine level ++ indentedChars level item ++ ',' :: indentedItems level rest

/-- The members of an object, each on a line of its own. -/
def indentedFields (level : Nat) : List (String × Json) → List Char
  | [] => []
  | [(key, value)] => newLine level ++ quoted key ++ ':' :: ' ' :: indentedChars level value
  | (key, value) :: rest =>
    newLine level ++ quoted key ++ ':' :: ' ' :: indentedChars level value ++
      ',' :: indentedFields level rest

end

/-- The indented form of a value, as text. -/
def indented (j : Json) : String := String.ofList (indentedChars 0 j)

end ContentBlocking.Json
