/-!
# The letters of ASCII

Host names, selectors' domains and resource type names are compared without
regard to the case of the letters A to Z alone: every other character is only
equal to itself.
-/

namespace ContentBlocking.Text

/-- A character of ASCII. -/
def isAscii (c : Char) : Bool := c.toNat < 128

/-- All characters belong to ASCII. -/
def allAscii (s : List Char) : Bool := s.all isAscii

/-- The letters A to Z in lower case, everything else unchanged. -/
def lowerAscii (s : List Char) : List Char := s.map Char.toLower

/-- The texts are equal up to the case of the letters A to Z. -/
def eqIgnoringCase (s t : List Char) : Bool := lowerAscii s == lowerAscii t

/-- A letter of ASCII or one of the digits 0 to 9. -/
def isAlphanumeric (c : Char) : Bool := c.isAlphanum

/-- A hexadecimal digit. -/
def isHexDigit (c : Char) : Bool :=
  c.isDigit || ('a' ≤ c && c ≤ 'f') || ('A' ≤ c && c ≤ 'F')

/-- The value of a hexadecimal digit. -/
def hexValue (c : Char) : Nat :=
  if c.isDigit then c.toNat - '0'.toNat
  else if 'a' ≤ c then c.toNat - 'a'.toNat + 10
  else c.toNat - 'A'.toNat + 10

/-- The number that a row of digits of the given base denotes. -/
def ofDigits (base : Nat) (digits : List Char) : Nat :=
  digits.foldl (fun n c => n * base + hexValue c) 0

end ContentBlocking.Text
