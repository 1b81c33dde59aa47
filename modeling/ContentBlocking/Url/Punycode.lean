import ContentBlocking.Text.CaseFolding
import ContentBlocking.Text.Cut

/-!
# Punycode

A label of a host name that begins with `xn--` stands for one with characters
outside ASCII. What follows is the ASCII part, a hyphen, and a row of numbers
in base 36 that say which character is inserted next and where.

* `Punycode.decode?` — the code points of a label.
* `Punycode.isLabel` — a label is the encoding of one that needs it.
-/

namespace ContentBlocking.Punycode

open Text

/-- The value of a digit in base 36: first the letters, then the digits. -/
def digit? (c : Char) : Option Nat :=
  if 'a' ≤ c && c ≤ 'z' then some (c.toNat - 'a'.toNat)
  else if c.isDigit then some (c.toNat - '0'.toNat + 26)
  else none

/-- Divides by 35 until what is left is small, and counts the divisions. -/
def reduce (delta : Nat) : Nat × Nat :=
  if 455 < delta then
    let (rest, count) := reduce (delta / 35)
    (rest, count + 1)
  else (delta, 0)
termination_by delta
decreasing_by exact Nat.div_lt_self (by omega) (by omega)

/-- The bias for the next number, after one that advanced by `delta` and made
    `size` characters. -/
def adapt (delta size : Nat) (first : Bool) : Nat :=
  let delta := if first then delta / 700 else delta / 2
  let (rest, count) := reduce (delta + delta / size)
  36 * count + 36 * rest / (rest + 38)

/-- What has been read of the numbers. -/
structure Progress where
  /-- The characters, as code points. -/
  out : List Nat
  /-- The last code point that was inserted. -/
  code : Nat := 0x80
  /-- Where the next one goes, counted over all code points from the last one
      on, as far as its number has been read. -/
  position : Nat := 0
  /-- The position at which the number began. -/
  start : Nat := 0
  bias : Nat := 72
  /-- The weight and the place of the next digit of the number. -/
  weight : Nat := 1
  place : Nat := 36
  deriving Repr, DecidableEq

/-- A digit below this one ends a number. -/
def threshold (place bias : Nat) : Nat := min 26 (max 1 (place - bias))

/-- Inserts a character, if there is one with this code point. -/
def Progress.insert? (p : Progress) : Option Progress :=
  let size := p.out.length + 1
  let code := p.code + p.position / size
  let spot := p.position % size
  if code ≤ 0x10FFFF then some {
    out := p.out.take spot ++ code :: p.out.drop spot
    code := code
    position := spot + 1
    start := spot + 1
    bias := adapt (p.position - p.start) size (p.start == 0) }
  else none

/-- Reads one more digit. -/
def Progress.next? (p : Progress) (c : Char) : Option Progress := do
  let digit ← digit? c
  let p := { p with position := p.position + digit * p.weight }
  let t := threshold p.place p.bias
  if digit < t then p.insert?
  else some { p with weight := p.weight * (36 - t), place := p.place + 36 }

/-- The code points of a label without its `xn--`. -/
def decode? (label : List Char) : Option (List Nat) := do
  let (basic, numbers) := match cutLast? '-' label with
    | some (c :: basic, numbers) => (c :: basic, numbers)
    | _ => ([], label)
  let p ← numbers.foldlM Progress.next? { out := basic.map Char.toNat }
  -- The last number must be complete.
  if p.place == 36 then some p.out else none

/-- A code point that a label in its normal form may hold: outside ASCII,
    neither a control character nor one that has another in its place. -/
def isNormal (n : Nat) : Bool :=
  n < 0x80 || (0xA0 < n && n.isValidChar && CaseFolding.foldCode CaseFolding.table n == n)

/-- What follows `xn--` encodes a label that has characters outside ASCII. -/
def isLabel (label : List Char) : Bool :=
  match decode? label with
  | some codes => codes.any (0x80 ≤ ·) && codes.all isNormal
  | none => false

end ContentBlocking.Punycode
