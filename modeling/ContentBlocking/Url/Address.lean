import ContentBlocking.Text.Ascii
import ContentBlocking.Text.Cut

/-!
# Numerical addresses

An IPv4 address is one to four numbers with dots between them, in decimal,
octal or hexadecimal notation; the last number fills all bytes that are left.
An IPv6 address is eight groups of hexadecimal digits with colons between
them, in which one row of zeros may be left out and the last two groups may be
an IPv4 address in its usual notation.

* `IPv4.parse?`, `IPv4.text` — reading and writing an IPv4 address.
* `IPv6.parse?`, `IPv6.text` — reading and writing an IPv6 address.
-/

namespace ContentBlocking

open Text

/-! ### IPv4 -/

namespace IPv4

/-- The number that a part denotes: hexadecimal after `0x`, octal after `0`,
    and otherwise decimal. -/
def number? (part : List Char) : Option Nat :=
  let ofBase (base : Nat) (isDigit : Char → Bool) (digits : List Char) : Option Nat :=
    if digits.all isDigit then some (ofDigits base digits) else none
  match part with
  | [] => none
  | '0' :: 'x' :: digits | '0' :: 'X' :: digits => ofBase 16 isHexDigit digits
  | '0' :: digits => ofBase 8 (fun c => '0' ≤ c && c ≤ '7') digits
  | digits => ofBase 10 Char.isDigit digits

/-- The parts of a host between its dots, without an empty one at the end. -/
def parts (host : List Char) : List (List Char) :=
  let all := splitOn '.' host
  if all.getLast? = some [] && all.length ≠ 1 then all.dropLast else all

/-- The host is meant as an address, because its last part is a number. -/
def isMeant (host : List Char) : Bool :=
  match (parts host).getLast? with
  | some last => (!last.isEmpty && last.all Char.isDigit) || (number? last).isSome
  | none => false

/-- The address of the given numbers: each but the last is a byte, and the
    last has the bytes that are left. -/
def ofNumbers? (numbers : List Nat) : Option Nat :=
  match numbers.getLast? with
  | none => none
  | some last =>
    let bytes := numbers.dropLast
    let room := 4 - bytes.length
    if numbers.length ≤ 4 && bytes.all (· < 256) && last < 1 <<< (8 * room) then
      some (bytes.foldl (fun n b => n * 256 + b) 0 <<< (8 * room) + last)
    else none

/-- The address that a host denotes. -/
def parse? (host : List Char) : Option Nat := ((parts host).mapM number?).bind ofNumbers?

/-- The four bytes of an address, with dots between them. -/
def text (address : Nat) : List Char :=
  joinWith ['.'] <| [24, 16, 8, 0].map fun shift => Nat.toDigits 10 ((address >>> shift) % 256)

/-- The byte that a part denotes in the usual notation, without leading
    zeros. -/
def byte? (part : List Char) : Option Nat :=
  if part.isEmpty || !part.all Char.isDigit || (part.head? == some '0' && part.length ≠ 1) then none
  else some (ofDigits 10 part) |>.filter (· < 256)

/-- The four bytes that a text denotes in the usual notation. -/
def bytes? (s : List Char) : Option (List Nat) :=
  ((splitOn '.' s).mapM byte?).filter fun bytes => bytes.length == 4

end IPv4

/-! ### IPv6 -/

namespace IPv6

/-- The number of a group of one to four hexadecimal digits. -/
def group? (s : List Char) : Option Nat :=
  if s.isEmpty || 4 < s.length || !s.all isHexDigit then none else some (ofDigits 16 s)

/-- The groups that a text without omissions denotes; the last two may be
    written as an IPv4 address if `tail` allows it. -/
def groups? (tail : Bool) (s : List Char) : Option (List Nat) :=
  if s.isEmpty then some []
  else
    let parts := splitOn ':' s
    match (parts.getLast?.bind IPv4.bytes?).filter fun _ => tail with
    | some [a, b, c, d] =>
      (parts.dropLast.mapM group?).map (· ++ [a * 256 + b, c * 256 + d])
    | _ => parts.mapM group?

/-- The eight groups that a text denotes. -/
def parse? (s : List Char) : Option (List Nat) :=
  match cut? [':', ':'] s with
  | some (before, after) => do
    let left ← groups? false before
    let right ← groups? true after
    -- What is left out is at least one group.
    if left.length + right.length ≤ 7 then
      some (left ++ List.replicate (8 - left.length - right.length) 0 ++ right)
    else none
  | none => (groups? true s).filter fun groups => groups.length == 8

/-- The length of the row of zeros in front. -/
def zerosInFront (groups : List Nat) : Nat := (groups.takeWhile (· == 0)).length

/-- The place and length of the first of the longest rows of zeros. -/
def longestZeros (groups : List Nat) : Nat × Nat :=
  (List.range groups.length).foldl (fun best i =>
    let length := zerosInFront (groups.drop i)
    if best.2 < length then (i, length) else best) (0, 0)

/-- Some groups with colons between them. -/
def groupsText (groups : List Nat) : List Char := joinWith [':'] (groups.map (Nat.toDigits 16))

/-- An address, in which the first of the longest rows of at least two zeros
    is left out. -/
def text (groups : List Nat) : List Char :=
  let (start, length) := longestZeros groups
  if 2 ≤ length then
    groupsText (groups.take start) ++ [':', ':'] ++ groupsText (groups.drop (start + length))
  else groupsText groups

end IPv6

end ContentBlocking
