import ContentBlocking.Fingerprint
import ContentBlocking.Text.Ascii
import ContentBlocking.Text.Cut

/-!
# Session identifiers

A pending decision has an identifier of 128 bits, written in groups of
hexadecimal digits.

* `SessionId.text` — the written form.
* `SessionId.parse?` — the identifier that a text denotes.
-/

namespace ContentBlocking

open Text

/-- The identifier of a pending decision. -/
structure SessionId where
  value : BitVec 128
  deriving Repr, DecidableEq

namespace SessionId

/-- The identifier without a bit set. -/
def nil : SessionId := ⟨0⟩

/-- The identifier that follows. -/
def next (id : SessionId) : SessionId := ⟨id.value + 1⟩

/-- The lengths of the groups of digits. -/
def groups : List Nat := [8, 4, 4, 4, 12]

/-- The digits cut into groups of the given lengths, with hyphens between
    them. -/
def hyphenate : List Nat → List Char → List Char
  | [], digits => digits
  | [_], digits => digits
  | n :: rest, digits => digits.take n ++ '-' :: hyphenate rest (digits.drop n)

/-- The written form. -/
def text (id : SessionId) : String :=
  String.ofList (hyphenate groups (Fingerprint.padHex 32 id.value.toNat).toList)

/-- The text without what may stand around the digits: braces, or the scheme
    of a name. -/
def unwrapped (s : List Char) : List Char :=
  match dropLead? ['\x7b'] s with
  | some inner => (dropLast? '\x7d' inner).getD s
  | none => (dropLead? "urn:uuid:".toList s).getD s

/-- The identifier that a text denotes: 32 hexadecimal digits, in groups or in
    one piece. -/
def parse? (s : String) : Option SessionId :=
  let inner := unwrapped s.toList
  let digits := inner.filter (· ≠ '-')
  if digits.length = 32 ∧ digits.all isHexDigit ∧
      ((inner = digits ∧ inner = s.toList) ∨ inner = hyphenate groups digits) then
    some ⟨BitVec.ofNat 128 (ofDigits 16 digits)⟩
  else none

end SessionId

end ContentBlocking
