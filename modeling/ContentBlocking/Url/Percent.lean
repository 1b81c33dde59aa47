import ContentBlocking.Text.Ascii

/-!
# Percent encoding

In the parts of a URL a character stands for itself or as the bytes of its
UTF-8 form, each a percent sign with two hexadecimal digits. Which characters
are encoded depends on the part; control characters and those outside ASCII
always are. A percent sign itself stays, so that what is encoded already is
not encoded again.

* `Percent.encode` — a text with the characters of a set encoded.
* `Percent.decode` — the bytes that an encoded text denotes.
-/

namespace ContentBlocking.Percent

open Text

/-! ### The sets of encoded characters -/

/-- A control character, or one outside ASCII. -/
def isAlwaysEncoded (c : Char) : Bool := c.toNat < 0x20 || 0x7E < c.toNat

/-- Encoded in fragments. -/
def inFragment (c : Char) : Bool := isAlwaysEncoded c || [' ', '"', '<', '>', '`'].contains c

/-- Encoded in queries. -/
def inQuery (c : Char) : Bool :=
  isAlwaysEncoded c || [' ', '"', '#', '<', '>', '\''].contains c

/-- Encoded in paths. -/
def inPath (c : Char) : Bool := inFragment c || ['#', '?', '{', '}'].contains c

/-- Encoded in user names and passwords. -/
def inUserInfo (c : Char) : Bool :=
  inPath c || ['/', ':', ';', '=', '@', '[', '\\', ']', '^', '|'].contains c

/-! ### Encoding and decoding -/

/-- The digit in upper case for a number below sixteen. -/
def hexDigit (n : Nat) : Char := (Nat.digitChar n).toUpper

/-- A byte with a percent sign in front. -/
def encodeByte (b : UInt8) : List Char := ['%', hexDigit (b.toNat / 16), hexDigit (b.toNat % 16)]

/-- The bytes of a character, each with a percent sign in front. -/
def encodeChar (c : Char) : List Char := (String.utf8EncodeChar c).flatMap encodeByte

/-- The text with the characters of a set encoded. -/
def encode (encoded : Char → Bool) (s : List Char) : List Char :=
  s.flatMap fun c => if encoded c then encodeChar c else [c]

/-- The text with the encoded bytes in place of their escapes. A byte outside
    ASCII stands for itself as a code point. -/
def decode : List Char → List Char
  | '%' :: a :: b :: rest =>
    if isHexDigit a && isHexDigit b then Char.ofNat (ofDigits 16 [a, b]) :: decode rest
    else '%' :: decode (a :: b :: rest)
  | c :: rest => c :: decode rest
  | [] => []

end ContentBlocking.Percent
