/-!
# Fingerprints

The fingerprint of a text is the 64-bit xxHash of its UTF-8 bytes, with seed
zero. Four lanes digest the text in stripes of 32 bytes; what remains is mixed
in by words of eight and four bytes and then byte by byte.

* `Fingerprint.hash` — the hash of a row of bytes.
* `Fingerprint.hex` — the fingerprint of a text in 16 hexadecimal digits.
-/

namespace ContentBlocking.Fingerprint

/-! ### The rounds -/

def prime1 : UInt64 := 0x9E3779B185EBCA87

def prime2 : UInt64 := 0xC2B2AE3D27D4EB4F

def prime3 : UInt64 := 0x165667B19E3779F9

def prime4 : UInt64 := 0x85EBCA77C2B2AE63

def prime5 : UInt64 := 0x27D4EB2F165667C5

/-- Turns the bits to the left; `0 < n < 64`. -/
def rotate (x : UInt64) (n : UInt64) : UInt64 := (x <<< n) ||| (x >>> (64 - n))

/-- Digests a word in a lane. -/
def mix (lane word : UInt64) : UInt64 := rotate (lane + word * prime2) 31 * prime1

/-- The number that the bytes denote, the lowest first. -/
def word : List UInt8 → UInt64
  | [] => 0
  | b :: rest => b.toUInt64 ||| (word rest <<< 8)

/-- The four lanes. -/
structure Lanes where
  v1 : UInt64
  v2 : UInt64
  v3 : UInt64
  v4 : UInt64
  deriving Repr, DecidableEq

namespace Lanes

/-- The lanes before the first stripe. -/
def start : Lanes := ⟨prime1 + prime2, prime2, 0, 0 - prime1⟩

/-- Digests a stripe of 32 bytes. -/
def absorb (l : Lanes) (bytes : List UInt8) : Lanes :=
  ⟨mix l.v1 (word (bytes.take 8)), mix l.v2 (word ((bytes.drop 8).take 8)),
    mix l.v3 (word ((bytes.drop 16).take 8)), mix l.v4 (word ((bytes.drop 24).take 8))⟩

/-- Digests `count` stripes and gives what follows them. -/
def absorbAll : (count : Nat) → Lanes → List UInt8 → Lanes × List UInt8
  | 0, l, bytes => (l, bytes)
  | count + 1, l, bytes => absorbAll count (l.absorb bytes) (bytes.drop 32)

/-- Mixes one lane into the digest of all. -/
def merge (h lane : UInt64) : UInt64 := (h ^^^ mix 0 lane) * prime1 + prime4

/-- The digest of all lanes. -/
def digest (l : Lanes) : UInt64 :=
  [l.v1, l.v2, l.v3, l.v4].foldl merge
    (rotate l.v1 1 + rotate l.v2 7 + rotate l.v3 12 + rotate l.v4 18)

end Lanes

/-- Mixes in `count` words of eight bytes and gives what follows them. -/
def mixWords : (count : Nat) → UInt64 → List UInt8 → UInt64 × List UInt8
  | 0, h, bytes => (h, bytes)
  | count + 1, h, bytes =>
    mixWords count (rotate (h ^^^ mix 0 (word (bytes.take 8))) 27 * prime1 + prime4)
      (bytes.drop 8)

/-- Mixes in four bytes, if there are as many, and gives what follows them. -/
def mixHalf (h : UInt64) (bytes : List UInt8) : UInt64 × List UInt8 :=
  if 4 ≤ bytes.length then
    (rotate (h ^^^ (word (bytes.take 4) * prime1)) 23 * prime2 + prime3, bytes.drop 4)
  else (h, bytes)

/-- Mixes in one byte. -/
def mixByte (h : UInt64) (b : UInt8) : UInt64 :=
  rotate (h ^^^ (b.toUInt64 * prime5)) 11 * prime1

/-- Lets every bit reach every other. -/
def spread (h : UInt64) : UInt64 :=
  let h := (h ^^^ (h >>> 33)) * prime2
  let h := (h ^^^ (h >>> 29)) * prime3
  h ^^^ (h >>> 32)

/-! ### The hash -/

/-- The hash of a row of bytes. -/
def hash (bytes : List UInt8) : UInt64 :=
  let size := bytes.length
  let (h, rest) :=
    if 32 ≤ size then
      let (lanes, rest) := Lanes.absorbAll (size / 32) .start bytes
      (lanes.digest, rest)
    else (prime5, bytes)
  let (h, rest) := mixWords (rest.length / 8) (h + size.toUInt64) rest
  let (h, rest) := mixHalf h rest
  spread (rest.foldl mixByte h)

/-- A number in hexadecimal digits, at least `width` of them. -/
def padHex (width : Nat) (n : Nat) : String :=
  let digits := Nat.toDigits 16 n
  String.ofList (List.replicate (width - digits.length) '0' ++ digits)

/-- The fingerprint of a text. -/
def hex (text : String) : String := padHex 16 (hash text.toUTF8.toList).toNat

end ContentBlocking.Fingerprint
