import ContentBlocking.Text.Ascii
import ContentBlocking.Text.Cut
import ContentBlocking.Toml.Basic

/-!
# TOML scalars

Strings, numbers and dates as they are written in a configuration file. A
reader takes what it reads off the front of a text and gives what is left.

* `Toml.readString?` — a string of any kind.
* `Toml.readInteger?`, `Toml.readFloat?` — a number.
* `Toml.readDateTime?` — a date, a time or both.
-/

namespace ContentBlocking.Toml

open Text

/-! ### Strings -/

/-- A character that may stand in a comment or a string as it is. -/
def isTextChar (c : Char) : Bool := c == '\t' || (0x20 ≤ c.toNat && c.toNat ≠ 0x7F)

/-- The character with the code point that `count` hexadecimal digits in front
    denote. -/
def readCodePoint? (count : Nat) (s : List Char) : Option (Char × List Char) :=
  let digits := s.take count
  if digits.length = count ∧ digits.all isHexDigit ∧ (ofDigits 16 digits).isValidChar then
    some (Char.ofNat (ofDigits 16 digits), s.drop count)
  else none

/-- Reads an escape after its backslash. -/
def readEscape? : List Char → Option (Char × List Char)
  | 'b' :: s => some ('\x08', s)
  | 't' :: s => some ('\t', s)
  | 'n' :: s => some ('\n', s)
  | 'f' :: s => some ('\x0c', s)
  | 'r' :: s => some ('\r', s)
  | '"' :: s => some ('"', s)
  | '\\' :: s => some ('\\', s)
  | 'u' :: s => readCodePoint? 4 s
  | 'U' :: s => readCodePoint? 8 s
  | _ => none

/-- Drops a blank or tab in front. -/
def skipBlanks (s : List Char) : List Char := s.dropWhile fun c => c == ' ' || c == '\t'

/-- What follows a line end in front. -/
def dropNewline? : List Char → Option (List Char)
  | '\n' :: s => some s
  | '\r' :: '\n' :: s => some s
  | _ => none

/-- Drops blanks, tabs and line ends in front. -/
def skipSpace : List Char → List Char
  | ' ' :: s => skipSpace s
  | '\t' :: s => skipSpace s
  | '\n' :: s => skipSpace s
  | '\r' :: '\n' :: s => skipSpace s
  | s => s

/-- What follows a line end that a backslash takes back, and the white space
    after it. -/
def skipContinuation? (s : List Char) : Option (List Char) :=
  (dropNewline? (skipBlanks s)).map skipSpace

/-- Reads the rest of a string on one line after its opening quotation mark.
    Every call takes a character off the text, so `fuel` need not exceed its
    length. -/
def readBasic? : (fuel : Nat) → List Char → Option (List Char × List Char)
  | 0, _ => none
  | _ + 1, '"' :: s => some ([], s)
  | fuel + 1, '\\' :: s => do
    let (c, s) ← readEscape? s
    let (text, s) ← readBasic? fuel s
    some (c :: text, s)
  | fuel + 1, c :: s =>
    if isTextChar c then (readBasic? fuel s).map fun (text, s) => (c :: text, s) else none
  | _ + 1, [] => none

/-- Reads the rest of a literal string on one line after its opening
    apostrophe. -/
def readLiteral? (s : List Char) : Option (List Char × List Char) :=
  let text := upTo (· == '\'') s
  match s.drop text.length with
  | '\'' :: rest => if text.all isTextChar then some (text, rest) else none
  | _ => none

/-- The end of a string of several lines: three quotation marks, in front of
    which one or two more belong to the text. -/
def readTripleEnd? (quote : Char) (s : List Char) : Option (List Char × List Char) :=
  let count := (s.takeWhile (· == quote)).length
  if 3 ≤ count then
    let extra := min 2 (count - 3)
    some (List.replicate extra quote, s.drop (extra + 3))
  else none

/-- Reads the rest of a string of several lines after its opening quotation
    marks. A line end reads as a line feed, whichever way it is written;
    `escapes` tells whether backslashes have a meaning. -/
def readLines? (quote : Char) (escapes : Bool) :
    (fuel : Nat) → List Char → Option (List Char × List Char)
  | 0, _ => none
  | fuel + 1, s =>
    match readTripleEnd? quote s, dropNewline? s with
    | some found, _ => some found
    | none, some s => (readLines? quote escapes fuel s).map fun (text, s) => ('\n' :: text, s)
    | none, none =>
      match s with
      | [] => none
      | c :: s =>
        if escapes && c == '\\' then
          match skipContinuation? s with
          | some s => readLines? quote escapes fuel s
          | none => do
            let (c, s) ← readEscape? s
            let (text, s) ← readLines? quote escapes fuel s
            some (c :: text, s)
        else if isTextChar c then
          (readLines? quote escapes fuel s).map fun (text, s) => (c :: text, s)
        else none

/-- Reads a string on one line. -/
def readLineString? : List Char → Option (List Char × List Char)
  | '"' :: s => readBasic? (s.length + 1) s
  | '\'' :: s => readLiteral? s
  | _ => none

/-- Reads a string. A line end right after the opening of a string of several
    lines does not count. -/
def readString? : List Char → Option (List Char × List Char)
  | '"' :: '"' :: '"' :: s => readLines? '"' true (s.length + 1) ((dropNewline? s).getD s)
  | '\'' :: '\'' :: '\'' :: s => readLines? '\'' false (s.length + 1) ((dropNewline? s).getD s)
  | s => readLineString? s

/-! ### Numbers -/

/-- The digits in front, with single underscores between them, and what
    follows them. The digits are given without the underscores. -/
def spanDigits (isDigit : Char → Bool) : List Char → List Char × List Char
  | '_' :: d :: s =>
    if isDigit d then
      let (ds, rest) := spanDigits isDigit s
      (d :: ds, rest)
    else ([], '_' :: d :: s)
  | c :: s =>
    if isDigit c then
      let (ds, rest) := spanDigits isDigit s
      (c :: ds, rest)
    else ([], c :: s)
  | [] => ([], [])

/-- Reads digits of which the first is not an underscore. -/
def readDigits? (isDigit : Char → Bool) (s : List Char) : Option (List Char × List Char) :=
  if s.head?.any isDigit then some (spanDigits isDigit s) else none

/-- Reads a sign, if there is one; tells whether it is a minus. -/
def readSign : List Char → Bool × List Char
  | '-' :: s => (true, s)
  | '+' :: s => (false, s)
  | s => (false, s)

/-- Reads a decimal number without leading zeros. -/
def readDecimal? : List Char → Option (List Char × List Char)
  | '0' :: s => some (['0'], s)
  | s => readDigits? Char.isDigit s

/-- A whole number, which must have 64 bits. -/
def int? (negative : Bool) (magnitude : Nat) : Option Toml :=
  let n : Int := if negative then -magnitude else magnitude
  if Int64.minValue.toInt ≤ n ∧ n ≤ Int64.maxValue.toInt then some (.int n) else none

/-- Reads a whole number: hexadecimal, octal or binary without a sign, or
    decimal. -/
def readInteger? (s : List Char) : Option (Toml × List Char) :=
  let ofBase (base : Nat) (isDigit : Char → Bool) (s : List Char) : Option (Toml × List Char) := do
    let (digits, rest) ← readDigits? isDigit s
    (int? false (ofDigits base digits)).map (·, rest)
  match s with
  | '0' :: 'x' :: s => ofBase 16 isHexDigit s
  | '0' :: 'o' :: s => ofBase 8 (fun c => '0' ≤ c && c ≤ '7') s
  | '0' :: 'b' :: s => ofBase 2 (fun c => c == '0' || c == '1') s
  | s => do
    let (negative, s) := readSign s
    let (digits, rest) ← readDecimal? s
    (int? negative (ofDigits 10 digits)).map (·, rest)

/-- Reads the fraction of a number, if there is one. -/
def readFraction? : List Char → Option (List Char × List Char)
  | '.' :: s => readDigits? Char.isDigit s
  | s => some ([], s)

/-- Reads the exponent of a number, if there is one. -/
def readExponent? : List Char → Option (Int × List Char)
  | c :: s =>
    if c == 'e' || c == 'E' then do
      let (negative, s) := readSign s
      let (digits, rest) ← readDigits? Char.isDigit s
      let n : Int := ofDigits 10 digits
      some (if negative then -n else n, rest)
    else some (0, c :: s)
  | [] => some (0, [])

/-- The number `mantissa * 10 ^ exponent` is beyond the greatest number with a
    floating point of 64 bits. -/
def overflows (mantissa : Nat) (exponent : Int) : Bool :=
  let digits : Int := (Nat.toDigits 10 mantissa).length
  let limit := 1 <<< 1024 - 1 <<< 970
  if mantissa = 0 ∨ digits + exponent < 300 then false
  else if 310 < digits + exponent then true
  else if 0 ≤ exponent then limit ≤ mantissa * Nat.pow 10 exponent.toNat
  else limit * Nat.pow 10 (-exponent).toNat ≤ mantissa

/-- Reads a number with a fraction or an exponent, or one that is not finite.
    A positive number must not be too great. -/
def readFloat? (s : List Char) : Option (Toml × List Char) :=
  let (negative, unsigned) := readSign s
  match unsigned with
  | 'i' :: 'n' :: 'f' :: rest => some (.float, rest)
  | 'n' :: 'a' :: 'n' :: rest => some (.float, rest)
  | _ => do
    let (whole, afterWhole) ← readDecimal? unsigned
    let (fraction, afterFraction) ← readFraction? afterWhole
    let (exponent, rest) ← readExponent? afterFraction
    if rest.length = afterWhole.length ∨
        (!negative && overflows (ofDigits 10 (whole ++ fraction)) (exponent - fraction.length)) then
      none
    else some (.float, rest)

/-! ### Dates and times -/

/-- Reads a number of exactly `count` digits. -/
def readCount? (count : Nat) (s : List Char) : Option (Nat × List Char) :=
  let digits := s.take count
  if digits.length = count ∧ digits.all Char.isDigit then some (ofDigits 10 digits, s.drop count)
  else none

/-- The number of days in a month. -/
def daysIn (year month : Nat) : Nat :=
  if month = 2 then
    if year % 4 = 0 ∧ (year % 100 ≠ 0 ∨ year % 400 = 0) then 29 else 28
  else if [4, 6, 9, 11].contains month then 30
  else 31

/-- What follows a date in front. -/
def dropDate? (s : List Char) : Option (List Char) := do
  let (year, s) ← readCount? 4 s
  let s ← dropLead? ['-'] s
  let (month, s) ← readCount? 2 s
  let s ← dropLead? ['-'] s
  let (day, s) ← readCount? 2 s
  if 1 ≤ month ∧ month ≤ 12 ∧ 1 ≤ day ∧ day ≤ daysIn year month then some s else none

/-- What follows a time of day in front. -/
def dropTime? (s : List Char) : Option (List Char) := do
  let (hour, s) ← readCount? 2 s
  let s ← dropLead? [':'] s
  let (minute, s) ← readCount? 2 s
  let s ← dropLead? [':'] s
  let (second, s) ← readCount? 2 s
  if hour < 24 ∧ minute < 60 ∧ second ≤ 60 then
    match s with
    | '.' :: fraction =>
      if fraction.head?.any Char.isDigit then some (fraction.dropWhile Char.isDigit) else none
    | s => some s
  else none

/-- What follows the distance from universal time in front, if there is one. -/
def dropOffset? : List Char → Option (List Char)
  | c :: s =>
    if c == 'Z' || c == 'z' then some s
    else if c == '+' || c == '-' then do
      let (hour, s) ← readCount? 2 s
      let s ← dropLead? [':'] s
      let (minute, s) ← readCount? 2 s
      if hour < 24 ∧ minute < 60 then some s else none
    else some (c :: s)
  | [] => some []

/-- Reads a date, a time of day, or a date with one. -/
def readDateTime? (s : List Char) : Option (Toml × List Char) :=
  match dropDate? s with
  | some rest =>
    match rest with
    | c :: time =>
      if c == 'T' || c == 't' || c == ' ' then
        match dropTime? time with
        | some afterTime => (dropOffset? afterTime).map (.dateTime, ·)
        | none => some (.dateTime, rest)
      else some (.dateTime, rest)
    | [] => some (.dateTime, [])
  | none => (dropTime? s).map (.dateTime, ·)

end ContentBlocking.Toml
