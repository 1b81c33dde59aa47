import ContentBlocking.Text.Ascii
import ContentBlocking.Text.Cut

/-!
# Options

The words behind a command are read from left to right. An option is named by a
word with two dashes or by a letter with one, and letters of options without a
value can stand together. A value is attached to the name of its option, or it
is the next word, which then must not look like an option.

* `OptionSpec` — an option that a command knows.
* `Reading.ofWords` — the options that some words give.
* `Given` — looking up what was given.
-/

namespace ContentBlocking.CommandLine

open Text

/-! ### What a command knows -/

/-- What the value of an option has to be. -/
inductive ValueKind where
  | text
  /-- A path, which is not empty. -/
  | path
  /-- A number of 64 bits. -/
  | count
  deriving Repr, DecidableEq

/-- The number of 64 bits that some characters denote in decimal digits, with a
    plus sign or without a sign. -/
def countOfChars? (s : List Char) : Option Nat :=
  let digits := (dropLead? ['+'] s).getD s
  let n := ofDigits 10 digits
  if digits ≠ [] ∧ digits.all Char.isDigit ∧ n < UInt64.size then some n else none

/-- The number of 64 bits that a text denotes. -/
def countOf? (s : String) : Option Nat := countOfChars? s.toList

/-- A value has to be like this. -/
def ValueKind.accepts : ValueKind → String → Bool
  | .text, _ => true
  | .path, value => !value.isEmpty
  | .count, value => (countOf? value).isSome

/-- An option that a command knows. -/
structure OptionSpec where
  name : String
  letter : Option Char := none
  /-- The kind of its value; a switch has none. -/
  value : Option ValueKind := some .text
  /-- It may be given more than once. -/
  repeats : Bool := false
  /-- It must be given. -/
  required : Bool := false
  deriving Repr, DecidableEq

/-- Why a command line is refused. -/
inductive UsageError where
  | noCommand
  | unknownCommand (word : String)
  | unknownOption (word : String)
  /-- The word is neither an option nor the value of one. -/
  | unexpectedWord (word : String)
  | missingValue (option : String)
  /-- A switch has a value attached. -/
  | unexpectedValue (option : String)
  | invalidValue (option value : String)
  | repeatedOption (option : String)
  | missingOption (option : String)
  deriving Repr, DecidableEq

/-- The message of the refusal. -/
def UsageError.message : UsageError → String
  | .noCommand => "a command is required"
  | .unknownCommand word => s!"unknown command '{word}'"
  | .unknownOption word => s!"unknown option '{word}'"
  | .unexpectedWord word => s!"unexpected argument '{word}'"
  | .missingValue option => s!"'--{option}' needs a value"
  | .unexpectedValue option => s!"'--{option}' takes no value"
  | .invalidValue option value => s!"invalid value '{value}' for '--{option}'"
  | .repeatedOption option => s!"'--{option}' cannot be used more than once"
  | .missingOption option => s!"'--{option}' is required"

/-! ### What was given -/

/-- The names of the options that were given, with their values; the value of a
    switch is empty. -/
abbrev Given := List (String × String)

namespace Given

/-- The values of an option in their order. -/
def values (given : Given) (name : String) : List String :=
  given.filterMap fun (n, value) => if n = name then some value else none

/-- The first value of an option. -/
def value? (given : Given) (name : String) : Option String := (given.values name).head?

/-- The option was given. -/
def has (given : Given) (name : String) : Bool := given.any fun (n, _) => n == name

end Given

/-! ### Reading -/

/-- The name of the switch that asks for help. Nothing behind it is read. -/
def helpName : String := "help"

/-- How far the reading of words is. -/
structure Reading where
  given : Given := []
  /-- The option whose value is the next word. -/
  awaiting : Option OptionSpec := none
  /-- Two dashes have ended the options. -/
  closed : Bool := false
  deriving Repr, DecidableEq

namespace Reading

/-- Help was asked for. -/
def asksHelp (r : Reading) : Bool := r.given.has helpName

/-- An option is given with a value. -/
def take (r : Reading) (spec : OptionSpec) (value : String) : Except UsageError Reading :=
  if !spec.repeats && r.given.has spec.name then .error (.repeatedOption spec.name)
  else if !spec.value.all (·.accepts value) then .error (.invalidValue spec.name value)
  else .ok { r with given := r.given ++ [(spec.name, value)], awaiting := none }

/-- An option is named, perhaps with a value attached. -/
def name (r : Reading) (spec : OptionSpec) : Option String → Except UsageError Reading
  | some value =>
    if spec.value.isSome then r.take spec value else .error (.unexpectedValue spec.name)
  | none => if spec.value.isSome then .ok { r with awaiting := some spec } else r.take spec ""

/-- A word behind two dashes: the name of an option, and its value behind an
    equals sign. -/
def long (specs : List OptionSpec) (r : Reading) (word : List Char) : Except UsageError Reading :=
  let (name, value) := match cut? ['='] word with
    | some (name, value) => (String.ofList name, some (String.ofList value))
    | none => (String.ofList word, none)
  match specs.find? (·.name == name) with
  | some spec => r.name spec value
  | none => .error (.unknownOption ("--" ++ name))

/-- Letters behind one dash. What follows the letter of an option that has a
    value is the value, without an equals sign in front. -/
def letters (specs : List OptionSpec) (r : Reading) : List Char → Except UsageError Reading
  | [] => .ok r
  | c :: rest =>
    if r.asksHelp then .ok r
    else match specs.find? (·.letter == some c) with
      | none => .error (.unknownOption (String.ofList ['-', c]))
      | some spec =>
        if spec.value.isNone then
          match r.name spec none with
          | .ok r => letters specs r rest
          | .error e => .error e
        else if rest.isEmpty then r.name spec none
        else r.name spec (some (String.ofList ((dropLead? ['='] rest).getD rest)))

/-- The word can be a value: it has no dash in front, or is only a dash. -/
def isPlain (word : List Char) : Bool := word.head? ≠ some '-' || word = ['-']

/-- Reads a word. -/
def word (specs : List OptionSpec) (r : Reading) (w : String) : Except UsageError Reading :=
  if r.asksHelp then .ok r
  else if r.closed then .error (.unexpectedWord w)
  else match r.awaiting with
    | some spec =>
      if isPlain w.toList then r.take spec w else .error (.missingValue spec.name)
    | none =>
      if isPlain w.toList then .error (.unexpectedWord w)
      else match w.toList with
        | ['-', '-'] => .ok { r with closed := true }
        | '-' :: '-' :: rest => long specs r rest
        | chars => letters specs r (chars.drop 1)

/-- Reads words, and the last option must have its value. -/
def ofWords (specs : List OptionSpec) (words : List String) : Except UsageError Reading := do
  let r ← words.foldlM (word specs) {}
  match r.awaiting with
  | some spec => .error (.missingValue spec.name)
  | none => .ok r

/-- What was given, with all that is required unless help was asked for. -/
def complete (specs : List OptionSpec) (r : Reading) : Except UsageError Given :=
  match specs.find? fun spec => spec.required && !r.given.has spec.name with
  | some spec => if r.asksHelp then .ok r.given else .error (.missingOption spec.name)
  | none => .ok r.given

end Reading

end ContentBlocking.CommandLine
