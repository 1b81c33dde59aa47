import ContentBlocking.CommandLine.Options

/-!
# Invocations

A command line names a command, and behind it the options of that command.

* `Invocation` — what a command line asks for.
* `Invocation.parse` — the invocation that some words denote.
-/

namespace ContentBlocking.CommandLine

/-- Filter lists to be compiled to files of shards. -/
structure CompileRequest where
  inputs : List String
  /-- The directory of the shards. -/
  output : String := "artifacts"
  /-- Entries of a whitelist. -/
  exclude : List String := []
  maxRulesPerShard : Nat := 50000
  maxShards : Nat := 10
  /-- The first part of the names of the shards. -/
  nameSpace : String := "shard"
  deriving Repr, DecidableEq

/-- A request to be put to files of artifacts. -/
structure CheckRequest where
  inputs : List String
  url : String
  pageHost : String := ""
  typeName : String := "script"
  deriving Repr, DecidableEq

/-- What a command line asks for. -/
inductive Invocation where
  | help
  | compile (request : CompileRequest)
  /-- Tells whether files of artifacts are good. -/
  | validate (inputs : List String)
  /-- Counts the rules of an artifact. -/
  | info (input : String)
  | check (request : CheckRequest)
  /-- Runs the service once; `refresh` downloads all lists. -/
  | update (config : Option String) (refresh : Bool)
  deriving Repr, DecidableEq

/-- The commands. -/
inductive CommandName where
  | compile
  | validate
  | info
  | check
  | update
  deriving Repr, DecidableEq

namespace CommandName

/-- The command that a word names. -/
def ofWord? : String → Option CommandName
  | "compile" => some .compile
  | "validate" => some .validate
  | "info" => some .info
  | "check" => some .check
  | "update" => some .update
  | _ => none

/-- The switches of all commands. -/
def switches : List OptionSpec :=
  [{ name := "verbose", letter := some 'v', value := none },
   { name := helpName, letter := some 'h', value := none }]

/-- The option of the files that a command reads. -/
def inputs : OptionSpec :=
  { name := "input", letter := some 'i', value := some .path, repeats := true, required := true }

/-- The options of a command. -/
def options : CommandName → List OptionSpec
  | .compile =>
    [{ inputs with value := some .text },
     { name := "output", letter := some 'o', value := some .path },
     { name := "exclude", letter := some 'e', repeats := true },
     { name := "max-rules-per-shard", value := some .count },
     { name := "max-shards", value := some .count },
     { name := "namespace" }]
  | .validate => [inputs]
  | .info => [{ inputs with repeats := false }]
  | .check =>
    [inputs,
     { name := "url", letter := some 'u', required := true },
     { name := "page-host", letter := some 'p' },
     { name := "type", letter := some 't' }]
  | .update =>
    [{ name := "config", letter := some 'c', value := some .path },
     { name := "force", value := none }]

/-- The invocation of a command with the options that were given. -/
def invocation (given : Given) : CommandName → Invocation
  | .compile =>
    let d : CompileRequest := { inputs := given.values "input" }
    .compile { d with
      output := (given.value? "output").getD d.output
      exclude := given.values "exclude"
      maxRulesPerShard :=
        ((given.value? "max-rules-per-shard").bind countOf?).getD d.maxRulesPerShard
      maxShards := ((given.value? "max-shards").bind countOf?).getD d.maxShards
      nameSpace := (given.value? "namespace").getD d.nameSpace }
  | .validate => .validate (given.values "input")
  | .info => .info ((given.value? "input").getD "")
  | .check =>
    let d : CheckRequest := { inputs := given.values "input", url := (given.value? "url").getD "" }
    .check { d with
      pageHost := (given.value? "page-host").getD d.pageHost
      typeName := (given.value? "type").getD d.typeName }
  | .update => .update (given.value? "config") (given.has "force")

end CommandName

namespace Invocation

/-- A command with the words behind it. -/
def ofCommand (c : CommandName) (words : List String) : Except UsageError Invocation := do
  let specs := c.options ++ CommandName.switches
  let r ← Reading.ofWords specs words
  let given ← r.complete specs
  .ok (if r.asksHelp then .help else c.invocation given)

/-- The word that asks for help, with the words behind it: at most one, which is
    the word of a command or this one. -/
def ofHelp : List String → Except UsageError Invocation
  | [] => .ok .help
  | word :: rest =>
    if (CommandName.ofWord? word).isNone && word != helpName then .error (.unknownCommand word)
    else match rest with
      | [] => .ok .help
      | next :: _ => .error (.unknownCommand next)

/-- The invocation that some words denote. Switches may stand in front of the
    command. -/
def parse (words : List String) : Except UsageError Invocation := do
  let (leading, rest) := words.span fun w => !Reading.isPlain w.toList
  let r ← Reading.ofWords CommandName.switches leading
  if r.asksHelp then .ok .help
  else match rest with
    | [] => .error .noCommand
    | word :: rest =>
      if r.closed then .error (.unexpectedWord word)
      else match CommandName.ofWord? word with
        | some c => ofCommand c rest
        | none => if word = helpName then ofHelp rest else .error (.unknownCommand word)

end Invocation

end ContentBlocking.CommandLine
