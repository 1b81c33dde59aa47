import ContentBlocking.Artifact.Payload
import ContentBlocking.CommandLine.Report
import ContentBlocking.Matcher

/-!
# Files of artifacts

A file of artifacts holds a payload. It is good if the payload can be read and
all its patterns are well-formed.

* `verify` — the rules of a good payload.
* `validateReport` — tells whether files are good.
* `infoReport` — counts the rules in a file.
-/

namespace ContentBlocking.CommandLine

/-- The rules of a payload that can be read and whose patterns are
    well-formed. -/
def verify (payload : String) : Except Rejection (List Rule) :=
  match Payload.decode payload with
  | .error e => .error (.payload e)
  | .ok rules =>
    match Matcher.ofRules rules with
    | .error index => .error (.invalidPattern index)
    | .ok _ => .ok rules

/-! ### Telling whether files are good -/

/-- What is said of a good artifact at a path. -/
def validLine (path payload : String) (rules : List Rule) : Line :=
  .text s!"Artifact '{path}' is valid ({rules.length} rules, {payload.utf8ByteSize} bytes)"

/-- Whether the artifact at a path is good. -/
def validate (d : Disk) (path : String) : Except CommandError Line := do
  let payload ← readText d path
  let rules ← (verify payload).mapError (.invalidArtifact (some path))
  .ok (validLine path payload rules)

/-- Tells whether artifacts are good, up to the first that is not. -/
def validateReport (d : Disk) : List String → Report
  | [] => { disk := d }
  | path :: rest =>
    match validate d path with
    | .error e => { disk := d, error := some e }
    | .ok line =>
      let report := validateReport d rest
      { report with lines := line :: report.lines }

/-! ### Counting rules -/

/-- The quotient of two numbers rounded to the nearest one; of two that are
    equally near, the even one. -/
def divRound (n m : Nat) : Nat :=
  let q := n / m
  let r := 2 * (n % m)
  if r < m then q
  else if m < r then q + 1
  else q + q % 2

/-- A number of bytes in units of 1024, with one decimal place. -/
def kilobytes (bytes : Nat) : String :=
  let tenths := divRound (10 * bytes) 1024
  s!"{tenths / 10}.{tenths % 10}"

/-- The rule says which pages it is for. -/
def isDomainScoped (r : Rule) : Bool := r.trigger.ifDomains.isSome || r.trigger.unlessDomains.isSome

/-- The rule hides elements. -/
def hides (r : Rule) : Bool :=
  match r.action with
  | .hide _ => true
  | _ => false

/-- The size of an artifact, and how many rules of each kind it has. -/
def infoLines (path payload : String) (rules : List Rule) : List String :=
  let count (p : Rule → Bool) : Nat := rules.countP p
  let size := payload.utf8ByteSize
  [s!"Artifact: {path}",
   s!"  Size:          {size} bytes ({kilobytes size} KB)",
   s!"  Rules:         {rules.length}",
   "",
   "Actions:",
   s!"  block:                 {count (·.action == .block)}",
   s!"  css-display-none:      {count hides}",
   s!"  ignore-previous-rules: {count Rule.isException}",
   s!"  make-https:            {count (·.action == .makeHttps)}",
   "",
   "Triggers:",
   s!"  Resource-typed: {count (!·.trigger.resourceTypes.isEmpty)}",
   s!"  Domain-scoped:  {count isDomainScoped}"]

/-- Counts the rules of an artifact. -/
def infoReport (d : Disk) (path : String) : Report :=
  .ofLines d do
    let payload ← readText d path
    let rules ← (verify payload).mapError (.invalidArtifact none)
    .ok (infoLines path payload rules)

end ContentBlocking.CommandLine
