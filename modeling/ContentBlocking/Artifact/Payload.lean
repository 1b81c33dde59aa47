import ContentBlocking.Json.Reader
import ContentBlocking.Json.Writer
import ContentBlocking.Rule

/-!
# Artifact payloads

An ordered collection of rules is handed to the engine as a JSON array with an
object for each rule. Members that say nothing are left out, and the order of
members is fixed, so equal collections have equal payloads.

* `Payload.encode` — the payload of a collection of rules.
* `Payload.decode` — the rules of a payload.
-/

namespace ContentBlocking

/-- Why a payload is refused. -/
inductive PayloadError where
  /-- The text does not denote an array of rules. -/
  | malformed
  | unknownAction (kind : String)
  | unknownResourceType (name : String)
  | missingSelector
  /-- The rule at `index` has no pattern. -/
  | emptyPattern (index : Nat)
  deriving Repr, DecidableEq

/-- The message of the failure. -/
def PayloadError.message : PayloadError → String
  | .malformed => "Malformed artifact JSON"
  | .unknownAction kind => s!"Unknown action type: {kind}"
  | .unknownResourceType name => s!"Unknown resource type: {name}"
  | .missingSelector => "css-display-none action without selector"
  | .emptyPattern index => s!"Empty url-filter in rule {index}"

namespace Payload

/-! ### Writing -/

/-- The name of an action. -/
def actionName : Action → String
  | .block => "block"
  | .hide _ => "css-display-none"
  | .ignorePrevious => "ignore-previous-rules"
  | .makeHttps => "make-https"

/-- A list of texts as an array. -/
def ofStrings (ss : List String) : Json := .arr (ss.map .str)

/-- The trigger as an object. -/
def ofTrigger (t : Trigger) : Json :=
  .obj <|
    [("url-filter", .str t.urlPattern)] ++
    (if t.resourceTypes.isEmpty then []
      else [("resource-type", ofStrings (t.resourceTypes.toList.map (·.name)))]) ++
    (t.ifDomains.map fun ds => ("if-domain", ofStrings ds)).toList ++
    (t.unlessDomains.map fun ds => ("unless-domain", ofStrings ds)).toList

/-- The action as an object. -/
def ofAction (a : Action) : Json :=
  .obj <| ("type", .str (actionName a)) ::
    match a with
    | .hide selector => [("selector", .str selector)]
    | _ => []

/-- The rule as an object. -/
def ofRule (r : Rule) : Json :=
  .obj [("trigger", ofTrigger r.trigger), ("action", ofAction r.action)]

/-- The payload of a collection of rules. -/
def encode (rules : List Rule) : String := (Json.arr (rules.map ofRule)).compact

/-! ### Reading -/

/-- A rule as it stands in a payload, with names that need not be known. -/
structure RawRule where
  urlPattern : String
  resourceTypes : Option (List String)
  ifDomains : Option (List String)
  unlessDomains : Option (List String)
  kind : String
  selector : Option String
  deriving Repr, DecidableEq

/-- A list of texts, or `null`. -/
def strings? (j : Json) : Option (Option (List String)) := j.orNull? (Json.list? Json.str?)

/-- Reads a rule as it stands. -/
def rawRule? (j : Json) : Option RawRule := do
  let rule ← j.fields? ["trigger", "action"]
  let trigger ← rule.get? "trigger"
    (Json.fields? ["url-filter", "resource-type", "if-domain", "unless-domain"])
  let action ← rule.get? "action" (Json.fields? ["type", "selector"])
  some {
    urlPattern := ← trigger.get? "url-filter" Json.str?
    resourceTypes := ← trigger.getD? "resource-type" strings? none
    ifDomains := ← trigger.getD? "if-domain" strings? none
    unlessDomains := ← trigger.getD? "unless-domain" strings? none
    kind := ← action.get? "type" Json.str?
    selector := ← action.getD? "selector" (Json.orNull? Json.str?) none }

/-- The set of the types with the given names. -/
def resourceTypes (names : List String) : Except PayloadError ResourceTypes :=
  names.foldlM (fun types name =>
    match ResourceType.ofName? name with
    | some t => .ok (types.insert t)
    | none => .error (.unknownResourceType name)) ∅

/-- The action with the given name. -/
def action (kind : String) (selector : Option String) : Except PayloadError Action :=
  match kind with
  | "block" => .ok .block
  | "css-display-none" =>
    match selector with
    | some s => .ok (.hide s)
    | none => .error .missingSelector
  | "ignore-previous-rules" => .ok .ignorePrevious
  | "make-https" => .ok .makeHttps
  | kind => .error (.unknownAction kind)

/-- The rule that is meant by what stands at `index`. -/
def rule (index : Nat) (raw : RawRule) : Except PayloadError Rule :=
  if raw.urlPattern.isEmpty then .error (.emptyPattern index)
  else do
    let types ← resourceTypes (raw.resourceTypes.getD [])
    let action ← action raw.kind raw.selector
    .ok ⟨⟨raw.urlPattern, types, raw.ifDomains, raw.unlessDomains⟩, action⟩

/-- The rules that are meant by what stands at `index` and after. -/
def rulesFrom (index : Nat) : List RawRule → Except PayloadError (List Rule)
  | [] => .ok []
  | raw :: rest => do
    let r ← rule index raw
    let rs ← rulesFrom (index + 1) rest
    .ok (r :: rs)

/-- The rules of a payload. -/
def decode (text : String) : Except PayloadError (List Rule) :=
  match (Json.parse? text).bind (Json.list? rawRule?) with
  | some raw => rulesFrom 0 raw
  | none => .error .malformed

end Payload

end ContentBlocking
