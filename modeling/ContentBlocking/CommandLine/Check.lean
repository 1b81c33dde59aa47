import ContentBlocking.CommandLine.Invocation
import ContentBlocking.CommandLine.Report
import ContentBlocking.Engine

/-!
# Requests put to files

Artifacts are compiled from their files by an engine and attached to one
surface, and a request is put to that surface.

* `CheckRequest.verdict` — the verdict of the artifacts together.
* `CheckRequest.report` — what is said of it.
-/

namespace ContentBlocking.CommandLine

namespace CheckRequest

/-- The surface on which the request is made. -/
def surface : Surface := 0

/-- Attaches an artifact under the name of its file. -/
def attach (d : Disk) (e : Engine) (path : String) : Except CommandError Engine := do
  let payload ← readText d path
  let (e, result) := e.compile ((Path.stem? path).getD "") payload
  let artifact ← result.mapError (.engineRefuses path)
  .ok (e.attach artifact.identifier surface)

/-- The verdict of artifacts, attached in the order of their files. -/
def verdict (q : CheckRequest) (d : Disk) : Except CommandError Verdict :=
  match ResourceType.ofName? q.typeName with
  | none => .error (.unknownResourceType q.typeName)
  | some t => do
    let e ← q.inputs.foldlM (attach d) {}
    .ok (e.evaluate surface ⟨q.url, q.pageHost, .ofList [t]⟩)

/-- The verdict on a request for a URL. -/
def verdictLines (url : String) (v : Verdict) : List String :=
  (match v.decision with
    | .block => s!"BLOCK {url} (rule #{v.rule.getD 0})"
    | .allow => s!"ALLOW {url}") ::
  (if v.https then ["  upgrade to https"] else []) ++
  v.hidden.map fun selector => s!"  hide: {selector}"

/-- Puts the request to artifacts. -/
def report (q : CheckRequest) (d : Disk) : Report :=
  .ofLines d ((q.verdict d).map (verdictLines q.url))

end CheckRequest

end ContentBlocking.CommandLine
