import ContentBlocking.Disk
import ContentBlocking.Failure
import ContentBlocking.Json.Reader
import ContentBlocking.Json.Writer

/-!
# Persisted values

A value is kept in a file as indented JSON. It is written as a draft beside the
file and then moved to its place, so that the file holds the old value or the
new one and never a part of either.

* `Disk.writeWhole` — writes a file by way of a draft.
* `Disk.writeJson`, `Disk.readJson` — a value and its file.
-/

namespace ContentBlocking.Disk

/-- The path of the draft of a file. -/
def draftPath (path : String) : String := Path.withExtension path "json.tmp"

/-- The outage that the next write of a whole file meets, and the disk with the
    rest of the script. -/
def nextOutage (d : Disk) : Option Outage × Disk :=
  match d.outages with
  | [] => (none, d)
  | outage :: rest => (outage, { d with outages := rest })

/-- Makes the directory of a file. -/
def prepare (d : Disk) (outage : Option Outage) (path : String) : Disk × Except Failure Unit :=
  if outage = some .atDirectory then (d, .error (.persistence (Path.parent path)))
  else match d.makeDirs (Path.parent path) with
    | (d, true) => (d, .ok ())
    | (d, false) => (d, .error (.persistence (Path.parent path)))

/-- Writes the draft of a file. -/
def writeDraft (d : Disk) (outage : Option Outage) (path text : String) :
    Disk × Except Failure Unit :=
  let draft := draftPath path
  match outage with
  | some .atDraft => (d, .error (.persistence draft))
  | some (.afterCharacters count) =>
    let (d, _) := d.write draft (String.ofList (text.toList.take count))
    (d, .error (.persistence draft))
  | _ =>
    match d.write draft text with
    | (d, true) => (d, .ok ())
    | (d, false) => (d, .error (.persistence draft))

/-- Moves the draft of a file to its place. -/
def commit (d : Disk) (outage : Option Outage) (path : String) : Disk × Except Failure Unit :=
  if outage = some .atRename then (d, .error (.persistence path))
  else match d.rename (draftPath path) path with
    | (d, true) => (d, .ok ())
    | (d, false) => (d, .error (.persistence path))

/-- Writes a file by way of a draft. -/
def writeWhole (d : Disk) (path text : String) : Disk × Except Failure Unit :=
  let (outage, d) := d.nextOutage
  match d.prepare outage path with
  | (d, .error e) => (d, .error e)
  | (d, .ok ()) =>
    match d.writeDraft outage path text with
    | (d, .error e) => (d, .error e)
    | (d, .ok ()) => d.commit outage path

/-- Writes a value to its file. -/
def writeJson (d : Disk) (path : String) (value : Json) : Disk × Except Failure Unit :=
  d.writeWhole path value.indented

/-- The value in a file; none if there is no file. -/
def readJson {α : Type} (d : Disk) (path : String) (value? : Json → Option α) :
    Except Failure (Option α) :=
  match d.read path with
  | .error .missing => .ok none
  | .error .refused => .error (.persistence path)
  | .ok text =>
    match (Json.parse? text).bind value? with
    | some value => .ok (some value)
    | none => .error (.encoding path)

end ContentBlocking.Disk
