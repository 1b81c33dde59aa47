import ContentBlocking.CommandLine.Run
import Std.Time.DateTime.Timestamp

/-!
# The program

The outer layer of the command line: it reads the files that an invocation
works with, prints its report and carries its changes over to the files. There
is no network, so every download fails.
-/

namespace ContentBlocking.CommandLine

/-- What stands at a path. What cannot be read as text counts as a directory. -/
def entryAt (path : String) : IO (Option Disk.Entry) := do
  try
    let text ← IO.FS.readFile path
    return some (.file text)
  catch
    | .noFileOrDirectory .. => return none
    | _ => return some .directory

/-- The disk with what stands at the places that some paths lead through. -/
def withPaths (d : Disk) (paths : List String) : IO Disk :=
  (paths.flatMap Disk.placesOn).foldlM (fun d place => do
    if (d.look place).isSome then return d
    match ← entryAt (Disk.pathOf place) with
    | some entry => return d.put place entry
    | none => return d) d

/-- The files that an invocation works with. Some are known only from others:
    the lists from their registry, and that from the configuration. -/
def filesOf (i : Invocation) : IO Disk := do
  let d ← withPaths {} (i.paths {})
  let d ← withPaths d (i.paths d)
  withPaths d (i.paths d)

/-- Carries the changes of a disk over to the files. -/
def saveChanges (before after : Disk) : IO Unit := do
  for place in after.removedSince before do
    IO.FS.removeFile (Disk.pathOf place)
  for (place, entry) in after.changedSince before do
    match entry with
    | .directory => IO.FS.createDirAll (Disk.pathOf place)
    | .file text => IO.FS.writeFile (Disk.pathOf place) text

/-- Does what an invocation asks for; gives the status of the program. -/
def Invocation.run (i : Invocation) : IO UInt32 := do
  let start ← IO.monoNanosNow
  let now ← Std.Time.Timestamp.now
  let disk ← filesOf i
  let seconds := now.toSecondsSinceUnixEpoch.val.toNat.toUInt64
  let report := i.report seconds (fun _ => .error (.other "no network")) disk
  saveChanges disk report.disk
  let finish ← IO.monoNanosNow
  for line in report.lines do
    IO.println (line.render ((finish - start) / 100000))
  for complaint in report.complaint do
    IO.eprintln complaint
  return report.status

end ContentBlocking.CommandLine

open ContentBlocking.CommandLine in
/-- Reads the command line and does what it asks for. -/
def main (args : List String) : IO UInt32 := do
  match Invocation.parse args with
  | .ok i => i.run
  | .error e =>
    IO.eprintln s!"error: {e.message}"
    return 2
