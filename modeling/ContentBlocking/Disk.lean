import ContentBlocking.Path
import ContentBlocking.Table

/-!
# Disks

The files that the library reads and writes, as a value: directories and text
files at their places. What stands in the way of an operation makes it fail as
it would on a real disk. A disk may also be out of order: the coming writes of
whole files then break off as a script says.

* `Disk.read` — the text of a file.
* `Disk.makeDirs`, `Disk.write`, `Disk.rename`, `Disk.remove` — the changes.
* `Disk.changedSince`, `Disk.removedSince` — two disks compared.
-/

namespace ContentBlocking

/-- What stands at a place. -/
inductive Disk.Entry where
  | file (text : String)
  | directory
  deriving Repr, DecidableEq

/-- A place, as the names that lead there from the working directory, or from
    the root if the first one is a slash. Two dots are names only in front, for
    the directories that the working directory stands in. -/
abbrev Disk.Place := List String

/-- Where the writing of a whole file breaks off. -/
inductive Disk.Outage where
  /-- No directory can be made. -/
  | atDirectory
  /-- The draft cannot be opened. -/
  | atDraft
  /-- The draft has only so many characters. -/
  | afterCharacters (count : Nat)
  /-- The draft cannot be moved to its place. -/
  | atRename
  deriving Repr, DecidableEq

/-- Files and directories, and the script of the outages to come: one entry for
    each of the next writes of a whole file. -/
structure Disk where
  entries : Table Disk.Place Disk.Entry := []
  outages : List (Option Disk.Outage) := []
  deriving Repr, DecidableEq

/-- Why an operation fails. -/
inductive Disk.Trouble where
  /-- There is nothing at the place. -/
  | missing
  /-- Something else stands in the way. -/
  | refused
  deriving Repr, DecidableEq

namespace Disk

/-- The working directory, or one that it stands in. -/
def isAbove (place : Place) : Bool := place.all (· == "..")

/-- What stands at a place; the root always exists, and so do the working
    directory and those that it stands in. -/
def look (d : Disk) (place : Place) : Option Entry :=
  if isAbove place ∨ place = ["/"] then some .directory else d.entries.get? place

/-- The place that a name leads to from a directory. -/
def step (place : Place) (name : String) : Place :=
  if name = "." then place
  else if name = ".." ∧ place = ["/"] then place
  else if name = ".." ∧ !isAbove place then place.dropLast
  else place ++ [name]

/-- No file can have the name. -/
def isUnusable (name : String) : Bool := 255 < name.utf8ByteSize || name.toList.contains '\x00'

/-- The place that some names lead to. Every name is looked up in a directory;
    at the last place there need not be anything. -/
def resolve (d : Disk) (place : Place) : List String → Except Trouble Place
  | [] => .ok place
  | name :: rest =>
    match d.look place with
    | none => .error .missing
    | some (.file _) => .error .refused
    | some .directory =>
      if isUnusable name then .error .refused else d.resolve (step place name) rest

/-- The place of a path. An empty path leads nowhere. -/
def find (d : Disk) (path : String) : Except Trouble Place :=
  if path.isEmpty then .error .missing else d.resolve [] (Path.names path)

/-- The text of the file at a path. -/
def read (d : Disk) (path : String) : Except Trouble String := do
  let place ← d.find path
  match d.look place with
  | some (.file text) => .ok text
  | some .directory => .error .refused
  | none => .error .missing

/-- The disk with an entry at a place. -/
def put (d : Disk) (place : Place) (entry : Entry) : Disk :=
  { d with entries := d.entries.set place entry }

/-- Makes the directories that some names lead through, as far as nothing is in
    the way; tells whether all of them exist then. -/
def makeDirsAt (d : Disk) (place : Place) : List String → Disk × Bool
  | [] => (d, true)
  | name :: rest =>
    let next := step place name
    match d.look next with
    | some .directory => d.makeDirsAt next rest
    | some (.file _) => (d, false)
    | none => if isUnusable name then (d, false) else (d.put next .directory).makeDirsAt next rest

/-- Makes a directory and those that it stands in. -/
def makeDirs (d : Disk) (path : String) : Disk × Bool := d.makeDirsAt [] (Path.names path)

/-- The place of a path at which a file may be written. -/
def placeForFile (d : Disk) (path : String) : Option Place :=
  match d.find path with
  | .ok place => if d.look place = some .directory then none else some place
  | .error _ => none

/-- Writes a file, in the place of an earlier one; tells whether that could be
    done. -/
def write (d : Disk) (path text : String) : Disk × Bool :=
  match d.placeForFile path with
  | some place => (d.put place (.file text), true)
  | none => (d, false)

/-- Moves a file to a path at which there is no directory; tells whether that
    could be done. -/
def rename (d : Disk) (source target : String) : Disk × Bool :=
  match d.read source, d.placeForFile source, d.placeForFile target with
  | .ok text, some source, some target =>
    let moved : Disk := { d with entries := d.entries.erase source }
    (moved.put target (.file text), true)
  | _, _, _ => (d, false)

/-- Removes a file, if there is one. -/
def remove (d : Disk) (path : String) : Disk :=
  match d.placeForFile path with
  | some place => { d with entries := d.entries.erase place }
  | none => d

/-- The text files, by their places. -/
def files (d : Disk) : Table Place String :=
  d.entries.filterMap fun (place, entry) =>
    match entry with
    | .file text => some (place, text)
    | .directory => none

/-- The entries that another disk does not have in this form. -/
def changedSince (d before : Disk) : Table Place Entry :=
  d.entries.filter fun (place, entry) => before.look place ≠ some entry

/-- The places that have an entry on another disk alone. -/
def removedSince (d before : Disk) : List Place :=
  before.entries.keys.filter fun place => d.look place = none

/-! ### Places as paths -/

/-- The places that some names lead to one after the other. -/
def placesFrom (place : Place) : List String → List Place
  | [] => []
  | name :: rest => step place name :: placesFrom (step place name) rest

/-- The places that a path leads through, the last of which is its own. -/
def placesOn (path : String) : List Place := placesFrom [] (Path.names path)

/-- The path of a place. -/
def pathOf : Place → String
  | "/" :: names => "/" ++ "/".intercalate names
  | names => "/".intercalate names

end Disk

end ContentBlocking
