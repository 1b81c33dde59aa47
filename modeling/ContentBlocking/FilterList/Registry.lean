import ContentBlocking.FilterList.Basic
import ContentBlocking.Persist

/-!
# The registry of filter lists

The built-in lists come first, then those that the user has added, in the order
in which that happened. Every change is written to the file of the registry, if
it has one.

* `Registry.ofDisk` — the lists in a file, with all built-in ones.
* `Registry.add`, `Registry.remove`, `Registry.setEnabled`,
  `Registry.markUpdated` — the changes.
-/

namespace ContentBlocking

/-- The filter lists together with their file; a registry without a path has no
    file. -/
structure Registry where
  path : String := ""
  lists : List FilterList := FilterList.builtIn
  /-- How the URLs are read that the user gives. -/
  urls : UrlReader := Url.reader
  deriving Repr

namespace Registry

/-- The lists as an array. -/
def toJson (lists : List FilterList) : Json := .arr (lists.map FilterList.toJson)

/-- Writes the lists to their file; a file that cannot be written is let be. -/
def save (r : Registry) (d : Disk) : Disk :=
  if r.path.isEmpty then d else (d.writeJson r.path (toJson r.lists)).1

/-- A built-in list as the first stored list with its identifier left it. -/
def restored (stored : List FilterList) (l : FilterList) : FilterList :=
  match stored.find? (·.id == l.id) with
  | some saved => { l with isEnabled := saved.isEnabled, lastUpdated := saved.lastUpdated }
  | none => l

/-- The built-in lists as they were stored, and the other lists that were. -/
def ofStored (stored : List FilterList) : List FilterList :=
  FilterList.builtIn.map (restored stored) ++ stored.filter fun l => !l.isBuiltIn

/-- Reads the lists, and writes them back. A file that cannot be used counts as
    empty. -/
def ofDisk (d : Disk) (path : String) (urls : UrlReader) : Registry × Disk :=
  let stored := match d.readJson path (Json.list? FilterList.ofJson?) with
    | .ok (some stored) => stored
    | _ => []
  let r : Registry := ⟨path, ofStored stored, urls⟩
  (r, r.save d)

/-- The first list with an identifier. -/
def get? (r : Registry) (id : String) : Option FilterList := r.lists.find? (·.id == id)

/-- The lists that are enabled, in their order. -/
def enabled (r : Registry) : List FilterList := r.lists.filter (·.isEnabled)

/-- Some lists with a change to the first one that has the identifier. -/
def changeFirst (id : String) (change : FilterList → FilterList) :
    List FilterList → List FilterList
  | [] => []
  | l :: rest => if l.id = id then change l :: rest else l :: changeFirst id change rest

/-- Adds a list; gives it. Neither its identifier nor its URL may be taken. -/
def add (r : Registry) (d : Disk) (name url : String) :
    Registry × Disk × Except Failure FilterList :=
  match FilterList.normalUrl r.urls url with
  | .error e => (r, d, .error e)
  | .ok url =>
    if r.lists.any fun l => l.id == FilterList.customId url || l.url == url then
      (r, d, .error (.duplicateFilterList url))
    else
      let list := FilterList.custom name url
      let r := { r with lists := r.lists ++ [list] }
      (r, r.save d, .ok list)

/-- Removes a list that is not built in; gives it. -/
def remove (r : Registry) (d : Disk) (id : String) : Registry × Disk × Except Failure FilterList :=
  match r.get? id with
  | none => (r, d, .error (.unknownFilterList id))
  | some list =>
    if list.isBuiltIn then (r, d, .error (.builtInListRemoval id))
    else
      let r := { r with lists := r.lists.eraseP (·.id == id) }
      (r, r.save d, .ok list)

/-- Enables or disables a list; tells whether that was a change. -/
def setEnabled (r : Registry) (d : Disk) (id : String) (enabled : Bool) :
    Registry × Disk × Except Failure Bool :=
  match r.get? id with
  | none => (r, d, .error (.unknownFilterList id))
  | some list =>
    if list.isEnabled = enabled then (r, d, .ok false)
    else
      let r := { r with lists := changeFirst id ({ · with isEnabled := enabled }) r.lists }
      (r, r.save d, .ok true)

/-- Notes the time of the last download of a list, if there is such a list. -/
def markUpdated (r : Registry) (d : Disk) (id : String) (time : UInt64) : Registry × Disk :=
  match r.get? id with
  | none => (r, d)
  | some list =>
    if list.lastUpdated = some time then (r, d)
    else
      let r := { r with lists := changeFirst id ({ · with lastUpdated := some time }) r.lists }
      (r, r.save d)

end Registry

end ContentBlocking
