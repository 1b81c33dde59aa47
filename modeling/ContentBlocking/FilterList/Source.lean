import ContentBlocking.FilterList.Basic
import ContentBlocking.Persist

/-!
# List texts

The text of a list is downloaded and kept in a cache, together with the time of
the download. A copy that is fresh is served as it is; an older one only when
the download fails.

* `ListSource.begin` — serves a list from the cache or asks for a download.
* `ListSource.finish` — serves a list after the download.
* `ListSource.load` — both, with a transport at hand.
-/

namespace ContentBlocking

/-- Why a download fails. -/
inductive FetchError where
  | status (code : Nat)
  | other (reason : String)
  deriving Repr, DecidableEq

/-- The message of the failure. -/
def FetchError.message : FetchError → String
  | .status code => s!"HTTP status {code}"
  | .other reason => reason

/-- What a download gives. -/
abbrev FetchReply := Except FetchError String

/-- The text of a list. -/
structure FetchedList where
  text : String
  /-- The time of the download, in seconds. -/
  timestamp : UInt64
  fromCache : Bool
  deriving Repr, DecidableEq

/-- Where list texts come from. -/
structure ListSource where
  cacheDir : String
  /-- How many seconds a copy stays fresh. -/
  ttl : Nat
  deriving Repr, DecidableEq

namespace ListSource

/-- The file of the text of a list. -/
def textPath (s : ListSource) (id : String) : String := Path.join s.cacheDir (id ++ ".txt")

/-- The file of the time at which a list was downloaded. -/
def timePath (s : ListSource) (id : String) : String := Path.join s.cacheDir (id ++ ".json")

/-- The time of a download as a record. -/
def timeJson (time : UInt64) : Json := .obj [("timestamp", .nat time.toNat)]

/-- The time of a download that a record holds. -/
def timeOfJson? (j : Json) : Option UInt64 := do
  let fields ← j.fields? ["timestamp"]
  fields.get? "timestamp" Json.word?

/-- The copy of a list in the cache. -/
def cached (s : ListSource) (d : Disk) (id : String) : Option FetchedList :=
  match d.read (s.timePath id), d.read (s.textPath id) with
  | .ok time, .ok text =>
    ((Json.parse? time).bind timeOfJson?).map fun time => ⟨text, time, true⟩
  | _, _ => none

/-- Keeps the text of a list, as far as its files can be written. -/
def store (s : ListSource) (d : Disk) (id text : String) (time : UInt64) : Disk :=
  match d.makeDirs s.cacheDir with
  | (d, false) => d
  | (d, true) =>
    match d.write (s.textPath id) text with
    | (d, false) => d
    | (d, true) => (d.write (s.timePath id) (timeJson time).compact).1

/-- Removes the copy of a list. -/
def evict (s : ListSource) (d : Disk) (id : String) : Disk :=
  (d.remove (s.textPath id)).remove (s.timePath id)

/-- A copy from that time is too old. -/
def isStale (s : ListSource) (now time : UInt64) : Bool := s.ttl < now.toNat - time.toNat

/-- A list that is being loaded: it is served, or it waits for a download and
    has a copy to fall back on. -/
inductive Loading where
  | served (list : FetchedList)
  | fetching (copy : Option FetchedList)
  deriving Repr, DecidableEq

/-- Serves a list from the cache if its copy is fresh and need not be
    refreshed, and asks for a download otherwise. -/
def begin (s : ListSource) (d : Disk) (now : UInt64) (refresh : Bool) (id : String) : Loading :=
  match s.cached d id with
  | some copy =>
    if !refresh && !s.isStale now copy.timestamp then .served copy else .fetching (some copy)
  | none => .fetching none

/-- Serves a list after the download: what was downloaded, or else the copy. -/
def finish (s : ListSource) (d : Disk) (now : UInt64) (id : String) (copy : Option FetchedList) :
    FetchReply → Disk × Except Failure FetchedList
  | .ok text => (s.store d id text now, .ok ⟨text, now, false⟩)
  | .error e =>
    match copy with
    | some copy => (d, .ok copy)
    | none => (d, .error (.sourceUnavailable id e.message))

/-- Loads a list when downloads give these replies. -/
def load (s : ListSource) (d : Disk) (now : UInt64) (refresh : Bool) (id url : String)
    (fetch : String → FetchReply) : Disk × Except Failure FetchedList :=
  match s.begin d now refresh id with
  | .served list => (d, .ok list)
  | .fetching copy => s.finish d now id copy (fetch url)

end ListSource

end ContentBlocking
