import ContentBlocking.Host
import ContentBlocking.Persist

/-!
# Statistics

Counts of requests and of what was blocked, in total, by domain and by page.
Pages are kept up to a limit; when it is reached, the page that has gone the
longest without notice makes room. Every change is written to the file, and the
counts of the session begin anew whenever the file is opened.

Saved bytes are added up to the greatest word. All other counts go up by one,
and what that does to the greatest word is a matter of the build.

* `Counting` — how a build counts up.
* `PageTable` — the records of the pages and the order of their last notices.
* `Statistics` — a snapshot and its JSON form.
* `StatisticsTracker` — the counts together with their file.
-/

namespace ContentBlocking

/-! ### Counting up -/

/-- How a build counts up by one: the word that comes next, and whether the
    build goes on. -/
structure Counting (m : Type → Type) where
  next : UInt64 → m UInt64

/-- Without overflow checks, zero comes after the greatest word. -/
def Counting.wrapping : Counting Id where
  next n := n + 1

/-- With overflow checks, nothing comes after the greatest word. -/
def Counting.checked : Counting Option where
  next n := if n.toNat + 1 < UInt64.size then some (n + 1) else none

@[simp] theorem Counting.run_next_wrapping (n : UInt64) : (wrapping.next n).run = n + 1 := rfl

/-- The sum, or the greatest word if that is less. -/
def addUpTo (a b : UInt64) : UInt64 :=
  if a.toNat + b.toNat < UInt64.size then a + b else (UInt64.size - 1).toUInt64

/-! ### Pages -/

/-- What was blocked on one page. -/
structure PageStats where
  url : String
  blocked : UInt64 := 0
  bytesSaved : UInt64 := 0
  deriving Repr, DecidableEq

namespace PageStats

/-- The page as a record. -/
def toJson (p : PageStats) : Json :=
  .obj [("url", .str p.url), ("blocked", .nat p.blocked.toNat),
    ("bytesSaved", .nat p.bytesSaved.toNat)]

/-- The page that a record holds. -/
def ofJson? (j : Json) : Option PageStats := do
  let fields ← j.fields? ["url", "blocked", "bytesSaved"]
  some {
    url := ← fields.get? "url" Json.str?
    blocked := ← fields.get? "blocked" Json.word?
    bytesSaved := ← fields.get? "bytesSaved" Json.word? }

/-- The page after one more blocked request. -/
def count {m : Type → Type} [Monad m] (c : Counting m) (p : PageStats) (size : UInt64) :
    m PageStats := do
  return { p with blocked := ← c.next p.blocked, bytesSaved := addUpTo p.bytesSaved size }

/-- The page after it was loaded anew. -/
def restart (p : PageStats) : PageStats := { p with blocked := 0, bytesSaved := 0 }

end PageStats

/-- A limited number of pages. Their records are found by URL, and the URLs
    stand in a row, the one with the oldest notice first. -/
structure PageTable where
  capacity : Nat
  entries : Table String PageStats := []
  order : List String := []
  deriving Repr, DecidableEq

namespace PageTable

/-- No pages, with room for at least one. -/
def ofCapacity (capacity : Nat) : PageTable := { capacity := max 1 capacity }

/-- Room for so many pages can be asked for: with one place in eight left free, no more
    than `2 ^ 56` places. -/
def isReservable (capacity : Nat) : Bool := capacity ≤ 7 <<< 53

/-- The record of a page. -/
def get? (t : PageTable) (url : String) : Option PageStats := t.entries.get? url

/-- The table without the page that comes first. -/
def evict (t : PageTable) : PageTable :=
  match t.order with
  | [] => t
  | oldest :: order => { t with entries := t.entries.erase oldest, order := order }

/-- Makes room for a page at the end of the row: it leaves its own place, and if
    it is new and no place is free the first page makes room. -/
def makeRoom (t : PageTable) (url : String) : PageTable :=
  if t.entries.has url then { t with order := t.order.filter (· ≠ url) }
  else if t.capacity ≤ t.entries.length then t.evict
  else t

/-- The record of a page, which is new if need be. -/
def record (t : PageTable) (url : String) : PageStats := (t.get? url).getD { url := url }

/-- The table with another record of a page. -/
def put (t : PageTable) (url : String) (p : PageStats) : PageTable :=
  { t with entries := t.entries.set url p }

/-- The table after a page was noticed. -/
def touch (t : PageTable) (url : String) : PageTable :=
  let t := t.makeRoom url
  { t with order := t.order ++ [url] }.put url (t.record url)

/-- Notices a page and changes its record. -/
def notice (t : PageTable) (url : String) (change : PageStats → PageStats) : PageTable :=
  let t := t.touch url
  t.put url (change (t.record url))

/-- The table after stored pages are noticed one after the other. -/
def ofPages (capacity : Nat) (pages : List PageStats) : PageTable :=
  pages.foldl (fun t page => t.notice page.url fun _ => page) (ofCapacity capacity)

/-- The records of the pages, the one with the oldest notice first. -/
def pages (t : PageTable) : List PageStats := t.order.filterMap t.get?

end PageTable

/-! ### Snapshots -/

/-- All counts at one moment. -/
structure Statistics where
  totalBlocked : UInt64 := 0
  totalRequests : UInt64 := 0
  bandwidthSavedBytes : UInt64 := 0
  sessionBlocked : UInt64 := 0
  domains : Table String UInt64 := []
  /-- The page with the oldest notice first. -/
  pages : List PageStats := []
  deriving Repr, DecidableEq

namespace Statistics

/-- The counts as a record. -/
def toJson (s : Statistics) : Json :=
  .obj [("totalBlocked", .nat s.totalBlocked.toNat),
    ("totalRequests", .nat s.totalRequests.toNat),
    ("bandwidthSavedBytes", .nat s.bandwidthSavedBytes.toNat),
    ("sessionBlocked", .nat s.sessionBlocked.toNat),
    ("domains", .obj (s.domains.map fun (domain, count) => (domain, .nat count.toNat))),
    ("pages", .arr (s.pages.map PageStats.toJson))]

/-- The counts by domain that an object holds; of several with one name the
    last counts. -/
def domainsOfJson? (j : Json) : Option (Table String UInt64) :=
  (j.map? Json.word?).map fun counts =>
    counts.foldl (fun t (domain, count) => t.set domain count) []

/-- The counts that a record holds; every member has a default. -/
def ofJson? (j : Json) : Option Statistics := do
  let fields ← j.fields? ["totalBlocked", "totalRequests", "bandwidthSavedBytes",
    "sessionBlocked", "domains", "pages"]
  some {
    totalBlocked := ← fields.getD? "totalBlocked" Json.word? 0
    totalRequests := ← fields.getD? "totalRequests" Json.word? 0
    bandwidthSavedBytes := ← fields.getD? "bandwidthSavedBytes" Json.word? 0
    sessionBlocked := ← fields.getD? "sessionBlocked" Json.word? 0
    domains := ← fields.getD? "domains" domainsOfJson? []
    pages := ← fields.getD? "pages" (Json.list? PageStats.ofJson?) [] }

/-- A domain stands before another one in the order of their counts. -/
def comesBefore (a b : String × UInt64) : Bool := b.2 < a.2 || (a.2 == b.2 && a.1 ≤ b.1)

end Statistics

/-! ### Counting -/

/-- The counts together with their file. -/
structure StatisticsTracker where
  path : String
  totalBlocked : UInt64
  totalRequests : UInt64
  bandwidthSavedBytes : UInt64
  sessionBlocked : UInt64
  domains : Table String UInt64
  pages : PageTable
  /-- What a blocked request is taken to save when its size is not known. -/
  defaultBytes : UInt64
  deriving Repr, DecidableEq

namespace StatisticsTracker

/-- The counts that were stored, with a new session. A file that cannot be used
    counts as empty. -/
def ofDisk (d : Disk) (path : String) (maxPages : Nat) (defaultBytes : UInt64) :
    StatisticsTracker :=
  let stored := match d.readJson path Statistics.ofJson? with
    | .ok (some stored) => stored
    | _ => {}
  { path := path
    totalBlocked := stored.totalBlocked
    totalRequests := stored.totalRequests
    bandwidthSavedBytes := stored.bandwidthSavedBytes
    sessionBlocked := 0
    domains := stored.domains
    pages := PageTable.ofPages maxPages stored.pages
    defaultBytes := defaultBytes }

/-- The counts that were stored, with a new session, if room for so many pages can be
    asked for. -/
def load? (d : Disk) (path : String) (maxPages : Nat) (defaultBytes : UInt64) :
    Option StatisticsTracker :=
  if PageTable.isReservable maxPages then some (ofDisk d path maxPages defaultBytes) else none

/-- All counts at this moment. -/
def snapshot (t : StatisticsTracker) : Statistics where
  totalBlocked := t.totalBlocked
  totalRequests := t.totalRequests
  bandwidthSavedBytes := t.bandwidthSavedBytes
  sessionBlocked := t.sessionBlocked
  domains := t.domains
  pages := t.pages.pages

/-- Writes the counts to their file; a file that cannot be written is let
    be. -/
def save (t : StatisticsTracker) (d : Disk) : Disk := (d.writeJson t.path t.snapshot.toJson).1

section

variable {m : Type → Type} [Monad m]

/-- The counts after one more request. -/
def countRequest (c : Counting m) (t : StatisticsTracker) : m StatisticsTracker := do
  return { t with totalRequests := ← c.next t.totalRequests }

/-- One more blocked request in the count of the domain of its URL. -/
def countDomain (c : Counting m) (domains : Table String UInt64) (url : String) :
    m (Table String UInt64) :=
  match Host.domainOfUrl? url with
  | some domain => return domains.set domain (← c.next ((domains.get? domain).getD 0))
  | none => return domains

/-- One more blocked request in the count of its page, if that is known. -/
def countPage (c : Counting m) (pages : PageTable) (page : Option String) (size : UInt64) :
    m PageTable :=
  match page with
  | some page => do
    let pages := pages.touch page
    return pages.put page (← (pages.record page).count c size)
  | none => return pages

/-- The counts after one more blocked request, perhaps on a known page and of a
    known size. -/
def countBlocked (c : Counting m) (t : StatisticsTracker) (url : String) (page : Option String)
    (size : Option UInt64) : m StatisticsTracker := do
  let size := size.getD t.defaultBytes
  return { t with
    totalBlocked := ← c.next t.totalBlocked
    sessionBlocked := ← c.next t.sessionBlocked
    bandwidthSavedBytes := addUpTo t.bandwidthSavedBytes size
    domains := ← countDomain c t.domains url
    pages := ← countPage c t.pages page size }

/-- Counts a request. -/
def recordRequest (c : Counting m) (t : StatisticsTracker) (d : Disk) :
    m (StatisticsTracker × Disk) := do
  let t ← t.countRequest c
  return (t, t.save d)

/-- Counts a blocked request. -/
def recordBlocked (c : Counting m) (t : StatisticsTracker) (d : Disk) (url : String)
    (page : Option String) (size : Option UInt64) : m (StatisticsTracker × Disk) := do
  let t ← t.countBlocked c url page size
  return (t, t.save d)

end

/-- The counts after a page was loaded. -/
def countPageLoad (t : StatisticsTracker) (url : String) : StatisticsTracker :=
  { t with pages := t.pages.notice url PageStats.restart }

/-- The counts with a new session. -/
def startSession (t : StatisticsTracker) : StatisticsTracker := { t with sessionBlocked := 0 }

/-- Begins the counts of a page anew. -/
def recordPageLoad (t : StatisticsTracker) (d : Disk) (url : String) : StatisticsTracker × Disk :=
  let t := t.countPageLoad url
  (t, t.save d)

/-- Begins the counts of the session anew. -/
def resetSession (t : StatisticsTracker) (d : Disk) : StatisticsTracker × Disk :=
  let t := t.startSession
  (t, t.save d)

/-- The `n` domains with the most blocked requests; equal counts go by name. -/
def topDomains (t : StatisticsTracker) (n : Nat) : List (String × UInt64) :=
  (t.domains.mergeSort Statistics.comesBefore).take n

end StatisticsTracker

end ContentBlocking
