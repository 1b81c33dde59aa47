import ContentBlocking.Service.Basic

/-!
# Progress of runs

Runs in flight are brought forward together: all of them begin what they can,
and then every run whose downloads have replies is brought to its end.

* `Service.beginRuns` — the lists are served or their downloads begin.
* `Service.downloads` — the downloads that runs wait for.
* `Service.endRuns` — the downloads with replies end, and so do the runs that
  wait for nothing else.
-/

namespace ContentBlocking

/-- A download that a run waits for. -/
structure Download where
  generation : Nat
  /-- The place of the list in the run. -/
  index : Nat
  url : String
  deriving Repr, DecidableEq

/-- The downloads that a run waits for. -/
def CompileRun.downloads (r : CompileRun) : List Download :=
  match r.stage with
  | .loading stages =>
    (r.request.lists.zip stages).zipIdx.filterMap fun ((list, stage), i) =>
      match stage with
      | .fetching _ => some ⟨r.request.generation, i, list.url⟩
      | _ => none
  | _ => []

namespace Service

/-- A run begins what it can. -/
def beginRun (s : Service) (now : UInt64) (generation : Nat) : Service :=
  match s.runs.get? generation with
  | some r =>
    (List.range r.request.lists.length).foldl (fun s i => s.beginList generation now i)
      (s.lookUp generation)
  | none => s

/-- All runs in flight begin what they can. -/
def beginRuns (s : Service) (now : UInt64) : Service := s.runs.keys.foldl (·.beginRun now) s

/-- The downloads that runs wait for. -/
def downloads (s : Service) : List Download := s.runs.values.flatMap CompileRun.downloads

/-- A download ends, if it has a reply. -/
def endDownload (s : Service) (now : UInt64) (reply : Download → Option FetchReply)
    (x : Download) : Service :=
  match reply x with
  | some r => s.finishList x.generation now x.index r
  | none => s

/-- A run whose lists are loaded has its shards compiled, one after the other. -/
def compileShards (s : Service) (generation : Nat) : Service :=
  let s := s.compileRun generation
  let parts := ((s.runs.get? generation).map CompileRun.partsLeft).getD 0
  (List.range parts).foldl (fun s _ => s.compileRun generation) s

/-- The downloads of a run that have replies end, and so does the run if it
    waits for nothing else. -/
def endRun (s : Service) (now : UInt64) (reply : Download → Option FetchReply)
    (generation : Nat) : Service × Option (Ticket × Reply) :=
  match s.runs.get? generation with
  | some r =>
    ((r.downloads.foldl (·.endDownload now reply) s).compileShards generation).finishRun generation
  | none => (s, none)

/-- The downloads that have replies end, and so do the runs that wait for
    nothing else; gives the answers to their clients. -/
def endRuns (s : Service) (now : UInt64) (reply : Download → Option FetchReply) :
    Service × List (Ticket × Reply) :=
  s.runs.keys.foldl (fun (s, answers) generation =>
    let (s, answer) := s.endRun now reply generation
    (s, answers ++ answer.toList)) (s, [])

/-- Removes the copies of all lists that were removed. -/
def evictAll (s : Service) : Service := s.evictions.foldl (fun s _ => s.evict) s

end Service

end ContentBlocking
