import ContentBlocking.CommandLine.Check
import ContentBlocking.CommandLine.Shards
import ContentBlocking.CommandLine.Update

/-!
# Running a command line

What an invocation does is a function of the files, the time and the replies to
downloads.

* `Invocation.report` — what an invocation does.
* `Invocation.paths` — the files that it works with.
-/

namespace ContentBlocking.CommandLine

namespace Invocation

/-- How the program is used. -/
def usage : List String :=
  ["Compiles filter lists to artifacts and works with them.",
   "",
   "Commands:",
   "  compile   -i LIST... [-o DIR] [-e DOMAIN...] [--max-rules-per-shard N] [--max-shards N]",
   "            [--namespace NAME]",
   "  validate  -i ARTIFACT...",
   "  info      -i ARTIFACT",
   "  check     -i ARTIFACT... -u URL [-p HOST] [-t TYPE]",
   "  update    [-c CONFIG] [--force]"]

/-- What an invocation does. -/
def report (i : Invocation) (now : UInt64) (fetch : String → FetchReply) (d : Disk) : Report :=
  match i with
  | .help => .ofLines d (.ok usage)
  | .compile q => q.report d
  | .validate inputs => validateReport d inputs
  | .info input => infoReport d input
  | .check q => q.report d
  | .update config refresh => { config, refresh, now, fetch : Update }.report d

/-- The files that an invocation works with, as far as a disk tells which they
    are. -/
def paths (d : Disk) : Invocation → List String
  | .help => []
  | .compile q => q.output :: q.inputs
  | .validate inputs => inputs
  | .info input => [input]
  | .check q => q.inputs
  | .update config _ => Update.paths config d

end Invocation

end ContentBlocking.CommandLine
