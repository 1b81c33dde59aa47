import ContentBlocking.Engine
import ContentBlocking.Whitelist

/-!
# Decisions about blocked pages

When a page is blocked the user decides what happens. A surface has at most one
pending decision. The user may let the page pass once, put its domain on the
whitelist, or leave. What follows from a decision is given as a list of effects
and not done here.

* `BlockDecisions.signal` — a page was blocked.
* `BlockDecisions.continueOnce`, `BlockDecisions.whitelistPermanently`,
  `BlockDecisions.cancel`, `BlockDecisions.close` — a decision ends.
-/

namespace ContentBlocking

/-- A pending decision. -/
structure BlockedSession where
  id : SessionId
  surface : Surface
  url : String
  deriving Repr, DecidableEq

/-- What follows from a decision. -/
inductive DecisionEffect where
  /-- The page is loaded while the surface runs nothing. -/
  | reload (s : Surface) (url : String)
  | present (session : BlockedSession)
  | dismiss (id : SessionId) (s : Surface)
  /-- The domain goes on the whitelist. -/
  | whitelist (domain : String)
  | leave (s : Surface)
  deriving Repr, DecidableEq

/-- The pending decisions, and the pages that the user lets pass once. -/
structure BlockDecisions where
  sessions : Table Surface BlockedSession := []
  bypass : List String := []
  deriving Repr, DecidableEq

namespace BlockDecisions

/-- The code of a navigation that failed because it was blocked. -/
def blockedCode : Int := 104

/-- The pending decision of a surface. -/
def sessionOn? (b : BlockDecisions) (s : Surface) : Option BlockedSession := b.sessions.get? s

/-- The pending decision with an identifier. -/
def session? (b : BlockDecisions) (id : SessionId) : Option BlockedSession :=
  b.sessions.values.find? (·.id == id)

/-- The number of pending decisions. -/
def pending (b : BlockDecisions) : Nat := b.sessions.length

/-- The user lets a page pass once. -/
def hasBypass (b : BlockDecisions) (url : String) : Bool := b.bypass.contains url

/-- The decisions without the one of a surface, and the effect of that. -/
def close (b : BlockDecisions) (s : Surface) : BlockDecisions × List DecisionEffect :=
  match b.sessionOn? s with
  | some session => ({ b with sessions := b.sessions.erase s }, [.dismiss session.id s])
  | none => (b, [])

/-- A page that was blocked passes, or a decision with the identifier `id`
    becomes pending. -/
def settle (b : BlockDecisions) (w : Whitelist) (id : SessionId) (s : Surface) (url : String) :
    BlockDecisions × List DecisionEffect :=
  -- A page that the user has let pass passes without asking, but only this time.
  if b.hasBypass url then ({ b with bypass := b.bypass.filter (· ≠ url) }, [.reload s url])
  else if w.coversUrl url then (b, [.reload s url])
  else
    let session : BlockedSession := ⟨id, s, url⟩
    ({ b with sessions := b.sessions.set s session }, [.present session])

/-- A navigation failed. If it was blocked, and no decision about that page is
    pending on the surface, any other decision there is dropped; then the page
    passes or a decision becomes pending. -/
def signal (b : BlockDecisions) (w : Whitelist) (id : SessionId) (s : Surface) (url : String)
    (code : Int) : BlockDecisions × List DecisionEffect :=
  if code ≠ blockedCode ∨ (b.sessionOn? s).any (·.url == url) then (b, [])
  else
    let (b, dropped) := b.close s
    let (b, effects) := b.settle w id s url
    (b, dropped ++ effects)

/-- Takes out the decision with an identifier; gives it. -/
def take (b : BlockDecisions) (id : SessionId) : BlockDecisions × Except Failure BlockedSession :=
  match b.session? id with
  | none => (b, .error (.unknownSession id))
  | some found =>
    match b.sessionOn? found.surface with
    | some session => ({ b with sessions := b.sessions.erase found.surface }, .ok session)
    | none => (b, .error (.unknownSession id))

/-- The page passes once, now; the next time that it is blocked it passes too. -/
def continueOnce (b : BlockDecisions) (id : SessionId) :
    BlockDecisions × Except Failure (List DecisionEffect) :=
  match b.take id with
  | (b, .error e) => (b, .error e)
  | (b, .ok session) =>
    ({ b with bypass := session.url :: b.bypass.filter (· ≠ session.url) },
      .ok [.dismiss id session.surface, .reload session.surface session.url])

/-- The domain of the page goes on the whitelist, and the page passes. The
    domain is looked for before the decision is taken out. -/
def whitelistPermanently (b : BlockDecisions) (id : SessionId) :
    BlockDecisions × Except Failure (List DecisionEffect) :=
  match b.session? id with
  | none => (b, .error (.unknownSession id))
  | some found =>
    match Whitelist.domainOf found.url with
    | .error e => (b, .error e)
    | .ok domain =>
      match b.take id with
      | (b, .error e) => (b, .error e)
      | (b, .ok session) =>
        (b, .ok [.dismiss id session.surface, .whitelist domain,
          .reload session.surface session.url])

/-- The user leaves the page. -/
def cancel (b : BlockDecisions) (id : SessionId) :
    BlockDecisions × Except Failure (List DecisionEffect) :=
  match b.take id with
  | (b, .error e) => (b, .error e)
  | (b, .ok session) => (b, .ok [.dismiss id session.surface, .leave session.surface])

end BlockDecisions

end ContentBlocking
