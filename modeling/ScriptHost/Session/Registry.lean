import ScriptHost.Package.Reference
import ScriptHost.Script.State
import ScriptHost.Text.Blank
import ScriptHost.Wait

/-!
# The session registry

Live sessions under their ids. A session holds what its runs left, how many there were, the
packages attached to it, and the time of the last access. Operations that go to one session
leave the others as they are; those that use a session refresh its time of access, those
that only look at it do not.
-/

namespace ScriptHost

/-- A clock reading, in nanoseconds. -/
abbrev Instant := Int

namespace Instant

def nanosPerSecond : Int := 1000000000

/-- The latest clock reading there is. -/
def latest : Instant := 8210266876799 * nanosPerSecond + 999999999

/-- The longest time between two readings that a comparison can use: the milliseconds are a
signed number of sixty-four bits. -/
def maxSpan : Int := 0x7fffffffffffffff * 1000000

end Instant

/-- A session id that names no live session. -/
structure NotFound where
  id : String
deriving DecidableEq, Repr

def NotFound.message (e : NotFound) : String :=
  "session '" ++ e.id ++ "' not found; omit the session id to start a new session"

/-- What the registry holds for a session. -/
structure Session where
  createdAt : Instant
  lastAccess : Instant
  executions : Nat
  initialized : Bool
  continuation : Option Script.Continuation
  references : List Resolved
deriving DecidableEq

namespace Session

/-- A session without history. -/
def fresh (now : Instant) : Session := ⟨now, now, 0, false, none, []⟩

/-- The session with its time of access refreshed. -/
def touch (s : Session) (now : Instant) : Session := { s with lastAccess := now }

/-- The session with what a finished run left. -/
def store (s : Session) (c : Script.Continuation) (now : Instant) : Session :=
  { s with
    continuation := some c
    executions := s.executions + 1
    initialized := true
    lastAccess := now }

/-- A reference to the same package is attached. -/
def hasReference (attached : List Resolved) (r : Resolved) : Bool :=
  attached.any (·.reference.sameAs r.reference)

/-- The attached references with those added that are not attached yet, and the added
ones. -/
def addReferences (attached : List Resolved) : List Resolved → List Resolved × List Resolved
  | [] => (attached, [])
  | r :: rs =>
    if hasReference attached r then addReferences attached rs
    else
      let (all, added) := addReferences (attached ++ [r]) rs
      (all, r :: added)

/-- The session with references attached, the ones added, and whether what earlier runs left
was discarded, as it is when something was added to it. -/
def merge (s : Session) (rs : List Resolved) (now : Instant) :
    Session × List Reference × Bool :=
  let (all, added) := addReferences s.references rs
  let discards := !added.isEmpty && s.continuation.isSome
  ({ s with
      references := all
      continuation := if discards then none else s.continuation
      initialized := if discards then false else s.initialized
      lastAccess := now }, added.map (·.reference), discards)

/-- The session has been idle for longer than `ttl`; none has been idle for longer than the
longest time there is. -/
def isExpired (now : Instant) (ttl : Int) (s : Session) : Bool :=
  ttl ≤ Instant.maxSpan && ttl < now - s.lastAccess

end Session

/-- A session as callers see it. -/
structure SessionInfo where
  id : String
  createdAt : Instant
  lastAccess : Instant
  executions : Nat
  initialized : Bool
  references : List Reference
deriving DecidableEq, Repr

/-- The view of a session under its id. -/
def Session.info (s : Session) (id : String) : SessionInfo :=
  ⟨id, s.createdAt, s.lastAccess, s.executions, s.initialized, s.references.map (·.reference)⟩

/-- The outcome of attaching references. -/
structure Merge where
  added : List Reference
  stateDiscarded : Bool
deriving DecidableEq, Repr

/-- The live sessions. -/
structure Registry where
  sessions : Table Session

namespace Registry

def empty : Registry := ⟨.empty⟩

/-- The session under an id. -/
def find? (r : Registry) (id : String) : Option Session := r.sessions.get? id

/-- The session under an id that is not blank. -/
def use? (r : Registry) (id : String) : Except NotFound Session :=
  if Text.isBlankText id then .error ⟨id⟩
  else
    match r.find? id with
    | some s => .ok s
    | none => .error ⟨id⟩

/-- The registry with a session put under its id. -/
def put (r : Registry) (id : String) (s : Session) : Registry := ⟨r.sessions.set id s⟩

/-- Create a session under an id, unless it is taken. -/
def create? (r : Registry) (id : String) (now : Instant) : Option Registry :=
  if r.sessions.contains id then none else some (r.put id (.fresh now))

/-- An id names a live session. -/
def contains (r : Registry) (id : String) : Bool :=
  !Text.isBlankText id && r.sessions.contains id

/-- What the last run of a session left; this is an access. -/
def state (r : Registry) (id : String) (now : Instant) :
    Except NotFound (Registry × Option Script.Continuation) := do
  let s ← r.use? id
  return (r.put id (s.touch now), s.continuation)

/-- Store what a finished run left; this is an access. -/
def updateState (r : Registry) (id : String) (c : Script.Continuation) (now : Instant) :
    Except NotFound Registry := do
  let s ← r.use? id
  return r.put id (s.store c now)

/-- Refresh the time of access, and tell whether the session is live. -/
def touch (r : Registry) (id : String) (now : Instant) : Registry × Bool :=
  match r.find? id with
  | some s => (r.put id (s.touch now), true)
  | none => (r, false)

/-- Remove a session, and tell whether it was live. -/
def remove (r : Registry) (id : String) : Registry × Bool :=
  (⟨r.sessions.erase id⟩, r.sessions.contains id)

/-- Remove all sessions, and count them. -/
def clear (r : Registry) : Registry × Nat := (empty, r.sessions.size)

/-- Remove the sessions that have been idle for longer than `ttl`, and count them. -/
def sweep (r : Registry) (now : Instant) (ttl : Int) : Registry × Nat :=
  let kept := r.sessions.keep fun _ s => !s.isExpired now ttl
  (⟨kept⟩, r.sessions.size - kept.size)

/-- The number of live sessions. -/
def size (r : Registry) : Nat := r.sessions.size

/-- The ids of the live sessions. -/
def ids (r : Registry) : List String := r.sessions.keys

/-- The view of a session. -/
def info? (r : Registry) (id : String) : Option SessionInfo := (r.find? id).map (·.info id)

/-- The first view was created first, or at the same time with the smaller id. -/
def isOlder (a b : SessionInfo) : Bool :=
  a.createdAt < b.createdAt || (a.createdAt == b.createdAt && decide (a.id ≤ b.id))

/-- The views of all sessions, oldest first. -/
def list (r : Registry) : List SessionInfo :=
  (r.sessions.entries.map fun (id, s) => s.info id).mergeSort isOlder

/-- The references attached to a session. -/
def references (r : Registry) (id : String) : Except NotFound (List Resolved) :=
  match r.find? id with
  | some s => .ok s.references
  | none => .error ⟨id⟩

/-- Attach references to a session; this is an access. -/
def merge (r : Registry) (id : String) (rs : List Resolved) (now : Instant) :
    Except NotFound (Registry × Merge) := do
  let s ← r.use? id
  let (merged, added, discarded) := s.merge rs now
  return (r.put id merged, ⟨added, discarded⟩)

end Registry

/-- How many sweeps fall into a time span, when they come at fixed intervals and the first
comes after one interval. -/
def sweepsWithin (intervalMs spanMs : Nat) : Nat := waitOf spanMs / intervalMs

end ScriptHost
