import ScriptHost.Session.Registry
import ScriptHost.Supervision.Semaphore

/-!
# The session store

A registry together with what its operations take from outside: a clock whose readings
ascend, a source of ids, and a gate for each session that lets one request through at a
time. A gate outlives its session, for those who still queue there.
-/

namespace ScriptHost

structure SessionStore where
  registry : Registry
  gates : Table Semaphore
  /-- The last clock reading. -/
  clock : Instant
  /-- How many ids have been drawn. -/
  drawn : Nat
  ids : Nat → String

namespace SessionStore

/-- The time between two clock readings, in nanoseconds. -/
def clockStep : Int := 1000

/-- A store without sessions. -/
def new (clock : Instant) (ids : Nat → String) : SessionStore := ⟨.empty, .empty, clock, 0, ids⟩

/-- The next clock reading. -/
def now (s : SessionStore) : Instant := s.clock + clockStep

/-- The store after a clock reading, with another registry. -/
def withRegistry (s : SessionStore) (r : Registry) : SessionStore :=
  { s with registry := r, clock := s.now }

/-- Create a session under the first drawn id that is free, of at most `limit` drawn. -/
def createWithin (limit : Nat) (s : SessionStore) : Option (SessionStore × String) :=
  match limit with
  | 0 => none
  | limit + 1 =>
    let id := s.ids s.drawn
    let s := { s with drawn := s.drawn + 1 }
    match s.registry.create? id s.now with
    | some r => some (s.withRegistry r, id)
    | none => createWithin limit s

/-- Create a session. As many ids are drawn as are needed when no id is drawn twice. -/
def create? (s : SessionStore) : Option (SessionStore × String) :=
  s.createWithin (s.registry.size + 1)

/-- What the last run of a session left. -/
def state (s : SessionStore) (id : String) :
    Except NotFound (SessionStore × Option Script.Continuation) := do
  let (r, c) ← s.registry.state id s.now
  return (s.withRegistry r, c)

/-- Store what a finished run left. -/
def updateState (s : SessionStore) (id : String) (c : Script.Continuation) :
    Except NotFound SessionStore := do
  return s.withRegistry (← s.registry.updateState id c s.now)

/-- Refresh the time of access, and tell whether the session is live. -/
def touch (s : SessionStore) (id : String) : SessionStore × Bool :=
  let (r, live) := s.registry.touch id s.now
  (s.withRegistry r, live)

/-- Remove a session, and tell whether it was live. -/
def remove (s : SessionStore) (id : String) : SessionStore × Bool :=
  let (r, live) := s.registry.remove id
  ({ s with registry := r }, live)

/-- Remove all sessions, and count them. -/
def clear (s : SessionStore) : SessionStore × Nat :=
  let (r, n) := s.registry.clear
  ({ s with registry := r }, n)

/-- Attach references to a session. -/
def merge (s : SessionStore) (id : String) (rs : List Resolved) :
    Except NotFound (SessionStore × Merge) := do
  let (r, m) ← s.registry.merge id rs s.now
  return (s.withRegistry r, m)

/-- Remove the sessions that have been idle for longer than `ttl` at a clock reading. -/
def sweepAt (s : SessionStore) (now : Instant) (ttl : Int) : SessionStore × Nat :=
  let (r, n) := s.registry.sweep now ttl
  ({ s with registry := r }, n)

/-- Remove the sessions that have been idle for longer than `ttl` now. -/
def sweep (s : SessionStore) (ttl : Int) : SessionStore × Nat :=
  let (r, n) := s.registry.sweep s.now ttl
  (s.withRegistry r, n)

/-- Sweep a number of times. -/
def sweepTimes (s : SessionStore) (ttl : Int) : Nat → SessionStore
  | 0 => s
  | n + 1 => (s.sweep ttl).1.sweepTimes ttl n

/-- Sweep at fixed intervals for a span of time. -/
def sweepFor (s : SessionStore) (ttl : Int) (intervalMs spanMs : Nat) : SessionStore :=
  s.sweepTimes ttl (sweepsWithin intervalMs spanMs)

/-- The gate of a session. -/
def gate (s : SessionStore) (id : String) : Semaphore := (s.gates.get? id).getD (.new 1)

/-- The store with the gate of a session changed. -/
def changeGate (s : SessionStore) (id : String) (f : Semaphore → Semaphore) : SessionStore :=
  { s with gates := s.gates.set id (f (s.gate id)) }

end SessionStore

end ScriptHost
