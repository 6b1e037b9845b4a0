import ScriptHost.Guard.Check
import ScriptHost.Host.Failure
import ScriptHost.Host.Request
import ScriptHost.Package.Resolver
import ScriptHost.Script.Compile
import ScriptHost.Session.Store
import ScriptHost.Supervision.Monitor

/-!
# Hosts

A host ties together sessions, a policy, a compiler, a resolver and a domain of units. What
does not wait is done here: questions, resets, and compiling without a run.
-/

namespace ScriptHost

/-- Settings that are not part of the policy. -/
structure Tuning where
  sessionTtlMs : Nat
  sweepIntervalMs : Nat
  maxOutputBytes : Nat
  memoryPollMs : Nat
deriving DecidableEq, Repr

/-- What a host works with and never changes. -/
structure Setup where
  policy : Policy
  compiler : Compiler
  resolver : Resolver
  /-- The resolver reads files, and others go on meanwhile. -/
  readsFiles : Bool
  tuning : Tuning
  /-- Samples of the memory in use during a run, one for each interval of the monitor. -/
  memorySamples : List (Option Nat)

/-- A session that someone else removes after some milliseconds. -/
structure Removal where
  ms : Nat
  session : String
deriving DecidableEq, Repr

/-- The removal, seen some milliseconds later. -/
def Removal.later (r : Removal) (ms : Nat) : Removal := { r with ms := r.ms - ms }

structure Host where
  setup : Setup
  store : SessionStore
  domain : Domain
  /-- How often the compiler was asked. -/
  compilations : Nat
  /-- The removals that are still to come. -/
  removals : List Removal

namespace Host

/-- A host without sessions. -/
def new (setup : Setup) (maxUnits : Nat) (store : SessionStore) : Host :=
  ⟨setup, store, .new maxUnits, 0, []⟩

/-- What watches the memory in use during a run. -/
def monitor (h : Host) : Monitor :=
  (Monitor.ofPolicy h.setup.policy).withPoll (h.setup.tuning.memoryPollMs * 1000)

/-- The limits of a run. -/
def limits (h : Host) (abortAt : Option Nat) : Limits :=
  ⟨abortAt, h.setup.policy.effectiveTimeout, h.monitor.firstBreach h.setup.memorySamples⟩

/-- Ask the compiler. -/
def compile (h : Host) (source : String) (references : List Resolved)
    (prior : Option Script.Continuation) : Host × Except (List Diagnostic) Compilation :=
  ({ h with compilations := h.compilations + 1 },
    h.setup.compiler.compile source references prior)

/-- What a submission in a session is compiled against. This counts as an access. -/
def context (h : Host) (session : Option String) :
    Except NotFound (Host × List Resolved × Option Script.Continuation) :=
  match session with
  | none => .ok (h, [], none)
  | some id => do
    let references ← h.store.registry.references id
    let (store, prior) ← h.store.state id
    return ({ h with store := store }, references, prior)

/-- Compile without a run, in a session or by itself. No session is created. -/
def validate (h : Host) (source : String) (session : Option String) : Host × Verdict :=
  match h.context (requestedSession session) with
  | .error e => (h, .ofDiagnostics (Failure.session e).diagnostics)
  | .ok (h, references, prior) =>
    match Guard.checkSource source h.setup.policy with
    | .error v => (h, .ofDiagnostics (Failure.guard v).diagnostics)
    | .ok () =>
      match h.compile source references prior with
      | (h, .error ds) => (h, .ofDiagnostics (Failure.compilation ds).diagnostics)
      | (h, .ok compilation) => (h, .ofDiagnostics compilation.warnings)

/-- Remove a session, or all of them when none is named. -/
def reset (h : Host) (session : Option String) : Host × ResetReply :=
  match requestedSession session with
  | some id =>
    let (store, removed) := h.store.remove id
    ({ h with store := store }, .session id removed)
  | none =>
    let (store, removed) := h.store.clear
    ({ h with store := store }, .all removed)

/-- A survey of a host, with one session if it was asked for. -/
structure Survey where
  compiler : CompilerInfo
  activeSessions : Nat
  policy : Policy
  isolation : DomainStats
  session : Option SessionInfo

/-- The survey of a host. -/
def survey (h : Host) (session : Option SessionInfo) : Survey :=
  ⟨h.setup.compiler.info, h.store.registry.size, h.setup.policy, h.domain.stats, session⟩

/-- Look at the host, and at a session if one is named, which counts as an access. -/
def inspect (h : Host) (session : Option String) : Host × Except Failure Survey :=
  match requestedSession session with
  | none => (h, .ok (h.survey none))
  | some id =>
    let h := { h with store := (h.store.touch id).1 }
    match h.store.registry.info? id with
    | some info => (h, .ok (h.survey (some info)))
    | none => (h, .error (.session ⟨id⟩))

/-- The sessions, oldest first. -/
def list (h : Host) : List SessionInfo := h.store.registry.list

/-- Take no more units. -/
def closeDomain (h : Host) : Host := { h with domain := h.domain.close }

/-- Let time pass while nothing is served: the removals that come by then happen. -/
def passTime (h : Host) (ms : Nat) : Host :=
  let due := h.removals.filter (·.ms ≤ ms)
  { h with
    store := due.foldl (fun store r => (store.remove r.session).1) h.store
    removals := (h.removals.filter (ms < ·.ms)).map (·.later ms) }

/-- Sweep idle sessions as the settings say, for a span of time. -/
def sweepFor (h : Host) (spanMs : Nat) : Host :=
  let ttl := h.setup.tuning.sessionTtlMs * 1000000
  let h := { h with store := h.store.sweepFor ttl h.setup.tuning.sweepIntervalMs spanMs }
  h.passTime (waitOf spanMs)

end Host

end ScriptHost
