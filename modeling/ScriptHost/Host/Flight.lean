import ScriptHost.Host.Basic

/-!
# Requests in flight

A request passes through phases: it finds or creates its session, queues at the session's
gate, resolves its packages, is checked and compiled, queues for a unit, runs, and is done.
One step takes it from one phase to the next, and nothing else happens to the host within a
step. A request that waits has no step.
-/

namespace ScriptHost

/-- What a request in flight wants. -/
inductive Job where
  | execute (request : Request)
  /-- Attach packages only, to the session with exactly this id. -/
  | load (session : String) (packages : List Reference)
deriving DecidableEq, Repr

/-- The packages that a job brings. -/
def Job.packages : Job → List Reference
  | execute request => request.packages
  | load _ packages => packages

/-- What a job ends with. -/
inductive JobReply where
  | executed (reply : Reply)
  | loaded (reply : LoadReply)
deriving DecidableEq, Repr

/-- The session of a request in flight. -/
structure Berth where
  id : String
  /-- The session was created for this request only. -/
  ephemeral : Bool
deriving DecidableEq, Repr

/-- Where a request in flight stands. -/
inductive Phase where
  | opening
  | atGate (berth : Berth)
  | resolving (berth : Berth) (pending : List Reference) (found : List Resolved)
      (failures : List Diagnostic)
  | compiling (berth : Berth) (notes : List Diagnostic) (references : List Resolved)
      (prior : Option Script.Continuation)
  | queued (berth : Berth) (notes : List Diagnostic) (compilation : Compilation)
  | running (berth : Berth) (notes : List Diagnostic) (warnings : List Diagnostic)
      (run : UnitRun)
  | done (reply : JobReply)

structure Flight where
  ticket : Ticket
  job : Job
  /-- The millisecond at which the caller aborts. -/
  abortAt : Option Nat
  phase : Phase

namespace Flight

/-- A request that has not started. -/
def new (ticket : Ticket) (job : Job) (abortAt : Option Nat) : Flight :=
  ⟨ticket, job, abortAt, .opening⟩

/-- The caller has aborted. -/
def isAborted (f : Flight) (now : Nat) : Bool := stopDue f.abortAt now

/-- The reply of a finished request. -/
def reply? (f : Flight) : Option JobReply :=
  match f.phase with
  | .done reply => some reply
  | _ => none

/-- The reply to a failed job; `notes` come before the other warnings. -/
def failureReply (job : Job) (session : Option String) (notes : List Diagnostic)
    (failure : Failure) : JobReply :=
  let ds := failure.diagnostics
  match job with
  | .execute _ =>
    let reply := Reply.failure ds
    .executed { reply with session := session, warnings := notes ++ reply.warnings }
  | .load _ _ => .loaded ⟨false, none, [], errorsOf ds, notes ++ warningsOf ds⟩

/-- The session of the reply: one created for the request only is not named. -/
def namedSession (b : Berth) : Option String := if b.ephemeral then none else some b.id

/-- Remove the session if it was created for this request only. -/
def closeBerth (h : Host) (b : Berth) : Host :=
  if b.ephemeral then { h with store := (h.store.remove b.id).1 } else h

/-- Open the gate of the session for the next in the queue. -/
def openGate (h : Host) (b : Berth) : Host :=
  { h with store := h.store.changeGate b.id .release }

/-- End with a failure, having passed the gate. -/
def fail (h : Host) (f : Flight) (b : Berth) (notes : List Diagnostic) (failure : Failure) :
    Host × Flight :=
  (closeBerth (openGate h b) b,
    { f with phase := .done (failureReply f.job (namedSession b) notes failure) })

/-- Queue at the gate of the session. -/
def joinGate (h : Host) (f : Flight) (b : Berth) : Host × Flight :=
  ({ h with store := h.store.changeGate b.id (·.join f.ticket) },
    { f with phase := .atGate b })

/-- Create the session that a request without one gets. -/
def createBerth (h : Host) (f : Flight) (ephemeral : Bool) : Option (Host × Flight) :=
  match h.store.create? with
  | some (store, id) => some (joinGate { h with store := store } f ⟨id, ephemeral⟩)
  | none => none

/-- Find the session that a request names, or refuse the request. -/
def findBerth (h : Host) (f : Flight) (id : String) : Host × Flight :=
  match h.store.registry.find? id with
  | some _ => joinGate h f ⟨id, false⟩
  | none => (h, { f with phase := .done (failureReply f.job none [] (.session ⟨id⟩)) })

/-- Start: find the session, or create one. -/
def start (h : Host) (f : Flight) : Option (Host × Flight) :=
  match f.job with
  | .load id _ => some (findBerth h f id)
  | .execute request =>
    match requestedSession request.session with
    | some id => some (findBerth h f id)
    | none => createBerth h f !request.persist

/-- Pass the gate when it is open and it is this one's turn, and look at the packages. An
abort comes first. -/
def passGate (h : Host) (f : Flight) (now : Nat) (b : Berth) : Option (Host × Flight) :=
  if f.isAborted now then
    let h := { h with store := h.store.changeGate b.id (·.leave f.ticket) }
    some (closeBerth h b,
      { f with phase := .done (failureReply f.job (namedSession b) [] .cancelled) })
  else if (h.store.gate b.id).mayEnter f.ticket then
    let h := { h with store := h.store.changeGate b.id (·.enter f.ticket) }
    match Guard.checkPackages f.job.packages h.setup.policy with
    | .error v => some (fail h f b [] (.guard v))
    | .ok () => some (h, { f with phase := .resolving b f.job.packages [] [] })
  else none

/-- Resolve one more package. A failure becomes a warning. -/
def resolveNext (h : Host) (f : Flight) (b : Berth) (r : Reference)
    (pending : List Reference) (found : List Resolved) (failures : List Diagnostic) :
    Host × Flight :=
  match h.setup.resolver r with
  | .ok resolved => (h, { f with phase := .resolving b pending (found ++ [resolved]) failures })
  | .error e =>
    let failures := failures ++ [.warning Code.packageNotFound e.message]
    (h, { f with phase := .resolving b pending found failures })

/-- Attach the resolved packages, and collect the notes on it. -/
def attach (h : Host) (job : Job) (b : Berth) (found : List Resolved)
    (failures : List Diagnostic) :
    Host × List Diagnostic × Except Failure (List Reference) :=
  if job.packages.isEmpty then (h, [], .ok [])
  else if found.isEmpty then (h, [], .error (.packages failures))
  else
    match h.store.merge b.id found with
    | .error e => (h, failures, .error (.session e))
    | .ok (store, merged) =>
      let notes :=
        if merged.stateDiscarded then failures ++ [stateResetWarning merged.added] else failures
      ({ h with store := store }, notes, .ok merged.added)

/-- Check the source and read what it is compiled against. -/
def prepare (h : Host) (f : Flight) (b : Berth) (request : Request) (notes : List Diagnostic) :
    Host × Flight :=
  match Guard.checkSource request.source h.setup.policy with
  | .error v => fail h f b notes (.guard v)
  | .ok () =>
    match h.context (some b.id) with
    | .error e => fail h f b notes (.session e)
    | .ok (h, references, prior) => (h, { f with phase := .compiling b notes references prior })

/-- Attach what was resolved; a job that only loads packages is done then. -/
def attachAll (h : Host) (f : Flight) (b : Berth) (found : List Resolved)
    (failures : List Diagnostic) : Host × Flight :=
  match attach h f.job b found failures with
  | (h, notes, .error e) => fail h f b notes e
  | (h, notes, .ok added) =>
    match f.job with
    | .load _ _ =>
      (openGate h b, { f with phase := .done (.loaded ⟨true, some b.id, added, [], notes⟩) })
    | .execute request => prepare h f b request notes

/-- Compile the source, and queue for a unit. -/
def compile (h : Host) (f : Flight) (b : Berth) (notes : List Diagnostic)
    (references : List Resolved) (prior : Option Script.Continuation) (request : Request) :
    Host × Flight :=
  match h.compile request.source references prior with
  | (h, .error ds) => fail h f b notes (.compilation ds)
  | (h, .ok compilation) =>
    ({ h with domain := h.domain.queue f.ticket },
      { f with phase := .queued b notes compilation })

/-- Take a unit when one is free and it is this one's turn, and start the run. An abort
comes first. -/
def takeUnit (h : Host) (f : Flight) (now : Nat) (b : Berth) (notes : List Diagnostic)
    (compilation : Compilation) : Option (Host × Flight) :=
  let left := { h with domain := h.domain.giveUp f.ticket }
  if f.isAborted now then some (fail left f b notes .cancelled)
  else
    match h.domain.load f.ticket compilation.activity h.setup.tuning.maxOutputBytes with
    | .refused => some (fail left f b notes (.isolation .unavailable))
    | .waits => none
    | .granted domain u =>
      let h := { h with domain := domain }
      match u.run (h.limits f.abortAt) now with
      | .error e => some (fail h f b notes (.isolation e))
      | .ok run => some (h, { f with phase := .running b notes compilation.warnings run })

/-- Keep what a completed run left, if the session is to be kept. The session may be gone by
then, which is an error that does not take the value and the output away. -/
def keep (h : Host) (b : Berth) (persist : Bool) (completion : Completion) :
    Host × List Diagnostic :=
  if persist && !b.ephemeral then
    match h.store.updateState b.id completion.continuation with
    | .ok store => ({ h with store := store }, [])
    | .error e => (h, (Failure.session e).diagnostics)
  else ({ h with store := (h.store.touch b.id).1 }, [])

/-- End a run: release the unit, keep what it left, and reply. -/
def land (h : Host) (f : Flight) (now : Nat) (b : Berth) (notes warnings : List Diagnostic)
    (run : UnitRun) (request : Request) : Host × Flight :=
  let (domain, released) := h.domain.release run.loaded now
  let degraded := match released with
    | .ok () => false
    | .error _ => true
  let h := { h with domain := domain }
  let warnings := notes ++ warnings ++ (if degraded then [degradedWarning] else [])
  let (h, value, errors) :=
    match run.outcome with
    | .completed completion =>
      let (h, errors) := keep h b request.persist completion
      (h, completion.value, errors)
    | outcome => (h, none, outcome.error?.toList)
  let reply : Reply :=
    { success := run.outcome.isCompleted && errors.isEmpty
      value := value
      output := run.loaded.output.text
      errors := errors
      warnings := warnings
      session := namedSession b
      cleanupDegraded := degraded }
  (closeBerth (openGate h b) b, { f with phase := .done (.executed reply) })

/-- The next step of a request at a moment; none if it waits or is done. -/
def advance (h : Host) (f : Flight) (now : Nat) : Option (Host × Flight) :=
  match f.phase with
  | .opening => start h f
  | .atGate b => passGate h f now b
  | .resolving b (r :: pending) found failures =>
    some (resolveNext h f b r pending found failures)
  | .resolving b [] found failures => some (attachAll h f b found failures)
  | .compiling b notes references prior =>
    match f.job with
    | .execute request => some (compile h f b notes references prior request)
    | .load _ _ => none
  | .queued b notes compilation => takeUnit h f now b notes compilation
  | .running b notes warnings run =>
    match f.job with
    | .execute request =>
      if run.finish.any (· ≤ now) then some (land h f now b notes warnings run request)
      else none
    | .load _ _ => none
  | .done _ => none

/-- The request waits at the gate of its session. -/
def isAtGate (f : Flight) : Bool :=
  match f.phase with
  | .atGate _ => true
  | _ => false

/-- The request looks for a package. -/
def isResolving (f : Flight) : Bool :=
  match f.phase with
  | .resolving _ (_ :: _) _ _ => true
  | _ => false

/-- The request waits for a unit. -/
def isQueued (f : Flight) : Bool :=
  match f.phase with
  | .queued _ _ _ => true
  | _ => false

/-- The most steps that a request can still take. -/
def stepsLeft (f : Flight) : Nat :=
  match f.phase with
  | .opening => f.job.packages.length + 6
  | .atGate _ => f.job.packages.length + 5
  | .resolving _ pending _ _ => pending.length + 4
  | .compiling _ _ _ _ => 3
  | .queued _ _ _ => 2
  | .running _ _ _ _ => 1
  | .done _ => 0

end Flight

end ScriptHost
