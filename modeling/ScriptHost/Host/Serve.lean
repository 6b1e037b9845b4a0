import ScriptHost.Host.Flight
import ScriptHost.Supervision.Agenda

/-!
# Serving requests

Several requests are served together in virtual time, by tasks that take turns: each request is
a task, and so are the code that it runs and whoever aborts it or removes a session meanwhile.
A request goes on until it has to wait, and is ready again when its code has ended, when a unit
or the gate of its session is its own, or when its caller aborts. While its code runs, a request
is also ready for each sample of the memory in use.
-/

namespace ScriptHost

/-- What takes turns while requests are served. -/
inductive Task where
  | request (t : Ticket)
  /-- The code of a request, with the pauses before its end. -/
  | code (t : Ticket) (pauses : List Pause)
  /-- The code of a request is asked to stop; then it has other pauses before its end. -/
  | halt (t : Ticket) (pauses : List Pause)
  /-- The memory in use is sampled for a request with running code. -/
  | sample (t : Ticket)
  /-- The caller of a request aborts. -/
  | abort (t : Ticket)
  | remove (session : String)
  /-- Another task comes after some milliseconds; if there are none, in the same turn. -/
  | later (ms : Nat) (task : Task)
deriving DecidableEq, Repr

namespace Task

/-- The task belongs to a request. -/
def isOf (t : Ticket) : Task → Bool
  | request u | code u _ | halt u _ | sample u | abort u => t == u
  | remove _ => false
  | later _ task => task.isOf t

/-- The task is the code of a request. -/
def isCodeOf (t : Ticket) : Task → Bool
  | code u _ => t == u
  | _ => false

/-- The task belongs to the supervised code of a request. -/
def isRunOf (t : Ticket) : Task → Bool
  | code u _ | sample u => t == u
  | _ => false

/-- The task comes again and again, at regular intervals. -/
def isSample : Task → Bool
  | sample _ => true
  | _ => false

/-- The task is a turn of a request that it has been woken for. -/
def isTurnOf (t : Ticket) : Task → Bool
  | request u | sample u => t == u
  | _ => false

/-- The most turns that a task and those that follow from it take before its request goes on. -/
def turns : Task → Nat
  | request _ | sample _ | abort _ | remove _ => 1
  | code _ pauses => pauses.length + 2
  | halt _ pauses => pauses.length + 3
  | later _ task => task.turns + 1

/-- The task as a removal to come, if it is one. -/
def removal? (ms : Nat) : Task → Option Removal
  | remove session => some ⟨ms, session⟩
  | _ => none

/-- The removal as a task. -/
def ofRemoval (r : Removal) : Task := remove r.session

end Task

/-- Requests in flight on a host. -/
structure Traffic where
  host : Host
  flights : List Flight
  agenda : Agenda Task

namespace Traffic

/-- The traffic with another agenda. -/
def plan (t : Traffic) (change : Agenda Task → Agenda Task) : Traffic :=
  { t with agenda := change t.agenda }

/-- The request can go on now. -/
def canAdvance (t : Traffic) (f : Flight) : Bool := (f.advance t.host t.agenda.now).isSome

/-- The requests that wait for others: first those for a unit, then those at a gate. -/
def waiting (t : Traffic) : List Flight :=
  t.flights.filter (·.isQueued) ++ t.flights.filter (·.isAtGate)

/-- A request becomes ready, unless it is. -/
def wakeRequest (t : Traffic) (ticket : Ticket) : Traffic :=
  if t.agenda.ready.any (Task.isTurnOf ticket) then t
  else t.plan (·.append (.request ticket))

/-- Those who wait and can go on become ready. -/
def wake (t : Traffic) : Traffic :=
  (t.waiting.filter t.canAdvance).foldl (fun t f => t.wakeRequest f.ticket) t

/-- The next sample of the memory in use is taken one interval from now. -/
def awaitSample (t : Traffic) (ticket : Ticket) : Traffic :=
  match t.host.monitor.pollMs? with
  | some ms => t.plan (·.setTimer (t.agenda.now + ms) (.sample ticket))
  | none => t

/-- Code takes its turns behind the others, and may be halted in them. -/
def startCode (t : Traffic) (ticket : Ticket) (course : Course) : Traffic :=
  let t := t.plan (·.append (.code ticket course.pauses))
  let t :=
    match course.halt with
    | some halt => t.plan (·.setTimer halt.ms (.halt ticket halt.pauses))
    | none => t
  t.awaitSample ticket

/-- A request goes on with its next step: at once, or once the others have had their turns. -/
def goOn (t : Traffic) (ticket : Ticket) (atOnce : Bool) : Traffic :=
  if atOnce then t.plan (·.again (.request ticket))
  else t.plan (·.setTimer t.agenda.now (.request ticket))

/-- What becomes of a request behind a step: it is done, it waits for its code, or it goes on. -/
def afterStep (t : Traffic) (f : Flight) (atOnce : Bool) : Traffic :=
  match f.phase with
  | .done _ => t.plan (·.drop (Task.isOf f.ticket))
  | .running _ _ _ run => t.startCode f.ticket run.course
  | _ => t.goOn f.ticket atOnce

/-- A request takes a step if it can. -/
def advance (t : Traffic) (f : Flight) : Traffic :=
  match f.advance t.host t.agenda.now with
  | none => t
  | some (host, next) =>
    let flights := t.flights.map fun g => if g.ticket = next.ticket then next else g
    let atOnce := !(f.isResolving && host.setup.readsFiles)
    ({ t with host := host, flights := flights }.afterStep next atOnce).wake

/-- The request with a ticket, if it is as wanted. -/
def find? (t : Traffic) (ticket : Ticket) (p : Flight → Bool) : Option Flight :=
  t.flights.find? fun f => f.ticket == ticket && p f

/-- The request with a ticket takes a step, if it is as wanted and can. -/
def advanceIf (t : Traffic) (ticket : Ticket) (p : Flight → Bool) : Traffic :=
  (t.find? ticket p).elim t t.advance

/-- Code has not ended yet. -/
def isRunning (t : Traffic) (ticket : Ticket) : Bool :=
  t.agenda.tasks.any (Task.isCodeOf ticket)

/-- A request looks at its code and at the memory in use: it goes on if the code has ended. -/
def look (t : Traffic) (ticket : Ticket) : Traffic :=
  match t.find? ticket t.canAdvance with
  | some f => if t.isRunning ticket then t.awaitSample ticket else t.advance f
  | none => t.awaitSample ticket

/-- Code goes on to its next pause, or to its end. -/
def resume (t : Traffic) (ticket : Ticket) : List Pause → Traffic
  | [] => t.wakeRequest ticket
  | .turn :: pauses => t.plan (·.defer (.code ticket pauses))
  | .until ms :: pauses => t.plan (·.setTimer ms (.code ticket pauses))
  | .forever :: _ => t

/-- A session is removed by someone else. -/
def removeSession (t : Traffic) (session : String) : Traffic :=
  { t with host := { t.host with store := (t.host.store.remove session).1 } }

/-- A task has its turn. -/
def take (t : Traffic) : Task → Traffic
  | .request ticket => t.advanceIf ticket fun _ => true
  | .code ticket pauses => t.resume ticket pauses
  | .halt ticket pauses =>
    (t.plan (·.drop (Task.isRunOf ticket))).plan (·.append (.code ticket pauses))
  | .sample ticket => t.look ticket
  | .abort ticket => t.advanceIf ticket fun f => f.isQueued || f.isAtGate
  | .remove session => t.removeSession session
  | .later 0 task => t.take task
  | .later ms task => t.plan (·.setTimer (t.agenda.now + waitOf ms) task)

/-- Every request is done. -/
def isOver (t : Traffic) : Bool := t.flights.all (·.reply?.isSome)

/-- Nothing is left to happen but samples of the memory in use. -/
def isStuck (t : Traffic) : Bool :=
  t.agenda.isIdle && (t.agenda.timersOf (!Task.isSample ·)).isEmpty

/-- The traffic before its next turn, without the samples that nothing comes of. -/
def skipSamples (t : Traffic) : Traffic :=
  match t.host.monitor.pollMs? with
  | some ms => if t.agenda.isIdle then t.plan (·.skip Task.isSample ms) else t
  | none => t

/-- The next task has its turn; none when every request is done, or nothing is left to happen. -/
def step (t : Traffic) : Option Traffic :=
  if t.isOver || t.isStuck then none
  else t.skipSamples.agenda.next?.map fun (task, agenda) => ({ t with agenda := agenda }).take task

/-- Take at most `limit` turns. -/
def run : Nat → Traffic → Traffic
  | 0, t => t
  | limit + 1, t =>
    match t.step with
    | some t => run limit t
    | none => t

/-- The most turns before some request goes on, or nothing is left to happen. Between two others,
each sample of the memory in use is taken twice at most. -/
def turnsLeft (t : Traffic) : Nat :=
  let samples := t.agenda.tasks.countP Task.isSample
  let turns := t.agenda.tasks.foldr (fun task turns => task.turns + turns) 1
  turns * (2 * samples + 2)

/-- The most steps that requests can still take. -/
def stepsLeft (t : Traffic) : Nat := t.flights.foldr (fun f steps => f.stepsLeft + steps) 1

/-- Take turns until some request goes on, `limit` times. -/
def settle : Nat → Traffic → Traffic
  | 0, t => t
  | limit + 1, t => settle limit (t.run t.turnsLeft)

/-- The traffic when every request is done, or nothing is left to happen. -/
def finish (t : Traffic) : Traffic := t.settle t.stepsLeft

/-- The removals that are still to come. -/
def removals (t : Traffic) : List Removal :=
  t.agenda.ready.filterMap (Task.removal? 0) ++
    t.agenda.timers.filterMap fun timer => timer.task.removal? (timer.ms - t.agenda.now)

/-- The host when the requests are served. What is to happen by then has happened. -/
def hostAfter (t : Traffic) : Host := ({ t.host with removals := t.removals }).passTime 0

end Traffic

/-- How the caller of a job aborts. -/
inductive Abort where
  /-- The job is aborted before it starts. -/
  | before
  /-- Someone waits some milliseconds, and aborts then. -/
  | after (ms : Nat)
deriving DecidableEq, Repr

namespace Abort

/-- The millisecond of the abort. -/
def ms : Abort → Nat
  | before => 0
  | after ms => waitOf ms

/-- Who aborts the request, if someone waits to do so. -/
def task? (ticket : Ticket) : Abort → Option Task
  | before => none
  | after ms => some (.later ms (.abort ticket))

end Abort

/-- A job, and what else happens once it is ordered: an abort, and the removal of a session. -/
structure Order where
  job : Job
  abort : Option Abort
  removal : Option Removal
deriving DecidableEq, Repr

namespace Order

/-- A job to which nothing else happens. -/
def ofJob (job : Job) : Order := ⟨job, none, none⟩

/-- The job in flight. -/
def flight (o : Order) (ticket : Ticket) : Flight := .new ticket o.job (o.abort.map (·.ms))

/-- The tasks of a job, that of its request last. -/
def tasks (o : Order) (ticket : Ticket) : List Task :=
  (o.abort.bind (·.task? ticket)).toList ++
    (o.removal.map fun r => .later r.ms (.ofRemoval r)).toList ++ [.request ticket]

end Order

namespace Host

/-- The agenda at the start: the tasks of the jobs in order, and the removals still to come. -/
def openingAgenda (h : Host) (orders : List Order) : Agenda Task :=
  { now := 0
    ready := orders.zipIdx.flatMap fun (o, ticket) => o.tasks ticket
    deferred := []
    timers := h.removals.map fun r => ⟨r.ms, .ofRemoval r⟩
    streak := 0 }

/-- The traffic of jobs that start together, when it is over. -/
def traffic (h : Host) (orders : List Order) : Traffic :=
  let flights := orders.zipIdx.map fun (o, ticket) => o.flight ticket
  Traffic.finish ⟨h, flights, h.openingAgenda orders⟩

/-- Serve jobs that start together, and reply to each. A job that would wait for ever has no
reply. -/
def serve (h : Host) (orders : List Order) : Host × List (Option JobReply) :=
  let finish := h.traffic orders
  (finish.hostAfter, finish.flights.map (·.reply?))

/-- A job served alone: the host after it, the reply, and the milliseconds that it took. -/
structure Served (α : Type) where
  host : Host
  reply : α
  elapsedMs : Nat

/-- Run a request alone. -/
def execute (h : Host) (r : Request) : Served Reply :=
  let finish := h.traffic [.ofJob (.execute r)]
  let reply :=
    match finish.flights.map (·.reply?) with
    | [some (.executed reply)] => reply
    | _ => .failure []
  ⟨finish.hostAfter, reply, finish.agenda.now⟩

/-- Attach packages to a session, alone. -/
def load (h : Host) (session : String) (packages : List Reference) : Served LoadReply :=
  let finish := h.traffic [.ofJob (.load session packages)]
  let reply :=
    match finish.flights.map (·.reply?) with
    | [some (.loaded reply)] => reply
    | _ => ⟨false, none, [], [], []⟩
  ⟨finish.hostAfter, reply, finish.agenda.now⟩

end Host

end ScriptHost
