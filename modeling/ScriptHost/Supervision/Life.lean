import ScriptHost.Supervision.Domain

/-!
# Lives of units

A unit between the steps of its run. The run starts a task for the code and keeps it to itself; only
a task that does not wind down in the grace is left with the unit, which looks at it when it is
released. Where the run waits it may be dropped, alone or with the whole request: a task that nobody
holds any more goes on, and its token is cancelled only when the caller aborts.
-/

namespace ScriptHost

/-- Where the run of a unit stands. -/
inductive RunStage where
  | unstarted
  /-- The run waits for the end of the task, or for a reason to stop it. -/
  | watching
  /-- The task has been told to stop, and the run waits for its end, for the grace at most. -/
  | windingDown
  | ended
deriving DecidableEq, Repr

/-- The run waits for its task. -/
def RunStage.isWaiting : RunStage → Bool
  | watching | windingDown => true
  | unstarted | ended => false

/-- Who holds the task, and can abort it. -/
inductive Holder where
  | nobody
  | run
  | unit
deriving DecidableEq, Repr

/-- Why a run is given up. -/
inductive StopCause where
  | caller
  | timeLimit
  | memory
deriving DecidableEq, Repr

/-- A unit, its run and its task. -/
structure UnitLife where
  stage : RunStage
  holder : Holder
  /-- There is a task, and it has not ended. -/
  isGoing : Bool
  /-- The task has been aborted. -/
  isAborted : Bool
  /-- The token that the task looks at is cancelled. -/
  isStopped : Bool
  callerAborted : Bool
  isReleased : Bool
  /-- The release is counted as degraded. -/
  isDegraded : Bool
deriving DecidableEq, Repr

/-- What happens to a unit, its run or its task. -/
inductive LifeEvent where
  | started
  | taskEnded
  | callerAborts
  /-- The run sees the end of the task that it watches. -/
  | joined
  | givenUp (cause : StopCause)
  /-- The run sees the end of the task within the grace. -/
  | woundDown
  | graceOver
  | runDropped
  /-- The whole request is dropped: the run, if there is one, and then the unit. -/
  | requestDropped
  /-- The unit is unloaded, or dropped without that. -/
  | released
deriving DecidableEq, Repr

/-- The run is dropped, alone or with the request. -/
def LifeEvent.dropsRun : LifeEvent → Bool
  | runDropped | requestDropped => true
  | _ => false

namespace UnitLife

/-- A unit that is loaded. -/
def fresh : UnitLife := ⟨.unstarted, .nobody, false, false, false, false, false, false⟩

/-- The run is no more, and neither is its hold on the task. -/
def dropRun (l : UnitLife) : UnitLife :=
  if l.stage.isWaiting then { l with stage := .ended, holder := .nobody } else l

/-- The unit is released. If it holds a task that is still going on, the task is aborted and the
release degraded. -/
def release (l : UnitLife) : UnitLife :=
  let lingers := l.holder == .unit && l.isGoing
  { l with
    holder := .nobody
    isAborted := l.isAborted || lingers
    isReleased := true
    isDegraded := lingers }

/-- A unit can be released once, and not while its run has it. -/
def mayRelease (l : UnitLife) : Bool := !l.isReleased && !l.stage.isWaiting

/-- What a unit comes to by an event, where that can happen. -/
def step (l : UnitLife) : LifeEvent → Option UnitLife
  | .started =>
    if l.stage == .unstarted && !l.isReleased then
      some { l with stage := .watching, holder := .run, isGoing := true }
    else none
  | .taskEnded => if l.isGoing then some { l with isGoing := false } else none
  | .callerAborts => some { l with callerAborted := true, isStopped := true }
  | .joined =>
    if l.stage == .watching && !l.isGoing then
      some { l with stage := .ended, holder := .nobody, isStopped := true }
    else none
  | .givenUp cause =>
    if l.stage == .watching && l.isGoing && (cause != .caller || l.callerAborted) then
      some { l with stage := .windingDown, isAborted := true, isStopped := true }
    else none
  | .woundDown =>
    if l.stage == .windingDown && !l.isGoing then
      some { l with stage := .ended, holder := .nobody }
    else none
  | .graceOver =>
    if l.stage == .windingDown && l.isGoing then
      some { l with stage := .ended, holder := .unit }
    else none
  | .runDropped => if l.stage.isWaiting then some l.dropRun else none
  | .requestDropped => if l.dropRun.mayRelease then some l.dropRun.release else none
  | .released => if l.mayRelease then some l.release else none

/-- What a unit comes to by events, one after the other. -/
def run (l : UnitLife) : List LifeEvent → Option UnitLife
  | [] => some l
  | e :: events => (l.step e).bind (·.run events)

end UnitLife

end ScriptHost
