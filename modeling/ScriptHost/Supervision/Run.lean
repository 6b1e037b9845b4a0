import ScriptHost.Supervision.Activity
import ScriptHost.Wait

/-!
# Supervised runs

How an activity goes by itself, and how it goes under supervision: a caller's abort, a time
limit and a memory limit each ask it to stop. A run that does not end first is given up,
and has a short grace to wind down.
-/

namespace ScriptHost

/-- How code gives way to others while it runs. -/
inductive Pause where
  /-- It gives up its turn, and goes on once the others have had theirs. -/
  | turn
  /-- It waits until a millisecond. -/
  | until (ms : Nat)
  /-- It waits, and nothing wakes it. -/
  | forever
deriving DecidableEq, Repr

/-- The pause up to a millisecond; none if it has come. -/
def Pause.upTo (now ms : Nat) : List Pause := if now < ms then [.until ms] else []

/-- How an activity goes: what it writes, each text with the millisecond of its writing, its
pauses, when it ends (if ever), and how. -/
structure Played where
  written : List (Nat × String)
  pauses : List Pause
  finish : Option Nat
  ending : Ending

namespace Played

/-- The activity with a text written first. -/
def behind (p : Played) (now : Nat) (text : String) : Played :=
  { p with written := (now, text) :: p.written }

/-- The activity with pauses first. -/
def after (p : Played) (pauses : List Pause) : Played := { p with pauses := pauses ++ p.pauses }

/-- The texts written up to a millisecond. -/
def writtenBy (p : Played) (ms : Nat) : List String :=
  (p.written.filter (·.1 ≤ ms)).map (·.2)

end Played

/-- The request to stop has come by this millisecond. -/
def stopDue (stopAt : Option Nat) (now : Nat) : Bool := stopAt.any (· ≤ now)

/-- The end of code that stops because it was asked to. -/
def endStopped (now : Nat) : Played := ⟨[], [], some now, .faulted .cancelled⟩

/-- How an ending goes. -/
def playEnding (stopAt : Option Nat) (now : Nat) : Ending → Played
  | .waiting =>
    match stopAt with
    | some stop => (endStopped (max now stop)).after (Pause.upTo now stop)
    | none => ⟨[], [.forever], none, .waiting⟩
  | ending => ⟨[], [], some now, ending⟩

/-- How actions go from a millisecond on, when the request to stop comes at `stopAt`, if
ever. -/
def play (stopAt : Option Nat) (ending : Ending) : Nat → List Action → Played
  | now, [] => playEnding stopAt now ending
  | now, .write text :: rest => (play stopAt ending now rest).behind now text
  | now, .yield :: rest =>
    let further := if stopDue stopAt now then endStopped now else play stopAt ending now rest
    further.after [.turn]
  | now, .wait ms :: rest =>
    let wake := now + waitOf ms
    match stopAt.filter (· ≤ wake) with
    | some stop => (endStopped (max now stop)).after (Pause.upTo now stop)
    | none => (play stopAt ending wake rest).after (Pause.upTo now wake)
  | now, .block ms :: rest =>
    (play stopAt ending (now + ms) rest).after (Pause.upTo now (now + ms))

/-- How an activity goes. -/
def Activity.play (a : Activity) (stopAt : Option Nat) (start : Nat) : Played :=
  ScriptHost.play stopAt a.ending start a.actions

/-- What became of a supervised run. -/
inductive RunOutcome where
  | completed (completion : Completion)
  | faulted (fault : Fault)
  | timedOut (limitMs : Nat)
  | cancelled
  | memoryExceeded (usage limit : Nat)
deriving DecidableEq

namespace RunOutcome

def isCompleted : RunOutcome → Bool
  | completed _ => true
  | _ => false

/-- The outcome of a run that ended by itself. -/
def ofEnding : Ending → RunOutcome
  | .completed completion => completed completion
  | .faulted fault => faulted fault
  | .broken => faulted .broken
  | .waiting => faulted .cancelled

end RunOutcome

/-- A use of memory beyond the limit: when it is seen, counted from the start of the run,
the use, and the limit. -/
structure Breach where
  afterMs : Nat
  usage : Nat
  limit : Nat
deriving DecidableEq, Repr

/-- What a run is watched for. -/
structure Limits where
  /-- The millisecond at which the caller aborts. -/
  abortAt : Option Nat
  /-- The longest time that the run may take, in milliseconds. -/
  timeout : Option Nat
  breach : Option Breach

/-- No limits. -/
def Limits.none : Limits := ⟨.none, .none, .none⟩

/-- A reason to stop a run: the millisecond at which it comes, and the outcome it gives. -/
structure Stop where
  ms : Nat
  outcome : RunOutcome

/-- The earlier of two reasons; of two in the same millisecond, the first. -/
def Stop.earlier (a b : Stop) : Stop := if b.ms < a.ms then b else a

/-- The reasons to stop a run that starts at `start`, the weightiest first. -/
def Limits.stops (l : Limits) (start : Nat) : List Stop :=
  (l.abortAt.map fun ms => ⟨max start ms, .cancelled⟩).toList ++
    (l.timeout.map fun ms => ⟨start + waitOf ms, .timedOut ms⟩).toList ++
    (l.breach.map fun b => ⟨start + b.afterMs, .memoryExceeded b.usage b.limit⟩).toList

/-- The first reason to stop a run. -/
def Limits.firstStop (l : Limits) (start : Nat) : Option Stop :=
  match l.stops start with
  | [] => .none
  | s :: rest => some (rest.foldl Stop.earlier s)

/-- A run that ends at a millisecond is over before it can be stopped. In the millisecond of its
end a limit still stops it, but an abort comes too late. -/
def Stop.isLate (s : Stop) (finish : Nat) : Bool :=
  finish < s.ms || (finish == s.ms && s.outcome == .cancelled)

/-- How long a stopped run may take to wind down, in milliseconds. -/
def graceMs : Nat := 50

/-- Code that is stopped at a millisecond, and the pauses of the run from then on. -/
structure Halt where
  ms : Nat
  pauses : List Pause
deriving DecidableEq, Repr

/-- How code takes its turns: its pauses, and when it is stopped in them, if ever. Code that is
kept from starting has one turn, to be given up. -/
structure Course where
  pauses : List Pause
  halt : Option Halt
deriving DecidableEq, Repr

/-- A supervised run: its outcome, the texts written by the time it was over, when that was
(if ever), when the code really ends if it is still going on then, and how it takes its
turns. -/
structure Ran where
  outcome : RunOutcome
  written : List String
  finish : Option Nat
  lingersUntil : Option Nat
  course : Course

/-- A run that ended by itself. -/
def Ran.ofPlayed (p : Played) : Ran :=
  ⟨.ofEnding p.ending, p.written.map (·.2), p.finish, .none, ⟨p.pauses, none⟩⟩

/-- A run that a reason to stop kept from starting. -/
def Ran.unstarted (outcome : RunOutcome) (start : Nat) : Ran :=
  ⟨outcome, [], some start, none, ⟨[], none⟩⟩

/-- A run that was stopped, from how the stopped activity goes; `pauses` are those of the
activity left alone. -/
def Ran.ofStopped (s : Stop) (pauses : List Pause) (p : Played) : Ran :=
  let graceEnd := s.ms + graceMs
  let endMs := (p.finish.map fun finish => min (max s.ms finish) graceEnd).getD s.ms
  ⟨s.outcome, p.writtenBy endMs, some endMs, p.finish.filter (graceEnd < ·),
    ⟨pauses, some ⟨s.ms, Pause.upTo s.ms endMs⟩⟩⟩

/-- Run an activity under supervision. A reason to stop that is there at the start keeps the
code from starting. -/
def Activity.run (a : Activity) (limits : Limits) (start : Nat) : Ran :=
  let free := a.play none start
  match limits.firstStop start with
  | none => .ofPlayed free
  | some stop =>
    if stop.ms ≤ start then .unstarted stop.outcome start
    else if free.finish.any stop.isLate then .ofPlayed free
    else .ofStopped stop free.pauses (a.play (some stop.ms) start)

end ScriptHost
