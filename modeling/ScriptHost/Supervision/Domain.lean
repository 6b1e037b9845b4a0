import ScriptHost.Supervision.Output
import ScriptHost.Supervision.Run
import ScriptHost.Supervision.Semaphore

/-!
# Units and their domain

Each run has a unit of its own, loaded from a domain that caps how many units are live. A
unit runs its code once. Released, it gives its place in the domain back, and counts as
degraded if its code is still going on.
-/

namespace ScriptHost

inductive DomainError where
  | unavailable
  | alreadyRun (generation : Nat)
  | stillRunning (generation : Nat)
deriving DecidableEq, Repr

namespace DomainError

def message : DomainError → String
  | unavailable => "isolation domain is closed and cannot load new units"
  | alreadyRun generation => "unit " ++ toString generation ++ " has already been run"
  | stillRunning generation =>
    "unit " ++ toString generation ++ " was released while its task was still running"

end DomainError

/-- A loaded unit. -/
structure LoadedUnit where
  generation : Nat
  /-- The code, until it is run. -/
  code : Option Activity
  output : Output
  /-- When code that did not stop in time really ends. -/
  lingersUntil : Option Nat

/-- A supervised run of a unit: the unit behind it, the outcome, when the run was over, if ever,
and how the code takes its turns. -/
structure UnitRun where
  loaded : LoadedUnit
  outcome : RunOutcome
  finish : Option Nat
  course : Course

/-- Run a unit's code, which is possible once. -/
def LoadedUnit.run (u : LoadedUnit) (limits : Limits) (start : Nat) :
    Except DomainError UnitRun :=
  match u.code with
  | none => .error (.alreadyRun u.generation)
  | some code =>
    let ran := code.run limits start
    .ok ⟨{ u with
      code := none
      output := u.output.writeAll ran.written
      lingersUntil := ran.lingersUntil }, ran.outcome, ran.finish, ran.course⟩

/-- The unit's code is still going on at a millisecond. -/
def LoadedUnit.isLingering (u : LoadedUnit) (ms : Nat) : Bool := u.lingersUntil.any (ms < ·)

/-- What a domain has done so far. -/
structure DomainStats where
  capacity : Nat
  available : Nat
  live : Nat
  loaded : Nat
  released : Nat
  degraded : Nat
deriving DecidableEq, Repr

structure Domain where
  capacity : Nat
  slots : Semaphore
  closed : Bool
  nextGeneration : Nat
  loaded : Nat
  released : Nat
  degraded : Nat
deriving DecidableEq, Repr

namespace Domain

/-- A fresh domain; it has room for at least one unit. -/
def new (maxUnits : Nat) : Domain :=
  let capacity := max maxUnits 1
  ⟨capacity, .new capacity, false, 1, 0, 0, 0⟩

def stats (d : Domain) : DomainStats :=
  ⟨d.capacity, d.slots.free, d.loaded - d.released, d.loaded, d.released, d.degraded⟩

/-- Take no more loads; loaded units are not affected. -/
def close (d : Domain) : Domain := { d with closed := true }

/-- Queue for a slot. -/
def queue (d : Domain) (t : Ticket) : Domain := { d with slots := d.slots.join t }

/-- Give up queueing. -/
def giveUp (d : Domain) (t : Ticket) : Domain := { d with slots := d.slots.leave t }

/-- How a load stands. -/
inductive Load where
  | granted (d : Domain) (u : LoadedUnit)
  | refused
  | waits

/-- Load a unit for one who queues: refused once the domain is closed, granted when a slot
is free and it is their turn. -/
def load (d : Domain) (t : Ticket) (code : Activity) (outputLimit : Nat) : Load :=
  if d.closed then .refused
  else if d.slots.mayEnter t then
    .granted
      { d with
        slots := d.slots.enter t
        nextGeneration := d.nextGeneration + 1
        loaded := d.loaded + 1 }
      ⟨d.nextGeneration, some code, .empty outputLimit, none⟩
  else .waits

/-- Release a unit at a millisecond. Its slot is free again in any case. -/
def release (d : Domain) (u : LoadedUnit) (ms : Nat) : Domain × Except DomainError Unit :=
  let lingering := u.isLingering ms
  ({ d with
      slots := d.slots.release
      released := d.released + 1
      degraded := if lingering then d.degraded + 1 else d.degraded },
    if lingering then .error (.stillRunning u.generation) else .ok ())

end Domain

end ScriptHost
