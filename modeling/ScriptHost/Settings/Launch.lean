import ScriptHost.Settings.Basic

/-!
# Launching

A host is launched from settings, with the permits of its domain. Then two timers are started: one
for its sweeper, and for each run under a ceiling one for the samples of the memory in use. Permits
are counted up to a bound and a timer has a period: whatever asks for more permits, or for a timer
without a period, crashes.
-/

namespace ScriptHost

/-- Why something crashes. -/
inductive Crash where
  | tooManyPermits
  | noPeriod
deriving DecidableEq, Repr

namespace Crash

def message : Crash → String
  | tooManyPermits =>
    "a semaphore may not have more than MAX_PERMITS permits (" ++ toString Semaphore.maxPermits ++
      ")"
  | noPeriod => "`period` must be non-zero."

/-- The exit code of a program that crashes. -/
def exitCode : Nat := 101

end Crash

/-- Some permits, and nobody waiting. -/
def Semaphore.launch (permits : Nat) : Except Crash Semaphore :=
  if permits ≤ maxPermits then .ok (.new permits) else .error .tooManyPermits

/-- A fresh domain, with its permits. -/
def Domain.launch (maxUnits : Nat) : Except Crash Domain := do
  let domain := new maxUnits
  let slots ← Semaphore.launch domain.capacity
  return { domain with slots := slots }

/-- The host that the settings ask for, with its domain. -/
def Settings.launch (s : Settings) (files : FileTree) (memorySamples : List (Option Nat))
    (store : SessionStore) : Except Crash Host := do
  let domain ← Domain.launch s.isolation.maxConcurrentUnits
  return { s.host files memorySamples store with domain := domain }

/-- A timer that goes off once in each period. -/
structure Ticker where
  /-- In microseconds. -/
  period : Nat
  period_pos : 0 < period
deriving DecidableEq, Repr

def Ticker.launch (period : Nat) : Except Crash Ticker :=
  if h : 0 < period then .ok ⟨period, h⟩ else .error .noPeriod

/-- The timer of the sweeper. -/
def Host.launchSweeper (h : Host) : Except Crash Ticker :=
  Ticker.launch (h.setup.tuning.sweepIntervalMs * 1000)

/-- The timer of the samples in a run, if there is a ceiling to compare them with. -/
def Monitor.launch (m : Monitor) : Except Crash (Option Ticker) :=
  if m.ceiling = 0 then .ok none else (Ticker.launch m.pollMicros).map some

end ScriptHost
