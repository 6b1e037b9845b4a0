import ScriptHost.Policy
import ScriptHost.Supervision.Run

/-!
# Memory monitors

A monitor samples the memory used by the whole process at fixed intervals and compares it
with a ceiling. A ceiling of zero means that there is none.
-/

namespace ScriptHost

structure Monitor where
  /-- In bytes. -/
  ceiling : Nat
  /-- In microseconds. -/
  pollMicros : Nat
deriving DecidableEq, Repr

namespace Monitor

/-- The usual interval between samples. -/
def defaultPollMicros : Nat := 100000

/-- The shortest interval between samples. -/
def minPollMicros : Nat := 1000

def new (ceiling : Nat) : Monitor := ⟨ceiling, defaultPollMicros⟩

/-- A monitor without a ceiling. -/
def unlimited : Monitor := new 0

/-- The monitor that a policy asks for. -/
def ofPolicy (p : Policy) : Monitor := new p.effectiveMemoryLimit

/-- The monitor with another interval, which is at least the shortest. -/
def withPoll (m : Monitor) (micros : Nat) : Monitor :=
  { m with pollMicros := max micros minPollMicros }

/-- The milliseconds between samples, if there is a ceiling to compare them with. -/
def pollMs? (m : Monitor) : Option Nat :=
  if m.ceiling = 0 then none else some (m.pollMicros / 1000)

/-- A use of memory is above the ceiling. -/
def exceeds (m : Monitor) (usage : Nat) : Bool := 0 < m.ceiling && m.ceiling < usage

/-- A sample shows a use above the ceiling; a sample that could not be taken shows
nothing. -/
def isExceeded (m : Monitor) (sample : Option Nat) : Bool := sample.any m.exceeds

/-- The first breach among samples taken one interval apart from the start of a run on;
`index` counts the samples before. -/
def breachFrom (m : Monitor) (index : Nat) : List (Option Nat) → Option Breach
  | [] => none
  | sample :: samples =>
    match sample.filter m.exceeds with
    | some usage => some ⟨index * m.pollMicros / 1000, usage, m.ceiling⟩
    | none => breachFrom m (index + 1) samples

/-- The first breach among samples. -/
def firstBreach (m : Monitor) (samples : List (Option Nat)) : Option Breach :=
  m.breachFrom 0 samples

end Monitor

end ScriptHost
