/-!
# Waiting

Time counts in milliseconds. Whatever waits for a time wakes after a bound at the latest.
-/

namespace ScriptHost

/-- The longest wait there is: thirty years of three hundred and sixty-five days. -/
def longestWaitMs : Nat := 946080000000

/-- The milliseconds that a wait takes. -/
def waitOf (ms : Nat) : Nat := min ms longestWaitMs

theorem waitOf_le (ms : Nat) : waitOf ms ≤ longestWaitMs := Nat.min_le_right ..

end ScriptHost
