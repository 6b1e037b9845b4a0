import ScriptHost.Script.State

/-!
# Activities

What compiled code does when it runs, as a list of actions with an ending. Time passes only
while it waits or blocks; it looks at cancellation only where it gives up its turn or
waits.
-/

namespace ScriptHost

/-- An exception raised by running code. -/
structure Fault where
  kind : String
  message : String
deriving DecidableEq, Repr

namespace Fault

/-- The displayed form. -/
def render (f : Fault) : String := f.kind ++ ": " ++ f.message

/-- The fault of code that stops because it was asked to. -/
def cancelled : Fault := ⟨"OperationCanceledException", "The operation was canceled."⟩

/-- The fault reported for code that broke down. -/
def broken : Fault := ⟨"ExecutionEngineException", "the execution terminated unexpectedly"⟩

end Fault

/-- The value of a finished run, and what it leaves for the next submission. -/
structure Completion where
  value : Option Value
  continuation : Script.Continuation
deriving DecidableEq

inductive Action where
  | write (text : String)
  /-- Give up the turn, and go on unless asked to stop. -/
  | yield
  /-- Wait for some milliseconds, unless asked to stop. -/
  | wait (ms : Nat)
  /-- Keep the thread for some milliseconds, whether asked to stop or not. -/
  | block (ms : Nat)
deriving DecidableEq, Repr

inductive Ending where
  | completed (completion : Completion)
  | faulted (fault : Fault)
  /-- Wait until asked to stop. -/
  | waiting
  /-- Break down. -/
  | broken
deriving DecidableEq

/-- What code does when it runs. -/
structure Activity where
  actions : List Action
  ending : Ending
deriving DecidableEq

/-- The activity with actions in front. -/
def Activity.behind (a : Activity) (first : List Action) : Activity :=
  { a with actions := first ++ a.actions }

end ScriptHost
