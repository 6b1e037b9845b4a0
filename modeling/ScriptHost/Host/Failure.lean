import ScriptHost.Guard.Violation
import ScriptHost.Session.Registry
import ScriptHost.Supervision.Domain

/-!
# Failures before a run

Why a request stops before its code runs, and the diagnostics that tell the caller.
-/

namespace ScriptHost

inductive Failure where
  | session (e : NotFound)
  | guard (v : Guard.Violation)
  | compilation (ds : List Diagnostic)
  /-- None of the packages asked for could be resolved. -/
  | packages (ds : List Diagnostic)
  | isolation (e : DomainError)
  | cancelled
deriving DecidableEq, Repr

namespace Failure

/-- The failure in one line. -/
def message : Failure → String
  | session e => e.message
  | guard v => v.message
  | compilation ds => "compilation failed with " ++ toString ds.length ++ " diagnostic(s)"
  | packages _ => "none of the requested packages could be resolved"
  | isolation e => e.message
  | cancelled => "request was cancelled before execution started"

/-- The diagnostics of a failure. -/
def diagnostics : Failure → List Diagnostic
  | session e => [.error Code.sessionNotFound e.message]
  | guard v => [v.diagnostic]
  | compilation ds => ds
  | packages ds => ds.map (·.toError)
  | isolation e => [.error Code.isolationUnavailable e.message]
  | cancelled => [.error Code.cancelled "The request was cancelled before execution started"]

end Failure

/-- Stopping is cooperative: code that never gives up its turn is only left alone. -/
def unyieldingNote : String :=
  "The pipeline stopped waiting for the submission; code that never yields " ++
    "(a tight loop or a blocking call) may keep running until it exits"

/-- The error of a run that did not complete. -/
def RunOutcome.error? : RunOutcome → Option Diagnostic
  | .completed _ => none
  | .faulted fault => some (.error Code.runtimeError fault.render)
  | .timedOut limit =>
    some (.error Code.timeout
      ("Execution exceeded the time limit of " ++ toString limit ++ " ms. " ++ unyieldingNote))
  | .cancelled =>
    some (.error Code.cancelled ("Execution was cancelled by the caller. " ++ unyieldingNote))
  | .memoryExceeded usage limit =>
    some (.error Code.memoryLimit
      ("Memory usage of " ++ toString usage ++ " bytes exceeded the limit of " ++
        toString limit ++ " bytes"))

/-- The warning on a reply whose code did not stop when asked to. -/
def degradedWarning : Diagnostic :=
  .warning Code.cleanupDegraded
    "The submission did not stop when asked and may still be running on a worker thread"

/-- The warning on a session whose state was dropped because packages were added. -/
def stateResetWarning (added : List Reference) : Diagnostic :=
  .warning Code.stateReset
    ("Adding " ++ ", ".intercalate (added.map (·.render)) ++
      " reset the session state; variables from earlier submissions are no longer defined")

end ScriptHost
