import ScriptHost.Source.Location

/-!
# Diagnostics

Errors and warnings as callers see them: a stable code, a text, a severity and, when
known, a place. A diagnostic shows its place only when both line and column are known.
-/

namespace ScriptHost

inductive Severity where
  | error
  | warning
deriving DecidableEq, Repr

/-- The word that stands for a severity in a displayed diagnostic. -/
def Severity.label : Severity → String
  | .error => "error"
  | .warning => "warning"

structure Diagnostic where
  code : String
  message : String
  severity : Severity
  line : Option Nat
  column : Option Nat
deriving DecidableEq, Repr

namespace Diagnostic

/-- An error without a place. -/
def error (code message : String) : Diagnostic := ⟨code, message, .error, none, none⟩

/-- A warning without a place. -/
def warning (code message : String) : Diagnostic := ⟨code, message, .warning, none, none⟩

/-- The diagnostic with a place attached. -/
def placed (d : Diagnostic) (loc : Location) : Diagnostic :=
  { d with line := some loc.line, column := some loc.column }

/-- The diagnostic as an error, with its code and place kept. -/
def toError (d : Diagnostic) : Diagnostic := { d with severity := .error }

def isError (d : Diagnostic) : Bool := d.severity == .error

/-- The displayed form. -/
def render (d : Diagnostic) : String :=
  let body := d.severity.label ++ " " ++ d.code ++ ": " ++ d.message
  match d.line, d.column with
  | some line, some column => (Location.mk line column).render ++ ": " ++ body
  | _, _ => body

end Diagnostic

/-- The errors of a list of diagnostics, in order. -/
def errorsOf (ds : List Diagnostic) : List Diagnostic := ds.filter (·.isError)

/-- The warnings of a list of diagnostics, in order. -/
def warningsOf (ds : List Diagnostic) : List Diagnostic := ds.filter (!·.isError)

/-! ## The codes of the host's own diagnostics; a compiler has codes of its own -/

namespace Code

def sessionNotFound : String := "SESSION_NOT_FOUND"
def forbiddenApi : String := "FORBIDDEN_API"
def runtimeError : String := "RUNTIME_ERROR"
def timeout : String := "TIMEOUT"
def cancelled : String := "CANCELLED"
def memoryLimit : String := "MEMORY_LIMIT"
def packageNotFound : String := "PACKAGE_NOT_FOUND"
def stateReset : String := "STATE_RESET"
def isolationUnavailable : String := "ISOLATION_UNAVAILABLE"
def cleanupDegraded : String := "CLEANUP_DEGRADED"

end Code

end ScriptHost
