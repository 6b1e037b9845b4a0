import ScriptHost.Diagnostic
import ScriptHost.Package.Reference
import ScriptHost.Text.Blank
import ScriptHost.Value

/-!
# Requests and replies

What callers ask of a host, and what they get back. Failures never escape in another way
than as diagnostics of the reply.
-/

namespace ScriptHost

/-- The session that an id asks for: none if it is blank, else the id without the blanks
around it. -/
def requestedSession (id : Option String) : Option String :=
  (id.map Text.trim).filter (· ≠ "")

/-- A request to run a source text. -/
structure Request where
  source : String
  session : Option String
  /-- Packages to attach to the session first. -/
  packages : List Reference
  /-- Keep the session, and what the run leaves, after the reply. -/
  persist : Bool
deriving DecidableEq, Repr

/-- The reply to a request. -/
structure Reply where
  success : Bool
  value : Option Value
  output : String
  errors : List Diagnostic
  warnings : List Diagnostic
  /-- The session that the request ran in, unless it was one for this request only. -/
  session : Option String
  cleanupDegraded : Bool
deriving DecidableEq, Repr

namespace Reply

/-- The reply to a request that failed with the given diagnostics. -/
def failure (ds : List Diagnostic) : Reply :=
  ⟨false, none, "", errorsOf ds, warningsOf ds, none, false⟩

/-- The request succeeded, and there is no error. -/
def isSuccess (r : Reply) : Bool := r.success && r.errors.isEmpty

/-- All diagnostics, errors first. -/
def diagnostics (r : Reply) : List Diagnostic := r.errors ++ r.warnings

/-- An error has the given code. -/
def hasError (r : Reply) (code : String) : Bool := r.errors.any (·.code == code)

/-- A warning has the given code. -/
def hasWarning (r : Reply) (code : String) : Bool := r.warnings.any (·.code == code)

end Reply

/-- The reply to a request to compile only. -/
structure Verdict where
  isValid : Bool
  errors : List Diagnostic
  warnings : List Diagnostic
deriving DecidableEq, Repr

/-- The verdict on the given diagnostics. -/
def Verdict.ofDiagnostics (ds : List Diagnostic) : Verdict :=
  ⟨(errorsOf ds).isEmpty, errorsOf ds, warningsOf ds⟩

/-- The reply to a request to attach packages only. -/
structure LoadReply where
  success : Bool
  session : Option String
  added : List Reference
  errors : List Diagnostic
  warnings : List Diagnostic
deriving DecidableEq, Repr

/-- The reply to a reset. -/
inductive ResetReply where
  | session (id : String) (removed : Bool)
  | all (removed : Nat)
deriving DecidableEq, Repr

end ScriptHost
