import ScriptHost.Diagnostic

/-!
# Violations

What a policy has against a request, with the entry of the policy that says so.
-/

namespace ScriptHost.Guard

inductive Violation where
  | forbiddenApi (pattern : String) (loc : Location)
  | blockedLibrary (library : String) (loc : Location)
  | blockedPath (path rule : String) (loc : Location)
  | pathNotAllowed (path : String) (loc : Location)
  | unscannable (reason : String) (loc : Location)
  | sourceTooLarge (size limit : Nat)
  | blockedPackage (package library : String)
deriving DecidableEq, Repr

namespace Violation

/-- The text of a violation. -/
def message : Violation → String
  | forbiddenApi pattern loc =>
    "reference to forbidden API '" ++ pattern ++ "' at " ++ loc.render
  | blockedLibrary library loc =>
    "reference to blocked library '" ++ library ++ "' at " ++ loc.render
  | blockedPath path rule loc =>
    "path '" ++ path ++ "' falls under blocked location '" ++ rule ++ "' at " ++ loc.render
  | pathNotAllowed path loc =>
    "path '" ++ path ++ "' is outside the allowed locations at " ++ loc.render
  | unscannable reason loc =>
    "source could not be scanned (" ++ reason ++ ") at " ++ loc.render
  | sourceTooLarge size limit =>
    "source is " ++ toString size ++ " bytes, exceeding the " ++ toString limit ++ " byte limit"
  | blockedPackage package library =>
    "package '" ++ package ++ "' is blocked by policy rule '" ++ library ++ "'"

/-- The policy entry, or the condition, that was met. -/
def matched : Violation → String
  | forbiddenApi pattern _ => pattern
  | blockedLibrary library _ => library
  | blockedPath _ rule _ => rule
  | pathNotAllowed path _ => path
  | unscannable reason _ => reason
  | sourceTooLarge _ _ => "max_source_bytes"
  | blockedPackage _ library => library

/-- Where the violation is, if it is at a place. -/
def loc? : Violation → Option Location
  | forbiddenApi _ loc | blockedLibrary _ loc | blockedPath _ _ loc | pathNotAllowed _ loc
  | unscannable _ loc => some loc
  | sourceTooLarge _ _ | blockedPackage _ _ => none

/-- The violation as an error. -/
def diagnostic (v : Violation) : Diagnostic :=
  let d := Diagnostic.error Code.forbiddenApi v.message
  match v.loc? with
  | some loc => d.placed loc
  | none => d

end Violation

end ScriptHost.Guard
