import ScriptHost.Document.Path

/-!
# Laying documents over one another

A table laid over a table changes and adds members, at every depth; anything else takes the
place of what was there. The members of a whole document may have paths for keys.
-/

namespace ScriptHost.Node

mutual

/-- A value laid over another one. Without members, a table changes nothing but null. -/
def overlay (base : Node) : Node → Node
  | table [] =>
    match base with
    | null => table []
    | base => base
  | table (m :: ms) => table (overlayMembers base.members (m :: ms))
  | n => n

/-- Members laid over others, in order. -/
def overlayMembers (base : List (String × Node)) : List (String × Node) → List (String × Node)
  | [] => base
  | (key, n) :: ms =>
    overlayMembers (setEntry key (overlay ((base.lookup key).getD null) n) base) ms

end

/-- A document whose members' keys are taken as paths. -/
def expandPaths (members : List (String × Node)) : Node :=
  members.foldl (fun base m => base.alter (·.overlay m.2) (PathStep.ofKey m.1)) (table [])

end ScriptHost.Node
