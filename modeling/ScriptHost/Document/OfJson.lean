import ScriptHost.Document.Node
import ScriptHost.Json.Basic

/-!
# Documents written as Json

Each value stands for one of a document. Of several members with one key the last holds.
-/

namespace ScriptHost.Json

mutual

/-- The document value that a Json value stands for. -/
def node : Json → Node
  | null => .null
  | bool b => .bool b
  | int n => .int n
  | real x => .real x
  | str s => .text s
  | arr items => .list (nodes items)
  | obj ms => .table (nodeMembers [] ms)

/-- The document values that Json values stand for. -/
def nodes : List Json → List Node
  | [] => []
  | item :: items => item.node :: nodes items

/-- Members added to those read before. -/
def nodeMembers (read : List (String × Node)) : List (String × Json) → List (String × Node)
  | [] => read
  | (key, value) :: ms => nodeMembers (setEntry key value.node read) ms

end

end ScriptHost.Json
