import ScriptHost.Json.Basic

/-!
# Json with sorted keys

The members of every object in ascending order of their keys.
-/

namespace ScriptHost.Json

mutual

/-- The value with all its objects sorted. -/
def sorted : Json → Json
  | arr items => arr (sortedItems items)
  | obj members =>
    obj ((sortedMembers members).mergeSort fun a b => decide (a.1 ≤ b.1))
  | value => value

/-- The items, each with all its objects sorted. -/
def sortedItems : List Json → List Json
  | [] => []
  | item :: items => sorted item :: sortedItems items

/-- The members, each with all its objects sorted. -/
def sortedMembers : List (String × Json) → List (String × Json)
  | [] => []
  | (key, value) :: members => (key, sorted value) :: sortedMembers members

end

end ScriptHost.Json
