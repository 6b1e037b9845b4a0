import ScriptHost.Number.Double

/-!
# Json values

Whole numbers are kept apart from doubles. The members of an object keep their order.
-/

namespace ScriptHost

inductive Json where
  | null
  | bool (b : Bool)
  | int (n : Int)
  | real (x : Double)
  | str (s : String)
  | arr (items : List Json)
  | obj (members : List (String × Json))
deriving Repr

namespace Json

/-- A number that is not negative. -/
def nat (n : Nat) : Json := int n

/-- The value, or null. -/
def ofOption {α : Type} (f : α → Json) : Option α → Json
  | some a => f a
  | none => null

/-- The list of texts. -/
def strings (xs : List String) : Json := arr (xs.map str)

/-- The member of an object under a key; of several, the last. -/
def member? (key : String) : Json → Option Json
  | obj members => members.reverse.lookup key
  | _ => none

end Json

end ScriptHost
