import ScriptHost.Text.Units

/-!
# Values

The values that a script computes: integers of sixty-four bits, texts, truth values and
null. The displayed form is what a script prints; null prints nothing.
-/

namespace ScriptHost

inductive Value where
  | null
  | bool (b : Bool)
  | int (n : Int64)
  | text (s : String)
deriving DecidableEq, Repr

namespace Value

/-- The name of a value's kind. -/
def kind : Value → String
  | null => "null"
  | bool _ => "bool"
  | int _ => "int"
  | text _ => "string"

/-- The displayed form of an integer. -/
def renderInt (n : Int64) : String := toString n.toInt

/-- The displayed form. -/
def render : Value → String
  | null => ""
  | bool true => "True"
  | bool false => "False"
  | int n => renderInt n
  | text s => s

/-- The integer as a sixty-four bit word, if it is one. -/
def wordOf? (n : Int) : Option Int64 :=
  if Int64.minValue.toInt ≤ n ∧ n ≤ Int64.maxValue.toInt then some (Int64.ofInt n) else none

end Value

end ScriptHost
