import ScriptHost.NameSet
import ScriptHost.Table
import ScriptHost.Value

/-!
# Script state

What the submissions of a session have defined so far: variables with their static types,
and the namespaces in use.
-/

namespace ScriptHost.Script

/-- Static types. -/
inductive Ty where
  | int
  | bool
  | string
  /-- The type of the null literal. -/
  | null
  | void
  | task
  /-- A parameter that takes every value. -/
  | object
  /-- The type of what was already found wrong. -/
  | invalid
deriving DecidableEq, Repr

namespace Ty

def render : Ty → String
  | int => "int"
  | bool => "bool"
  | string => "string"
  | null => "<null>"
  | void => "void"
  | task => "System.Threading.Tasks.Task"
  | object => "object"
  | invalid => "?"

/-- The type of a value by itself. -/
def ofValue : Value → Ty
  | .null => null
  | .bool _ => bool
  | .int _ => int
  | .text _ => string

/-- A target of the first type takes a value of the second. -/
def accepts (target source : Ty) : Bool :=
  target == source || (target == string && source == null)

/-- An expression of this type has a value. -/
def hasValue : Ty → Bool
  | void | task => false
  | _ => true

end Ty

/-- A variable: its static type and its value. -/
structure Binding where
  ty : Ty
  value : Value
deriving DecidableEq, Repr

/-- The variables and namespaces defined so far. -/
structure State where
  bindings : Table Binding
  usings : NameSet
deriving DecidableEq

/-- The state before the first submission. -/
def State.initial : State := ⟨.empty, .empty⟩

/-- What a finished run leaves for the next submission. A compiler reads only the states it
made itself; others are kept for it as they are. -/
inductive Continuation where
  | script (state : State)
  | foreign (mark : Int)
deriving DecidableEq

/-- The state to start from: the continuation if it is a script's, else the initial one. -/
def Continuation.startState : Option Continuation → State
  | some (.script state) => state
  | _ => .initial

end ScriptHost.Script
