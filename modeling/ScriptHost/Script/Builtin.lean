import ScriptHost.Script.State
import ScriptHost.Script.Syntax

/-!
# Built-in methods

The methods that scripts can call, with their parameters and results, and the namespaces
that need no package.
-/

namespace ScriptHost.Script

inductive Builtin where
  | writeLine
  | write
  | max
  | min
  | abs
  | delay
deriving DecidableEq, Repr

namespace Builtin

def path : Builtin → Path
  | writeLine => ⟨"Console", ["WriteLine"]⟩
  | write => ⟨"Console", ["Write"]⟩
  | max => ⟨"Math", ["Max"]⟩
  | min => ⟨"Math", ["Min"]⟩
  | abs => ⟨"Math", ["Abs"]⟩
  | delay => ⟨"Task", ["Delay"]⟩

def all : List Builtin := [writeLine, write, max, min, abs, delay]

/-- The method called by a path. -/
def ofPath? (p : Path) : Option Builtin := all.find? (·.path == p)

/-- The parameter lists that a method can be called with. -/
def overloads : Builtin → List (List Ty)
  | writeLine => [[], [.object]]
  | write => [[.object]]
  | max | min => [[.int, .int]]
  | abs => [[.int]]
  | delay => [[.int]]

/-- The type of a call. -/
def result : Builtin → Ty
  | writeLine | write => .void
  | max | min | abs => .int
  | delay => .task

end Builtin

/-- The types whose members are the built-in methods. -/
def builtinTypes : List String := ["Console", "Math", "Task"]

/-- The namespaces available without a package. -/
def builtinNamespaces : List String :=
  ["System", "System.Collections.Generic", "System.IO", "System.Linq", "System.Text",
    "System.Threading", "System.Threading.Tasks"]

end ScriptHost.Script
