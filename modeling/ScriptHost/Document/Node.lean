import ScriptHost.Number.Double
import ScriptHost.Table
import ScriptHost.Text.Case

/-!
# Documents

The tree that a settings file stands for, in whatever format it is written. Its values are
read loosely: a number may be written as a text, a truth value as a number, and so on. What
cannot be meant is refused.
-/

namespace ScriptHost

inductive Node where
  | null
  | bool (b : Bool)
  | int (n : Int)
  | real (x : Double)
  | text (s : String)
  | list (items : List Node)
  | table (members : List (String × Node))

namespace Node

/-- The members of a table; anything else has none. -/
def members : Node → List (String × Node)
  | table ms => ms
  | _ => []

/-! ## Loose reading -/

/-- The truth value that a word stands for, in any case. -/
def wordTruth? (s : String) : Option Bool :=
  match Text.lowercase s with
  | "true" | "on" | "yes" => some true
  | "false" | "off" | "no" => some false
  | _ => none

/-- A truth value as a number. -/
def truthNumber (b : Bool) : Nat := if b then 1 else 0

/-- The unsigned number of sixty-four bits that is meant. -/
def unsigned? : Node → Option Nat
  | bool b => some (truthNumber b)
  | int n => if 0 ≤ n then some n.toNat else none
  | real x => some x.toUnsigned
  | text s => ((wordTruth? s).map truthNumber).or (Text.unsigned? s.toList)
  | _ => none

/-- The truth value that is meant. -/
def truth? : Node → Option Bool
  | bool b => some b
  | int n => some (n != 0)
  | real x => some !x.isZero
  | text "1" => some true
  | text "0" => some false
  | text s => wordTruth? s
  | _ => none

/-- The text that is meant. -/
def text? : Node → Option String
  | bool b => some (if b then "true" else "false")
  | int n => some (toString n)
  | real x => some x.render
  | text s => some s
  | _ => none

/-- The list of texts that is meant. -/
def texts? : Node → Option (List String)
  | list items => items.mapM text?
  | _ => none

/-- The name of one choice of several: a text, or a table with this name only. -/
def choice? : Node → Option String
  | text s => some s
  | table [(name, _)] => some name
  | _ => none

/-- The value under null, which stands for nothing. -/
def optional? {α : Type} (f : Node → Option α) : Node → Option (Option α)
  | null => some none
  | n => (f n).map some

/-! ## Sections -/

/-- The members of a section whose members have these names: those of a table by name, those
of a list by position. -/
def parts? (names : List String) : Node → Option (Table Node)
  | table ms => some ⟨ms⟩
  | list items => some ⟨names.zip items⟩
  | _ => none

end Node

/-- The value of a member, or what holds without one. -/
def Table.readOr {α : Type} (t : Table Node) (key : String) (f : Node → Option α) (default : α) :
    Option α :=
  match t.get? key with
  | some n => f n
  | none => some default

end ScriptHost
