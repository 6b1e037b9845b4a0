import Mathlib.Algebra.GroupWithZero.Nat
import Mathlib.Algebra.Ring.Int.Defs
import ScriptHost.Script.Evaluation

/-!
# Exact values

What expressions mean when integers have any size. Operands are taken from left to right, the
right side of a connective only where the left one does not decide, division goes towards zero, and
a text has the length of its sixteen-bit units. A meaning comes with all calculations made on the
way to it, in order, since a calculation may have a result that no machine word holds, or none.

## Implementation notes

The meaning goes on behind a result that no word holds, as exact integers do. It stops only where a
calculation has no result at all, and where a value is not of the kind that is asked for.
-/

namespace ScriptHost.Script

/-- A value with an integer of any size. -/
inductive Exact where
  | null
  | bool (b : Bool)
  | int (n : Int)
  | text (s : String)
deriving DecidableEq

namespace Exact

def ofValue : Value → Exact
  | .null => null
  | .bool b => bool b
  | .int n => int n.toInt
  | .text s => text s

/-- The displayed form, in which null is empty. -/
def render : Exact → String
  | null => ""
  | bool b => if b then "True" else "False"
  | int n => toString n
  | text s => s

theorem render_ofValue (v : Value) : (ofValue v).render = v.render := by
  cases v with
  | bool b => cases b <;> rfl
  | _ => rfl

theorem ofValue_inj {a b : Value} : ofValue a = ofValue b ↔ a = b := by
  constructor
  · intro h
    cases a <;> cases b <;> simp_all [ofValue, Int64.toInt_inj]
  · exact congrArg ofValue

end Exact

/-! ## Calculations -/

/-- The number of sixteen-bit units of a text, two for each character beyond the first plane. -/
def wideUnits (s : String) : Nat :=
  (s.toList.map fun c => if c.toNat < 2 ^ 16 then 1 else 2).sum

/-- A calculation of an integer, with its operands. The length is that of a text, or of null. -/
inductive Calculation where
  | neg (a : Int)
  | add (a b : Int)
  | sub (a b : Int)
  | mul (a b : Int)
  | div (a b : Int)
  | rem (a b : Int)
  | max (a b : Int)
  | min (a b : Int)
  | abs (a : Int)
  | length (text : Option String)
deriving DecidableEq

namespace Calculation

/-- The exact result. Division goes towards zero, and there is none by zero; null has no length. -/
def result : Calculation → Option Int
  | neg a => some (-a)
  | add a b => some (a + b)
  | sub a b => some (a - b)
  | mul a b => some (a * b)
  | div a b => if b = 0 then none else some (a.tdiv b)
  | rem a b => if b = 0 then none else some (a.tmod b)
  | max a b => some (Max.max a b)
  | min a b => some (Min.min a b)
  | abs a => some a.natAbs
  | length text => text.map fun s => (wideUnits s : Int)

/-- The integer is one of sixty-four bits. -/
def IsWord (n : Int) : Prop := -2 ^ 63 ≤ n ∧ n < 2 ^ 63

instance (n : Int) : Decidable (IsWord n) := inferInstanceAs (Decidable (_ ∧ _))

/-- The remainder of the least word by minus one is refused, although it is zero. -/
def isRefused : Calculation → Bool
  | rem a b => a = -2 ^ 63 && b = -1
  | _ => false

/-- There is a result, a word holds it, and it is not refused. -/
def givesWord (c : Calculation) : Bool := c.result.any (fun n => decide (IsWord n)) && !c.isRefused

/-- What is wrong with a calculation that does not give a word. -/
def fault : Calculation → Fault
  | div _ b | rem _ b => if b = 0 then divisionByZero else overflow
  | abs _ => noAbsoluteValue
  | length none => nullReference
  | _ => overflow

end Calculation

/-- The calculations made on the way, in order, and what they come to if they come to an end. -/
structure Course (α : Type) where
  made : List Calculation
  outcome : Option α
deriving DecidableEq

namespace Course

variable {α β : Type}

/-- The first calculation on the way that does not give a word. -/
def firstWrong? (c : Course α) : Option Calculation := c.made.find? fun step => !step.givesWord

/-- There is no such value. -/
def undefined : Course α := ⟨[], none⟩

/-- The second course goes on from what the first one comes to. -/
def andThen (c : Course α) (f : α → Course β) : Course β :=
  match c.outcome with
  | none => ⟨c.made, none⟩
  | some a => ⟨c.made ++ (f a).made, (f a).outcome⟩

instance : Monad Course where
  pure a := ⟨[], some a⟩
  bind := andThen

/-- Make one calculation. -/
def number (c : Calculation) : Course Exact := ⟨[c], c.result.map .int⟩

/-- The integer that a course comes to. -/
def int (c : Course Exact) : Course Int := do
  match ← c with
  | .int n => return n
  | _ => undefined

/-- The truth value that a course comes to. -/
def bool (c : Course Exact) : Course Bool := do
  match ← c with
  | .bool b => return b
  | _ => undefined

end Course

/-! ## Meanings -/

/-- A binary operator on exact values. -/
def BinaryOp.exact : BinaryOp → Exact → Exact → Course Exact
  | .add, .int a, .int b => .number (.add a b)
  | .add, a, b => return .text (a.render ++ b.render)
  | .sub, .int a, .int b => .number (.sub a b)
  | .mul, .int a, .int b => .number (.mul a b)
  | .div, .int a, .int b => .number (.div a b)
  | .rem, .int a, .int b => .number (.rem a b)
  | .lt, .int a, .int b => return .bool (a < b)
  | .le, .int a, .int b => return .bool (a ≤ b)
  | .gt, .int a, .int b => return .bool (a > b)
  | .ge, .int a, .int b => return .bool (a ≥ b)
  | .eq, a, b => return .bool (a = b)
  | .ne, a, b => return .bool (a ≠ b)
  | _, _, _ => .undefined

def meaningOfLength : Value → Course Exact
  | .text s => .number (.length (some s))
  | .null => .number (.length none)
  | _ => .undefined

/-- The meaning of a name: a variable, or the length of one. -/
def meaningOfName (bindings : Table Binding) (path : Path) : Course Exact :=
  match bindings.get? path.head with
  | none => .undefined
  | some binding =>
    if path.members = [] then return .ofValue binding.value
    else if path.members = ["Length"] then meaningOfLength binding.value
    else .undefined

/-- The meaning of a call, with those of its arguments. Other methods give no value. -/
def meaningOfCall (target : Path) (args : List (Course Exact)) : Course Exact := do
  match Builtin.ofPath? target, args with
  | some .max, [first, second] =>
    let a ← first.int
    let b ← second.int
    .number (.max a b)
  | some .min, [first, second] =>
    let a ← first.int
    let b ← second.int
    .number (.min a b)
  | some .abs, [arg] =>
    let a ← arg.int
    .number (.abs a)
  | _, _ => .undefined

/-- The meaning of an expression where variables have the given values. -/
def meaning (bindings : Table Binding) : Expr → Course Exact
  | .literal value _ => return .ofValue value
  | .name path _ => meaningOfName bindings path
  | .unary .negate operand _ => do
    let a ← (meaning bindings operand).int
    .number (.neg a)
  | .unary .not operand _ => do
    let b ← (meaning bindings operand).bool
    return .bool (!b)
  | .binary .and left right _ => do
    if ← (meaning bindings left).bool then return .bool (← (meaning bindings right).bool)
    else return .bool false
  | .binary .or left right _ => do
    if ← (meaning bindings left).bool then return .bool true
    else return .bool (← (meaning bindings right).bool)
  | .binary op left right _ => do
    let a ← meaning bindings left
    let b ← meaning bindings right
    op.exact a b
  | .call target args _ => meaningOfCall target (args.map (meaning bindings))
  | .await _ _ => .undefined

end ScriptHost.Script
