import ScriptHost.Script.Typing
import ScriptHost.Supervision.Activity

/-!
# Running scripts

Expressions are evaluated from left to right with checked integers of sixty-four bits.
Statements turn into the actions of an activity: each gives up its turn first, then writes
what its expressions write, and may wait. A fault discards what the submission defined.
-/

namespace ScriptHost.Script

/-! ## The faults of the language -/

def divisionByZero : Fault := ⟨"DivideByZeroException", "Attempted to divide by zero."⟩

def overflow : Fault := ⟨"OverflowException", "Arithmetic operation resulted in an overflow."⟩

/-- The least integer has no absolute value. -/
def noAbsoluteValue : Fault :=
  ⟨"OverflowException", "Negating the minimum value of a twos complement number is invalid."⟩

def nullReference : Fault :=
  ⟨"NullReferenceException", "Object reference not set to an instance of an object."⟩

/-- A time to wait for that is negative, and not the one that stands for no end. -/
def delayOutOfRange : Fault :=
  ⟨"ArgumentOutOfRangeException",
    "The value needs to be either -1 (signifying an infinite timeout), 0 or a positive integer."⟩

/-- A step that the check of names and types should have ruled out. -/
def invalidOperation (detail : String) : Fault := ⟨"InvalidOperationException", detail⟩

/-- The message of an exception thrown without one. -/
def defaultMessage (kind : String) : String :=
  "Exception of type 'System." ++ kind ++ "' was thrown."

/-! ## Expressions -/

/-- A computation that may fault and that collects the texts it writes. -/
abbrev Eval := EStateM Fault (List String)

namespace Eval

/-- Add a text to those written. -/
def write (text : String) : Eval Unit := modify (· ++ [text])

/-- Go on with a result, or fault. -/
def ofExcept {α : Type} : Except Fault α → Eval α
  | .ok a => return a
  | .error fault => throw fault

/-- The integer that a computation gives. -/
def int (e : Eval Value) : Eval Int64 := do
  match ← e with
  | .int n => return n
  | other => throw (invalidOperation ("expected int, found " ++ other.kind))

/-- The truth value that a computation gives. -/
def bool (e : Eval Value) : Eval Bool := do
  match ← e with
  | .bool b => return b
  | other => throw (invalidOperation ("expected bool, found " ++ other.kind))

end Eval

/-- The exact integer if it has sixty-four bits, else an overflow. -/
def checkedInt (n : Int) : Except Fault Value :=
  match Value.wordOf? n with
  | some word => .ok (.int word)
  | none => .error overflow

/-- A binary operator on values. -/
def BinaryOp.apply (op : BinaryOp) (left right : Value) : Except Fault Value :=
  match op, left, right with
  | .add, .int a, .int b => checkedInt (a.toInt + b.toInt)
  | .add, a, b => .ok (.text (a.render ++ b.render))
  | .sub, .int a, .int b => checkedInt (a.toInt - b.toInt)
  | .mul, .int a, .int b => checkedInt (a.toInt * b.toInt)
  | .div, .int a, .int b =>
    if b = 0 then .error divisionByZero else checkedInt (a.toInt.tdiv b.toInt)
  | .rem, .int a, .int b =>
    if b = 0 then .error divisionByZero
    else if a = Int64.minValue ∧ b = -1 then .error overflow
    else checkedInt (a.toInt.tmod b.toInt)
  | .lt, .int a, .int b => .ok (.bool (a < b))
  | .le, .int a, .int b => .ok (.bool (a ≤ b))
  | .gt, .int a, .int b => .ok (.bool (b < a))
  | .ge, .int a, .int b => .ok (.bool (b ≤ a))
  | .eq, a, b => .ok (.bool (a = b))
  | .ne, a, b => .ok (.bool (a ≠ b))
  | op, a, b =>
    .error (invalidOperation
      ("operator '" ++ op.spelling ++ "' on " ++ a.kind ++ " and " ++ b.kind))

/-- The variable with the given name. -/
def lookup (bindings : Table Binding) (name : String) : Except Fault Binding :=
  match bindings.get? name with
  | some binding => .ok binding
  | none => .error (invalidOperation ("'" ++ name ++ "' is not bound"))

/-- The length of a text in sixteen-bit units. -/
def lengthOf : Value → Except Fault Value
  | .text s => .ok (.int (Int64.ofNat (Text.unitCount s)))
  | .null => .error nullReference
  | other => .error (invalidOperation (other.kind ++ " has no Length"))

/-- The value of a name. -/
def evalName (bindings : Table Binding) (path : Path) : Except Fault Value :=
  if path.members.isEmpty then (·.value) <$> lookup bindings path.head
  else if path.members = ["Length"] then do lengthOf (← lookup bindings path.head).value
  else .error (invalidOperation ("unsupported member access '" ++ path.render ++ "'"))

/-- A call, with the computations of its arguments. -/
def evalCall (target : Path) (args : List (Eval Value)) : Eval Value := do
  match Builtin.ofPath? target, args with
  | some .writeLine, [] =>
    .write "\n"
    return .null
  | some .writeLine, [arg] =>
    let value ← arg
    .write value.render
    .write "\n"
    return .null
  | some .write, [arg] =>
    let value ← arg
    .write value.render
    return .null
  | some .max, [first, second] =>
    let a ← Eval.int first
    let b ← Eval.int second
    return .int (if a ≤ b then b else a)
  | some .min, [first, second] =>
    let a ← Eval.int first
    let b ← Eval.int second
    return .int (if a ≤ b then a else b)
  | some .abs, [arg] =>
    let a ← Eval.int arg
    if a = Int64.minValue then throw noAbsoluteValue
    else return .int (if a < 0 then -a else a)
  | some .delay, [arg] =>
    -- a wait that nobody awaits
    discard (Eval.int arg)
    return .null
  | _, _ => throw (invalidOperation ("no method '" ++ target.render ++ "'"))

/-- The value of an expression where variables have the given values. -/
def eval (bindings : Table Binding) : Expr → Eval Value
  | .literal value _ => return value
  | .name path _ => .ofExcept (evalName bindings path)
  | .unary .negate operand _ => do
    let a ← Eval.int (eval bindings operand)
    .ofExcept (checkedInt (-a.toInt))
  | .unary .not operand _ => do
    return .bool (!(← Eval.bool (eval bindings operand)))
  | .binary .and left right _ => do
    if ← Eval.bool (eval bindings left) then return .bool (← Eval.bool (eval bindings right))
    else return .bool false
  | .binary .or left right _ => do
    if ← Eval.bool (eval bindings left) then return .bool true
    else return .bool (← Eval.bool (eval bindings right))
  | .binary op left right _ => do
    let a ← eval bindings left
    let b ← eval bindings right
    .ofExcept (op.apply a b)
  | .call target args _ => evalCall target (args.map (eval bindings))
  | .await _ _ => throw (invalidOperation "await is only valid as a statement")

/-! ## Statements -/

/-- A run between two statements: the state so far, the types of the declarations to come,
and the value if there is one already. -/
structure Progress where
  state : State
  declared : List Ty
  value : Option Value

/-- What comes after a statement has done its writing. -/
inductive Turn where
  | goOn (next : Progress)
  | pause (ms : Nat) (next : Progress)
  | waitForStop

/-- The milliseconds to wait for an awaited expression; none if there is no end. -/
def evalAwait (bindings : Table Binding) (task : Expr) : Eval (Option Nat) := do
  match task with
  | .call target [ms] _ =>
    if target = Builtin.delay.path then
      let n ← Eval.int (eval bindings ms)
      if n = -1 then return none
      else if n < -1 then throw delayOutOfRange
      else return some n.toInt.toNat
    else throw (invalidOperation ("'" ++ target.render ++ "' is not awaitable"))
  | .call _ _ _ => throw (invalidOperation "Task.Delay takes one argument")
  | _ => throw (invalidOperation "only tasks can be awaited")

/-- The updated value of an assignment. -/
def AssignOp.apply : AssignOp → Value → Value → Except Fault Value
  | .set, _, value => .ok value
  | .add, current, value => BinaryOp.add.apply current value
  | .sub, current, value => BinaryOp.sub.apply current value

/-- Run one statement. -/
def runStmt (returnsValue : Bool) (p : Progress) : Stmt → Eval Turn
  | .usingNames path _ =>
    return .goOn { p with state.usings := p.state.usings.insert path.render }
  | .declare name init _ => do
    let value ← eval p.state.bindings init
    let ty := p.declared.head?.getD (.ofValue value)
    return .goOn { p with
      state.bindings := p.state.bindings.set name ⟨ty, value⟩
      declared := p.declared.tail }
  | .assign name op value _ => do
    let given ← eval p.state.bindings value
    let current ← Eval.ofExcept (lookup p.state.bindings name)
    let updated ← Eval.ofExcept (op.apply current.value given)
    return .goOn { p with
      state.bindings := p.state.bindings.set name ⟨current.ty, updated⟩ }
  | .throw exception message _ => do
    let kind := exception.last
    match message with
    | none => throw ⟨kind, defaultMessage kind⟩
    | some expr =>
      match ← eval p.state.bindings expr with
      | .null => throw ⟨kind, defaultMessage kind⟩
      | value => throw ⟨kind, value.render⟩
  | .eval (.await task _) _ => do
    match ← evalAwait p.state.bindings task with
    | some ms => return .pause ms p
    | none => return .waitForStop
  | .eval expr trailing => do
    let value ← eval p.state.bindings expr
    return .goOn (if trailing && returnsValue then { p with value := some value } else p)

/-- The activity of the statements that are left. -/
def runStmts (returnsValue : Bool) (p : Progress) : List Stmt → Activity
  | [] => ⟨[], .completed ⟨p.value, .script p.state⟩⟩
  | stmt :: stmts =>
    match runStmt returnsValue p stmt [] with
    | .ok (.goOn next) written =>
      (runStmts returnsValue next stmts).behind (.yield :: written.map .write)
    | .ok (.pause ms next) written =>
      (runStmts returnsValue next stmts).behind (.yield :: written.map .write ++ [.wait ms])
    | .ok .waitForStop written => ⟨.yield :: written.map .write, .waiting⟩
    | .error fault written => ⟨.yield :: written.map .write, .faulted fault⟩

/-- The activity of a program on the state before it. -/
def Program.activity (program : Program) (prior : State) : Activity :=
  runStmts program.returnsValue ⟨prior, program.declared, none⟩ program.statements

end ScriptHost.Script
