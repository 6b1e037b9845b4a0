import ScriptHost.Diagnostic
import ScriptHost.Package.Reference
import ScriptHost.Script.Builtin

/-!
# Names and types

Each submission is checked against the variables and namespaces defined before it. All
findings are reported, in the order of the text; an expression that was already found wrong
causes no further finding. A submission without errors comes with the types of its
declarations and with the answer whether it has a value.
-/

namespace ScriptHost.Script

/-- What the check finds. -/
inductive Finding where
  | repeatedUsing (names : String)
  | unknownType (name : String)
  | repeatedVariable (name : String)
  | untypedVariable (ty : Ty)
  | undefinedName (name : String)
  | cannotConvert (source target : Ty)
  | badArgument (position : Nat) (source target : Ty)
  | notAStatement
  | notAwaited
  | badOperand (op : UnaryOp) (ty : Ty)
  | badOperands (op : BinaryOp) (left right : Ty)
  | cannotAwait (ty : Ty)
  | noMember (ty : Ty) (member : String)
  | noStaticMember (type member : String)
  | noOverload (method : String) (arguments : Nat)
deriving DecidableEq, Repr

namespace Finding

def code : Finding → String
  | repeatedUsing _ => "CS0105"
  | unknownType _ => "CS0246"
  | repeatedVariable _ => "CS0128"
  | untypedVariable _ => "CS0815"
  | undefinedName _ => "CS0103"
  | cannotConvert _ _ => "CS0029"
  | badArgument _ _ _ => "CS1503"
  | notAStatement => "CS0201"
  | notAwaited => "CS4014"
  | badOperand _ _ => "CS0023"
  | badOperands _ _ _ => "CS0019"
  | cannotAwait _ => "CS4001"
  | noMember _ _ => "CS1061"
  | noStaticMember _ _ => "CS0117"
  | noOverload _ _ => "CS1501"

def message : Finding → String
  | repeatedUsing names =>
    "The using directive for '" ++ names ++ "' appeared previously in this namespace"
  | unknownType name =>
    "The type or namespace name '" ++ name ++
      "' could not be found (are you missing a using directive or an assembly reference?)"
  | repeatedVariable name =>
    "A local variable or function named '" ++ name ++ "' is already defined in this scope"
  | untypedVariable ty =>
    "Cannot assign " ++ ty.render ++ " to an implicitly-typed variable"
  | undefinedName name =>
    "The name '" ++ name ++ "' does not exist in the current context"
  | cannotConvert source target =>
    "Cannot implicitly convert type '" ++ source.render ++ "' to '" ++ target.render ++ "'"
  | badArgument position source target =>
    "Argument " ++ toString position ++ ": cannot convert from '" ++ source.render ++
      "' to '" ++ target.render ++ "'"
  | notAStatement =>
    "Only assignment, call, increment, decrement, await, and new object expressions " ++
      "can be used as a statement"
  | notAwaited =>
    "Because this call is not awaited, execution of the current method continues before " ++
      "the call is completed"
  | badOperand op ty =>
    "Operator '" ++ op.spelling ++ "' cannot be applied to operand of type '" ++
      ty.render ++ "'"
  | badOperands op left right =>
    "Operator '" ++ op.spelling ++ "' cannot be applied to operands of type '" ++
      left.render ++ "' and '" ++ right.render ++ "'"
  | cannotAwait ty => "Cannot await '" ++ ty.render ++ "'"
  | noMember ty member =>
    "'" ++ ty.render ++ "' does not contain a definition for '" ++ member ++ "'"
  | noStaticMember type member =>
    "'" ++ type ++ "' does not contain a definition for '" ++ member ++ "'"
  | noOverload method arguments =>
    "No overload for method '" ++ method ++ "' takes " ++ toString arguments ++ " arguments"

def severity : Finding → Severity
  | repeatedUsing _ | notAwaited => .warning
  | _ => .error

def diagnostic (f : Placed Finding) : Diagnostic :=
  { (Diagnostic.error f.val.code f.val.message).placed f.loc with severity := f.val.severity }

end Finding

/-- A type with the findings made on the way to it. -/
structure Judgement where
  ty : Ty
  findings : List (Placed Finding)

namespace Judgement

/-- A type without findings. -/
def clean (ty : Ty) : Judgement := ⟨ty, []⟩

/-- A finding that leaves no valid type. -/
def reject (f : Finding) (loc : Location) : Judgement := ⟨.invalid, [⟨f, loc⟩]⟩

/-- A judgement made after other findings. -/
def behind (j : Judgement) (earlier : List (Placed Finding)) : Judgement :=
  { j with findings := earlier ++ j.findings }

end Judgement

/-- The type that a binary operator gives on valid operands. -/
def BinaryOp.resultType : BinaryOp → Ty → Ty → Option Ty
  | .add, left, right =>
    if left = .int ∧ right = .int then some .int
    else if (left = .string ∧ right.hasValue) ∨ (right = .string ∧ left.hasValue) then
      some .string
    else none
  | .sub, .int, .int | .mul, .int, .int | .div, .int, .int | .rem, .int, .int => some .int
  | .lt, .int, .int | .le, .int, .int | .gt, .int, .int | .ge, .int, .int => some .bool
  | .eq, left, right | .ne, left, right =>
    if left.hasValue ∧ right.hasValue ∧
        (left = right ∨ (left = .null ∧ right = .string) ∨ (left = .string ∧ right = .null)) then
      some .bool
    else none
  | .and, .bool, .bool | .or, .bool, .bool => some .bool
  | _, _, _ => none

/-- The type of a binary operation. -/
def judgeBinary (op : BinaryOp) (left right : Ty) (loc : Location) : Judgement :=
  if left = .invalid ∨ right = .invalid then .clean .invalid
  else
    match op.resultType left right with
    | some ty => .clean ty
    | none => .reject (.badOperands op left right) loc

/-- The type that a unary operator wants, which is also the type it gives. -/
def UnaryOp.operandType : UnaryOp → Ty
  | .negate => .int
  | .not => .bool

/-- The type of a unary operation. -/
def judgeUnary (op : UnaryOp) (operand : Ty) (loc : Location) : Judgement :=
  if operand = .invalid then .clean .invalid
  else if operand = op.operandType then .clean operand
  else .reject (.badOperand op operand) loc

/-- The type of a name. -/
def judgeName (types : Table Ty) (path : Path) (loc : Location) : Judgement :=
  match types.get? path.head with
  | some ty =>
    if path.members.isEmpty then .clean ty
    else if ty = .string ∧ path.members = ["Length"] then .clean .int
    else if ty = .invalid then .clean .invalid
    else .reject (.noMember ty path.memberText) loc
  | none =>
    if !path.members.isEmpty && builtinTypes.contains path.head then
      .reject (.noStaticMember path.head path.memberText) loc
    else .reject (.undefinedName path.head) loc

/-- An argument of the second type can stand for a parameter of the first. -/
def takesArgument (parameter argument : Ty) : Bool :=
  if argument = .invalid then true
  else if parameter = .object then argument.hasValue
  else parameter.accepts argument

/-- The findings on arguments, counted from `position`. -/
def judgeArguments (position : Nat) : List Ty → List (Placed Ty) → List (Placed Finding)
  | parameter :: parameters, argument :: arguments =>
    (if takesArgument parameter argument.val then []
      else [⟨.badArgument position argument.val parameter, argument.loc⟩]) ++
      judgeArguments (position + 1) parameters arguments
  | _, _ => []

/-- The type of a call of a method that does not exist. -/
def judgeUnknownCall (types : Table Ty) (target : Path) (loc : Location) : Judgement :=
  if target.members.isEmpty then .reject (.undefinedName target.head) loc
  else if builtinTypes.contains target.head then
    .reject (.noStaticMember target.head target.memberText) loc
  else
    match types.get? target.head with
    | some ty => .reject (.noMember ty target.memberText) loc
    | none => .reject (.undefinedName target.head) loc

/-- The type of a call. -/
def judgeCall (types : Table Ty) (target : Path) (arguments : List (Placed Ty))
    (loc : Location) : Judgement :=
  match Builtin.ofPath? target with
  | none => judgeUnknownCall types target loc
  | some method =>
    match method.overloads.find? (·.length == arguments.length) with
    | none => .reject (.noOverload target.last arguments.length) loc
    | some parameters => ⟨method.result, judgeArguments 1 parameters arguments⟩

/-- The type of an awaited expression. -/
def judgeAwait (awaited : Ty) (loc : Location) : Judgement :=
  match awaited with
  | .task => .clean .void
  | .invalid => .clean .invalid
  | other => .reject (.cannotAwait other) loc

mutual

/-- The type of an expression where variables have the given types. -/
def judge (types : Table Ty) : Expr → Judgement
  | .literal value _ => .clean (.ofValue value)
  | .name path loc => judgeName types path loc
  | .unary op operand loc =>
    let inner := judge types operand
    (judgeUnary op inner.ty loc).behind inner.findings
  | .binary op left right loc =>
    let first := judge types left
    let second := judge types right
    (judgeBinary op first.ty second.ty loc).behind (first.findings ++ second.findings)
  | .call target args loc =>
    let (arguments, findings) := judgeAll types args
    (judgeCall types target arguments loc).behind findings
  | .await task loc =>
    let inner := judge types task
    (judgeAwait inner.ty loc).behind inner.findings

/-- The types of expressions, each at its place, with all findings. -/
def judgeAll (types : Table Ty) : List Expr → List (Placed Ty) × List (Placed Finding)
  | [] => ([], [])
  | expr :: exprs =>
    let first := judge types expr
    let (others, findings) := judgeAll types exprs
    (⟨first.ty, expr.loc⟩ :: others, first.findings ++ findings)

end

/-- What a statement is checked against. -/
structure Scope where
  types : Table Ty
  /-- The variables declared by the submission itself. -/
  declared : List String
  usings : NameSet
  references : List Reference

/-- The namespace `root`, or one inside it. -/
def isNamespaceUnder (root names : String) : Bool :=
  names == root || (root.toList ++ ['.']).isPrefixOf names.toList

/-- A namespace that is built in or that a package brings. -/
def Scope.hasNamespace (scope : Scope) (names : String) : Bool :=
  builtinNamespaces.contains names ||
    scope.references.any (isNamespaceUnder ·.name names)

/-- A checked statement: the scope behind it, the type of its value, and, for a
declaration, the type of the variable. -/
structure CheckedStmt where
  scope : Scope
  ty : Ty
  declared : Option Ty
  findings : List (Placed Finding)

/-- The name of an exception type ends in the word for it. -/
def isExceptionName (name : String) : Bool :=
  "Exception".toList.isSuffixOf name.toList

/-- The type of the variable that an initializer of the given type declares. -/
def judgeDeclared (ty : Ty) (loc : Location) : Judgement :=
  match ty with
  | .null | .void | .task => .reject (.untypedVariable ty) loc
  | other => .clean other

/-- The type that an assignment to a variable of type `target` would store. -/
def judgeStored (op : AssignOp) (target value : Ty) (loc : Location) : Judgement :=
  match op with
  | .set => .clean value
  | .add => judgeBinary .add target value loc
  | .sub => judgeBinary .sub target value loc

/-- Expressions that may stand as statements. -/
def Expr.isStatementForm : Expr → Bool
  | .call _ _ _ | .await _ _ => true
  | _ => false

/-- Check one statement. -/
def checkStmt (scope : Scope) : Stmt → CheckedStmt
  | .usingNames path loc =>
    let names := path.render
    if scope.usings.contains names then
      ⟨scope, .void, none, [⟨.repeatedUsing names, loc⟩]⟩
    else if !scope.hasNamespace names then
      ⟨scope, .void, none, [⟨.unknownType names, loc⟩]⟩
    else ⟨{ scope with usings := scope.usings.insert names }, .void, none, []⟩
  | .declare name init loc =>
    let value := judge scope.types init
    let repeated := if scope.declared.contains name then [⟨.repeatedVariable name, loc⟩] else []
    let defined := judgeDeclared value.ty init.loc
    ⟨{ scope with types := scope.types.set name defined.ty, declared := name :: scope.declared },
      .void, some defined.ty, value.findings ++ repeated ++ defined.findings⟩
  | .assign name op value loc =>
    let given := judge scope.types value
    match scope.types.get? name with
    | none => ⟨scope, .invalid, none, given.findings ++ [⟨.undefinedName name, loc⟩]⟩
    | some target =>
      let stored := judgeStored op target given.ty loc
      let misfit :=
        if target ≠ .invalid ∧ stored.ty ≠ .invalid ∧ !target.accepts stored.ty then
          [⟨.cannotConvert stored.ty target, value.loc⟩]
        else []
      ⟨scope, .void, none, given.findings ++ stored.findings ++ misfit⟩
  | .throw exception message loc =>
    let unknown :=
      if isExceptionName exception.last then []
      else [⟨.unknownType exception.render, loc⟩]
    let argument :=
      match message with
      | none => []
      | some expr =>
        let given := judge scope.types expr
        given.findings ++
          if given.ty = .invalid ∨ Ty.string.accepts given.ty then []
          else [⟨.badArgument 1 given.ty .string, expr.loc⟩]
    ⟨scope, .void, none, unknown ++ argument⟩
  | .eval expr trailing =>
    let value := judge scope.types expr
    let form := if trailing || expr.isStatementForm then [] else [⟨.notAStatement, expr.loc⟩]
    let pending := if value.ty = .task then [⟨.notAwaited, expr.loc⟩] else []
    ⟨scope, value.ty, none, value.findings ++ form ++ pending⟩

/-- A checked list of statements: the scope behind it, the types of its declarations in
order, the type of its last statement, and all findings. -/
structure CheckedList where
  scope : Scope
  declared : List Ty
  last : Ty
  findings : List (Placed Finding)

/-- Check statements one after the other; `last` is the type before the first. -/
def checkStmts (scope : Scope) (last : Ty) : List Stmt → CheckedList
  | [] => ⟨scope, [], last, []⟩
  | stmt :: stmts =>
    let first := checkStmt scope stmt
    let tail := checkStmts first.scope first.ty stmts
    { tail with
      declared := first.declared.toList ++ tail.declared
      findings := first.findings ++ tail.findings }

/-- A submission ready to run. -/
structure Program where
  statements : List Stmt
  /-- The types of the declarations, in order. -/
  declared : List Ty
  returnsValue : Bool

/-- The last statement is an expression without a semicolon. -/
def endsInTrailing (statements : List Stmt) : Bool :=
  match statements.getLast? with
  | some (.eval _ trailing) => trailing
  | _ => false

/-- The scope in which a submission starts. -/
def Scope.ofState (prior : State) (references : List Reference) : Scope :=
  ⟨prior.bindings.mapEntries (·.ty), [], prior.usings, references⟩

/-- Check a submission against the state before it. Without an error it gives the program
and the warnings, else all findings. -/
def check (statements : List Stmt) (prior : State) (references : List Reference) :
    Except (List (Placed Finding)) (Program × List (Placed Finding)) :=
  let checked := checkStmts (.ofState prior references) .void statements
  if checked.findings.any (·.val.severity == .error) then .error checked.findings
  else
    .ok (⟨statements, checked.declared, endsInTrailing statements && checked.last.hasValue⟩,
      checked.findings)

end ScriptHost.Script
