import ScriptHost.Diagnostic
import ScriptHost.Script.Syntax
import ScriptHost.Script.Token

/-!
# Reading statements

Tokens are read into statements by recursive descent with operator precedence. Nesting is
limited: the room left for it shrinks on the way down and bounds the descent. After a
syntax error reading goes on behind the next semicolon, so each statement reports at most
one error.
-/

namespace ScriptHost.Script

/-- What is wrong with a statement. -/
inductive SyntaxError where
  | identifierExpected
  | initializerExpected
  | newExpected
  | openParenExpected
  | closeParenExpected
  | semicolonExpected
  /-- No expression starts with this token, or with the end of the text. -/
  | invalidTerm (found : Option Token)
  | tooDeep
deriving DecidableEq, Repr

namespace SyntaxError

def code : SyntaxError → String
  | identifierExpected => "CS1001"
  | initializerExpected => "CS0818"
  | newExpected => "CS1525"
  | openParenExpected => "CS1003"
  | closeParenExpected => "CS1026"
  | semicolonExpected => "CS1002"
  | invalidTerm _ => "CS1525"
  | tooDeep => "CS8078"

def message : SyntaxError → String
  | identifierExpected => "Identifier expected"
  | initializerExpected => "Implicitly-typed variables must be initialized"
  | newExpected => "new expected"
  | openParenExpected => "( expected"
  | closeParenExpected => ") expected"
  | semicolonExpected => "; expected"
  | invalidTerm found =>
    "Invalid expression term '" ++ (found.map Token.label).getD "end of input" ++ "'"
  | tooDeep => "An expression is too long or complex to compile"

def diagnostic (e : Placed SyntaxError) : Diagnostic :=
  (Diagnostic.error e.val.code e.val.message).placed e.loc

end SyntaxError

/-- The tokens still to be read, and the place of the end of the text. -/
structure Input where
  tokens : List (Placed Token)
  finish : Location

namespace Input

/-- The next token. -/
def peek (i : Input) : Option Token := i.tokens.head?.map (·.val)

/-- The place of the next token, or of the end. -/
def loc (i : Input) : Location :=
  match i.tokens with
  | [] => i.finish
  | t :: _ => t.loc

/-- The tokens behind the next semicolon. -/
def afterSemicolon : List (Placed Token) → List (Placed Token)
  | [] => []
  | t :: ts => if t.val = .symbol .semicolon then ts else afterSemicolon ts

/-- The input behind the next semicolon. -/
def synchronize (i : Input) : Input := { i with tokens := afterSemicolon i.tokens }

end Input

/-- A reader of tokens, which stops at the first error. -/
abbrev Reader := EStateM (Placed SyntaxError) Input

namespace Reader

/-- Stop with an error at the next token. -/
def fail {α : Type} (e : SyntaxError) : Reader α := do throw ⟨e, (← get).loc⟩

/-- Look at the next token. -/
def peek : Reader (Option Token) := do return (← get).peek

/-- The place of the next token. -/
def here : Reader Location := do return (← get).loc

/-- The number of tokens left. -/
def remaining : Reader Nat := do return (← get).tokens.length

/-- Pass over the next token. -/
def advance : Reader Unit := modify fun i => { i with tokens := i.tokens.tail }

/-- Pass over the next token if it is the given symbol, and tell whether it was. -/
def accept (s : Symbol) : Reader Bool := do
  if (← peek) = some (.symbol s) then
    advance
    return true
  else return false

/-- Pass over the given token, or stop with an error. -/
def expect (t : Token) (e : SyntaxError) : Reader Unit := do
  if (← peek) = some t then advance else fail e

/-- Read a word. -/
def word : Reader String := do
  match ← peek with
  | some (.word w) =>
    advance
    return w
  | _ => fail .identifierExpected

/-- The members that follow a word, the tokens behind them, and whether the last dot has a
word behind it. -/
def memberChain : List (Placed Token) → List String × List (Placed Token) × Bool
  | ⟨.symbol .dot, _⟩ :: ⟨.word w, _⟩ :: ts =>
    let (ws, rest, complete) := memberChain ts
    (w :: ws, rest, complete)
  | ⟨.symbol .dot, _⟩ :: ts => ([], ts, false)
  | ts => ([], ts, true)

/-- Read a word and the members that follow it. -/
def path : Reader Path := do
  let head ← word
  let input ← get
  let (members, rest, complete) := memberChain input.tokens
  set { input with tokens := rest }
  if complete then return ⟨head, members⟩ else fail .identifierExpected

end Reader

/-- The binary operator that a token stands for. -/
def BinaryOp.ofToken? : Token → Option BinaryOp
  | .symbol .plus => some .add
  | .symbol .minus => some .sub
  | .symbol .star => some .mul
  | .symbol .slash => some .div
  | .symbol .percent => some .rem
  | .symbol .equal => some .eq
  | .symbol .notEqual => some .ne
  | .symbol .less => some .lt
  | .symbol .lessEqual => some .le
  | .symbol .greater => some .gt
  | .symbol .greaterEqual => some .ge
  | .symbol .both => some .and
  | .symbol .either => some .or
  | _ => none

/-- The literal that a token stands for. -/
def Value.ofToken? : Token → Option Value
  | .int n => some (.int n)
  | .text s => some (.text s)
  | .keyword .truth => some (.bool true)
  | .keyword .falsity => some (.bool false)
  | .keyword .nothing => some .null
  | _ => none

namespace Reader

/-- Extend `left` by the operators that bind more tightly than `floor`. There are at most as
many as there are tokens left, which is the first number. -/
def operators (operand : Nat → Reader Expr) (floor : Nat) : Nat → Expr → Reader Expr
  | 0, left => return left
  | limit + 1, left => do
    match (← peek).bind BinaryOp.ofToken? with
    | none => return left
    | some op =>
      if op.precedence ≤ floor then return left
      else
        let loc ← here
        advance
        let right ← operand op.precedence
        operators operand floor limit (.binary op left right loc)

/-- Read the arguments that follow the first, each behind a comma. -/
def moreArguments (argument : Reader Expr) : Nat → Reader (List Expr)
  | 0 => return []
  | limit + 1 => do
    if ← accept .comma then
      let first ← argument
      return first :: (← moreArguments argument limit)
    else return []

/-- Read the arguments of a call up to the closing parenthesis. -/
def arguments (argument : Reader Expr) : Reader (List Expr) := do
  if (← peek) = some (.symbol .closeParen) then return []
  else
    let first ← argument
    return first :: (← moreArguments argument (← remaining))

/-- Read a literal, a name, a call, or an expression in parentheses. -/
def primary (argument inner : Reader Expr) : Reader Expr := do
  let loc ← here
  let next ← peek
  match next.bind Value.ofToken? with
  | some value =>
    advance
    return .literal value loc
  | none =>
    match next with
    | some (.symbol .openParen) =>
      advance
      let expr ← inner
      expect (.symbol .closeParen) .closeParenExpected
      return expr
    | some (.word _) =>
      let target ← path
      if ← accept .openParen then
        let args ← arguments argument
        expect (.symbol .closeParen) .closeParenExpected
        return .call target args loc
      else return .name target loc
    | other => fail (.invalidTerm other)

mutual

/-- Read an expression whose operators bind more tightly than `floor`. -/
def binary : Nat → Nat → Reader Expr
  | 0, _ => fail .tooDeep
  | room + 1, floor => do
    let left ← unary room
    operators (binary room) floor (← remaining) left

/-- Read an operand with the unary operators in front of it. -/
def unary : Nat → Reader Expr
  | 0 => fail .tooDeep
  | room + 1 => do
    let loc ← here
    match ← peek with
    | some (.symbol .minus) =>
      advance
      return .unary .negate (← unary room) loc
    | some (.symbol .bang) =>
      advance
      return .unary .not (← unary room) loc
    | some (.keyword .await) =>
      advance
      return .await (← unary room) loc
    | _ =>
      primary (binary room 0) (match room with | 0 => fail .tooDeep | less + 1 => binary less 0)

end

/-- The deepest nesting of expressions that is read. -/
def maxNesting : Nat := 256

/-- Read an expression. -/
def expression : Reader Expr := binary maxNesting 0

/-- Pass over the semicolon that ends a statement. -/
def semicolon : Reader Unit := expect (.symbol .semicolon) .semicolonExpected

/-- The assignment that the token behind a word stands for. -/
def assignOp? (i : Input) : Option AssignOp :=
  match i.tokens with
  | _ :: ⟨.symbol .assign, _⟩ :: _ => some .set
  | _ :: ⟨.symbol .plusAssign, _⟩ :: _ => some .add
  | _ :: ⟨.symbol .minusAssign, _⟩ :: _ => some .sub
  | _ => none

/-- Read an expression statement; at the end of the text it needs no semicolon. -/
def evaluation : Reader Stmt := do
  let expr ← expression
  if ← accept .semicolon then return .eval expr false
  else if (← peek) = none then return .eval expr true
  else fail .semicolonExpected

/-- Read a statement. -/
def statement : Reader Stmt := do
  let loc ← here
  match ← peek with
  | some (.keyword .usingNames) =>
    advance
    let names ← path
    semicolon
    return .usingNames names loc
  | some (.keyword .var) =>
    advance
    let name ← word
    expect (.symbol .assign) .initializerExpected
    let init ← expression
    semicolon
    return .declare name init loc
  | some (.keyword .throw) =>
    advance
    expect (.keyword .new) .newExpected
    let exception ← path
    expect (.symbol .openParen) .openParenExpected
    let message ←
      if (← peek) = some (.symbol .closeParen) then pure none else some <$> expression
    expect (.symbol .closeParen) .closeParenExpected
    semicolon
    return .throw exception message loc
  | some (.word name) =>
    match assignOp? (← get) with
    | some op =>
      advance
      advance
      let value ← expression
      semicolon
      return .assign name op value loc
    | none => evaluation
  | _ => evaluation

end Reader

/-- The statements read and the errors met, each in order. -/
structure Parsed where
  statements : List Stmt
  errors : List (Placed SyntaxError)

/-- Read statements until the input ends. Each takes at least one token, so there are at
most as many as the first number, the number of tokens. -/
def parseFrom : Nat → Input → Parsed
  | 0, _ => ⟨[], []⟩
  | limit + 1, input =>
    match input.tokens with
    | [] => ⟨[], []⟩
    | t :: ts =>
      if t.val = .symbol .semicolon then parseFrom limit { input with tokens := ts }
      else
        match Reader.statement input with
        | .ok stmt rest =>
          let tail := parseFrom limit rest
          ⟨stmt :: tail.statements, tail.errors⟩
        | .error e rest =>
          let tail := parseFrom limit rest.synchronize
          ⟨tail.statements, e :: tail.errors⟩

/-- The statements that the tokens stand for, or all syntax errors. -/
def parse (tokens : List (Placed Token)) (finish : Location) :
    Except (List (Placed SyntaxError)) (List Stmt) :=
  let parsed := parseFrom tokens.length ⟨tokens, finish⟩
  if parsed.errors.isEmpty then .ok parsed.statements else .error parsed.errors

end ScriptHost.Script
