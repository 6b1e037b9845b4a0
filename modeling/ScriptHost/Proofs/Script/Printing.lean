import ScriptHost.Proofs.Guard.Spelling
import ScriptHost.Script.Syntax

/-!
# Printed scripts

A syntax tree is printed as tokens, with parentheses only where the operators around an operand
would take it apart: around one that binds less tightly, and to the right of an operator also around
one that binds alike. The tokens are written down with blanks and comments between them, and the
characters of a text as they are or behind a backslash.
-/

namespace ScriptHost.Script

/-! ## The tokens of a tree -/

/-- The words of a path with dots between them. -/
def Path.tokens (p : Path) : List Token :=
  .word p.head :: p.members.flatMap fun w => [.symbol .dot, .word w]

def Value.token : Value → Token
  | .null => .keyword .nothing
  | .bool true => .keyword .truth
  | .bool false => .keyword .falsity
  | .int n => .int n
  | .text s => .text s

def UnaryOp.symbol : UnaryOp → Symbol
  | negate => .minus
  | not => .bang

def BinaryOp.symbol : BinaryOp → Symbol
  | add => .plus
  | sub => .minus
  | mul => .star
  | div => .slash
  | rem => .percent
  | eq => .equal
  | ne => .notEqual
  | lt => .less
  | le => .lessEqual
  | gt => .greater
  | ge => .greaterEqual
  | and => .both
  | or => .either

def AssignOp.symbol : AssignOp → Symbol
  | set => .assign
  | add => .plusAssign
  | sub => .minusAssign

/-- How tightly the operators on top of an expression bind; more tightly than any binary operator if
there are none. -/
def Expr.precedence : Expr → Nat
  | .binary op _ _ _ => op.precedence
  | _ => 7

/-- The tokens of an operand that must bind more tightly than `floor`, with parentheses if it does
not. -/
def enclosed (floor precedence : Nat) (ts : List Token) : List Token :=
  if precedence ≤ floor then .symbol .openParen :: (ts ++ [.symbol .closeParen]) else ts

/-- Tokens one behind the other, with commas between them. -/
def separated : List (List Token) → List Token
  | [] => []
  | ts :: more => ts ++ more.flatMap fun ts => .symbol .comma :: ts

mutual

/-- The tokens of an expression. -/
def Expr.tokens : Expr → List Token
  | .literal value _ => [Value.token value]
  | .name path _ => path.tokens
  | .unary op operand _ => .symbol op.symbol :: enclosed 6 operand.precedence operand.tokens
  | .binary op left right _ =>
    enclosed (op.precedence - 1) left.precedence left.tokens ++
      .symbol op.symbol :: enclosed op.precedence right.precedence right.tokens
  | .call target args _ =>
    target.tokens ++
      .symbol .openParen :: (separated (tokensOfAll args) ++ [.symbol .closeParen])
  | .await task _ => .keyword .await :: enclosed 6 task.precedence task.tokens

/-- The tokens of each of several expressions. -/
def tokensOfAll : List Expr → List (List Token)
  | [] => []
  | expr :: exprs => expr.tokens :: tokensOfAll exprs

end

/-- The tokens of a statement, which end with a semicolon unless it gives the submission its
value. -/
def Stmt.tokens : Stmt → List Token
  | .usingNames names _ => .keyword .usingNames :: (names.tokens ++ [.symbol .semicolon])
  | .declare name init _ =>
    .keyword .var :: .word name :: .symbol .assign :: (init.tokens ++ [.symbol .semicolon])
  | .assign name op value _ =>
    .word name :: .symbol op.symbol :: (value.tokens ++ [.symbol .semicolon])
  | .throw exception message _ =>
    .keyword .throw :: .keyword .new ::
      (exception.tokens ++ .symbol .openParen :: ((message.map Expr.tokens).getD [] ++
        [.symbol .closeParen, .symbol .semicolon]))
  | .eval expr trailing => expr.tokens ++ if trailing then [] else [.symbol .semicolon]

/-! ## Trees that can be printed -/

/-- A word that is not a keyword. -/
def isIdentifier (name : String) : Bool :=
  match name.toList with
  | [] => false
  | c :: cs => Text.isWordStart c && cs.all Text.isWordPart && (Keyword.ofSpelling? name).isNone

def Path.isPrintable (p : Path) : Bool := isIdentifier p.head && p.members.all isIdentifier

/-- Numbers below zero have no literal. -/
def Value.isPrintable : Value → Bool
  | .int n => 0 ≤ n.toInt
  | _ => true

mutual

/-- Names are made of identifiers, and literals are not negative. -/
def Expr.isPrintable : Expr → Bool
  | .literal value _ => Value.isPrintable value
  | .name path _ => path.isPrintable
  | .unary _ operand _ => operand.isPrintable
  | .binary _ left right _ => left.isPrintable && right.isPrintable
  | .call target args _ => target.isPrintable && areAllPrintable args
  | .await task _ => task.isPrintable

def areAllPrintable : List Expr → Bool
  | [] => true
  | expr :: exprs => expr.isPrintable && areAllPrintable exprs

end

def Stmt.isPrintable : Stmt → Bool
  | .usingNames names _ => names.isPrintable
  | .declare name init _ => isIdentifier name && init.isPrintable
  | .assign name _ value _ => isIdentifier name && value.isPrintable
  | .throw exception message _ => exception.isPrintable && message.all Expr.isPrintable
  | .eval expr _ => expr.isPrintable

mutual

/-- The number of operators and calls on the longest way down to an operand. -/
def Expr.height : Expr → Nat
  | .literal _ _ | .name _ _ => 0
  | .unary _ operand _ => operand.height + 1
  | .binary _ left right _ => max left.height right.height + 1
  | .call _ args _ => heightAbove args
  | .await task _ => task.height + 1

/-- The height of a call of which these are the arguments. -/
def heightAbove : List Expr → Nat
  | [] => 0
  | expr :: exprs => max (expr.height + 1) (heightAbove exprs)

end

/-- The expressions in a statement. -/
def Stmt.exprs : Stmt → List Expr
  | .usingNames _ _ => []
  | .declare _ init _ => [init]
  | .assign _ _ value _ => [value]
  | .throw _ message _ => message.toList
  | .eval expr _ => [expr]

/-- Statements that can be printed and read again. -/
structure Printable (ss : List Stmt) : Prop where
  printable : ∀ s ∈ ss, s.isPrintable = true
  /-- Only the last one can do without a semicolon. -/
  closed : ∀ s ∈ ss.dropLast, ∀ e, s ≠ .eval e true
  height : ∀ s ∈ ss, ∀ e ∈ s.exprs, e.height ≤ 60

/-! ## Trees without places -/

mutual

/-- The expression with all its places forgotten. -/
def Expr.unplaced : Expr → Expr
  | .literal value _ => .literal value .first
  | .name path _ => .name path .first
  | .unary op operand _ => .unary op operand.unplaced .first
  | .binary op left right _ => .binary op left.unplaced right.unplaced .first
  | .call target args _ => .call target (unplacedAll args) .first
  | .await task _ => .await task.unplaced .first

def unplacedAll : List Expr → List Expr
  | [] => []
  | expr :: exprs => expr.unplaced :: unplacedAll exprs

end

/-- The statement with all its places forgotten. -/
def Stmt.unplaced : Stmt → Stmt
  | .usingNames names _ => .usingNames names .first
  | .declare name init _ => .declare name init.unplaced .first
  | .assign name op value _ => .assign name op value.unplaced .first
  | .throw exception message _ => .throw exception (message.map Expr.unplaced) .first
  | .eval expr trailing => .eval expr.unplaced trailing

/-! ## Tokens written down -/

/-- How characters stand inside a text literal. -/
inductive Escapes : List Char → List Char → Prop
  | nil : Escapes [] []
  | plain {c : Char} {cs ds : List Char} (hquote : c ≠ '"') (hfeed : c ≠ '\n')
      (hbackslash : c ≠ '\\') (h : Escapes cs ds) : Escapes (c :: cs) (c :: ds)
  | escaped {c e : Char} {cs ds : List Char} (he : Source.unescape e = some c)
      (h : Escapes cs ds) : Escapes (c :: cs) ('\\' :: e :: ds)

/-- How a token is written. -/
inductive Token.Spells : Token → List Char → Prop
  | word (name : String) : Spells (.word name) name.toList
  | int (n : Int64) : Spells (.int n) (Value.renderInt n).toList
  | text {s : String} {cs : List Char} (h : Escapes s.toList cs) :
      Spells (.text s) ('"' :: (cs ++ ['"']))
  | keyword (k : Keyword) : Spells (.keyword k) k.spelling.toList
  | symbol (s : Symbol) : Spells (.symbol s) s.spelling.toList

/-- The text writes the tokens, and between two of them blanks and closed comments, of which the
first is a blank. -/
inductive Writes : List Token → List Char → Prop
  | nil : Writes [] []
  | single {t : Token} {cs : List Char} (h : t.Spells cs) : Writes [t] cs
  | cons {t u : Token} {ts : List Token} {c : Char} {cs gap rest : List Char} (h : t.Spells cs)
      (hc : Text.isBlank c = true) (hgap : Guard.Gap gap) (hrest : Writes (u :: ts) rest) :
      Writes (t :: u :: ts) (cs ++ c :: (gap ++ rest))

/-- A character of a text, escaped if it has to be. -/
def escape : Char → List Char
  | '"' => ['\\', '"']
  | '\\' => ['\\', '\\']
  | '\n' => ['\\', 'n']
  | c => [c]

theorem escapes_escape (cs : List Char) : Escapes cs (cs.flatMap escape) := by
  induction cs with
  | nil => exact .nil
  | cons c cs ih =>
      rw [List.flatMap_cons, escape.eq_def]
      split
      · exact .escaped rfl ih
      · exact .escaped rfl ih
      · exact .escaped rfl ih
      · exact .plain ‹_› ‹_› ‹_› ih

/-- A token, with no more escapes than it needs. -/
def Token.spelling : Token → List Char
  | .word name => name.toList
  | .int n => (Value.renderInt n).toList
  | .text s => '"' :: (s.toList.flatMap escape ++ ['"'])
  | .keyword k => k.spelling.toList
  | .symbol s => s.spelling.toList

theorem Token.spells_spelling (t : Token) : t.Spells t.spelling := by
  cases t with
  | word name => exact .word name
  | int n => exact .int n
  | text s => exact .text (escapes_escape s.toList)
  | keyword k => exact .keyword k
  | symbol s => exact .symbol s

/-- Tokens with one blank between two of them. -/
def spaced : List Token → List Char
  | [] => []
  | [t] => t.spelling
  | t :: u :: ts => t.spelling ++ ' ' :: spaced (u :: ts)

/-- All tokens can be written. -/
theorem writes_spaced (ts : List Token) : Writes ts (spaced ts) := by
  fun_induction spaced ts with
  | case1 => exact .nil
  | case2 t => exact .single t.spells_spelling
  | case3 t u ts ih =>
      have hblank : Text.isBlank ' ' = true := by decide
      exact .cons t.spells_spelling hblank .nil ih

end ScriptHost.Script
