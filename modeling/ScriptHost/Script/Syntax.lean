import ScriptHost.Value
import ScriptHost.Source.Location

/-!
# Syntax trees

Expressions and statements of the script language. A name is a path: a word, with the
members that are reached from it.
-/

namespace ScriptHost.Script

/-- A word followed by the members reached from it. -/
structure Path where
  head : String
  members : List String
deriving DecidableEq, Repr

namespace Path

/-- The members joined by dots. -/
def memberText (p : Path) : String := ".".intercalate p.members

/-- The path written with dots. -/
def render (p : Path) : String := ".".intercalate (p.head :: p.members)

/-- The last word of the path. -/
def last (p : Path) : String := p.members.getLastD p.head

end Path

inductive UnaryOp where
  | negate
  | not
deriving DecidableEq, Repr

def UnaryOp.spelling : UnaryOp → String
  | negate => "-"
  | not => "!"

inductive BinaryOp where
  | add
  | sub
  | mul
  | div
  | rem
  | eq
  | ne
  | lt
  | le
  | gt
  | ge
  | and
  | or
deriving DecidableEq, Repr

namespace BinaryOp

def spelling : BinaryOp → String
  | add => "+"
  | sub => "-"
  | mul => "*"
  | div => "/"
  | rem => "%"
  | eq => "=="
  | ne => "!="
  | lt => "<"
  | le => "<="
  | gt => ">"
  | ge => ">="
  | and => "&&"
  | or => "||"

/-- How tightly an operator binds. -/
def precedence : BinaryOp → Nat
  | or => 1
  | and => 2
  | eq | ne => 3
  | lt | le | gt | ge => 4
  | add | sub => 5
  | mul | div | rem => 6

end BinaryOp

inductive Expr where
  | literal (value : Value) (loc : Location)
  | name (path : Path) (loc : Location)
  | unary (op : UnaryOp) (operand : Expr) (loc : Location)
  | binary (op : BinaryOp) (left right : Expr) (loc : Location)
  | call (target : Path) (args : List Expr) (loc : Location)
  | await (task : Expr) (loc : Location)

/-- The place at which an expression is reported; for an operator, that of its symbol. -/
def Expr.loc : Expr → Location
  | literal _ loc | name _ loc | unary _ _ loc | binary _ _ _ loc | call _ _ loc
  | await _ loc => loc

inductive AssignOp where
  | set
  | add
  | sub
deriving DecidableEq, Repr

inductive Stmt where
  | usingNames (names : Path) (loc : Location)
  | declare (name : String) (init : Expr) (loc : Location)
  | assign (name : String) (op : AssignOp) (value : Expr) (loc : Location)
  | throw (exception : Path) (message : Option Expr) (loc : Location)
  /-- An expression as a statement. A trailing one has no semicolon and gives the
  submission its value. -/
  | eval (expr : Expr) (trailing : Bool)

end ScriptHost.Script
