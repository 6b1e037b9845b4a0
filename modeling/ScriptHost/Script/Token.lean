import ScriptHost.Value

/-!
# Tokens

The lexemes of the script language: words, integers, texts, keywords and symbols. Each
token has a name for use in messages; a symbol also has its spelling.
-/

namespace ScriptHost.Script

inductive Keyword where
  | var
  | truth
  | falsity
  | nothing
  | usingNames
  | await
  | throw
  | new
deriving DecidableEq, Repr

namespace Keyword

def spelling : Keyword → String
  | var => "var"
  | truth => "true"
  | falsity => "false"
  | nothing => "null"
  | usingNames => "using"
  | await => "await"
  | throw => "throw"
  | new => "new"

def all : List Keyword := [var, truth, falsity, nothing, usingNames, await, throw, new]

/-- The keyword with the given spelling. -/
def ofSpelling? (s : String) : Option Keyword :=
  all.find? (·.spelling == s)

end Keyword

inductive Symbol where
  | semicolon
  | comma
  | dot
  | openParen
  | closeParen
  | plus
  | minus
  | star
  | slash
  | percent
  | bang
  | assign
  | plusAssign
  | minusAssign
  | equal
  | notEqual
  | less
  | lessEqual
  | greater
  | greaterEqual
  | both
  | either
deriving DecidableEq, Repr

def Symbol.spelling : Symbol → String
  | semicolon => ";"
  | comma => ","
  | dot => "."
  | openParen => "("
  | closeParen => ")"
  | plus => "+"
  | minus => "-"
  | star => "*"
  | slash => "/"
  | percent => "%"
  | bang => "!"
  | assign => "="
  | plusAssign => "+="
  | minusAssign => "-="
  | equal => "=="
  | notEqual => "!="
  | less => "<"
  | lessEqual => "<="
  | greater => ">"
  | greaterEqual => ">="
  | both => "&&"
  | either => "||"

inductive Token where
  | word (name : String)
  | int (n : Int64)
  | text (s : String)
  | keyword (k : Keyword)
  | symbol (s : Symbol)
deriving DecidableEq, Repr

/-- The name of a token in a message. -/
def Token.label : Token → String
  | word name => name
  | int n => Value.renderInt n
  | text _ => "string literal"
  | keyword k => k.spelling
  | symbol s => s.spelling

end ScriptHost.Script
