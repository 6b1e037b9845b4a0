import ScriptHost.Script.Evaluation
import ScriptHost.Script.Lexing
import ScriptHost.Script.Parsing

/-!
# Compiling submissions

A source text goes through reading of tokens, reading of statements and the check; the
first of the three that finds an error reports it. What compiles comes with its warnings.
-/

namespace ScriptHost

/-- Compiled code with the warnings found on the way. -/
structure Compilation where
  activity : Activity
  warnings : List Diagnostic

/-- What a compiler says about itself. -/
structure CompilerInfo where
  language : String
  version : String
  features : List String
deriving DecidableEq, Repr

/-- A compiler: it goes on from what an earlier run left, against resolved packages. -/
structure Compiler where
  compile : String → List Resolved → Option Script.Continuation →
    Except (List Diagnostic) Compilation
  info : CompilerInfo

namespace Script

/-- The program of a source text with its warnings, or the diagnostics that reject it. -/
def frontEnd (source : String) (references : List Reference) (prior : State) :
    Except (List Diagnostic) (Program × List Diagnostic) := do
  let (tokens, finish) ← (lex source).mapError (·.map LexicalError.diagnostic)
  let statements ← (parse tokens finish).mapError (·.map SyntaxError.diagnostic)
  let (program, warnings) ←
    (check statements prior references).mapError (·.map Finding.diagnostic)
  return (program, warnings.map Finding.diagnostic)

/-- Compile a source text against packages and what came before. -/
def compile (source : String) (references : List Resolved) (prior : Option Continuation) :
    Except (List Diagnostic) Compilation := do
  let start := Continuation.startState prior
  let (program, warnings) ← frontEnd source (references.map (·.reference)) start
  return ⟨program.activity start, warnings⟩

/-- The compiler of the script language. -/
def compiler : Compiler where
  compile := compile
  info :=
    { language := "csharp-script"
      version := "0.1.0"
      features :=
        ["var", "assignment", "int", "string", "bool", "console-output", "await-task-delay",
          "throw", "using"] }

end Script

end ScriptHost
