import ScriptHost.Host.Request

/-!
# Transcripts

What a command writes to its two streams, in order, and the form in which results and
failures are written.
-/

namespace ScriptHost.CommandLine

/-- A text written to the standard output or to the error stream. -/
inductive Chunk where
  | out (text : String)
  | err (text : String)
deriving DecidableEq, Repr

abbrev Transcript := List Chunk

namespace Transcript

/-- All that is written to the standard output. -/
def output (t : Transcript) : String :=
  String.join (t.map fun | .out text => text | .err _ => "")

/-- All that is written to the error stream. -/
def errors (t : Transcript) : String :=
  String.join (t.map fun | .out _ => "" | .err text => text)

theorem output_append (s t : Transcript) : output (s ++ t) = output s ++ output t := by
  simp [output, String.join_append]

theorem errors_append (s t : Transcript) : errors (s ++ t) = errors s ++ errors t := by
  simp [errors, String.join_append]

end Transcript

/-- A line on the standard output. -/
def line (text : String) : Chunk := .out (text ++ "\n")

/-- Diagnostics, each on a line of the error stream. -/
def diagnosticLines (ds : List Diagnostic) : Transcript :=
  ds.map fun d => .err (d.render ++ "\n")

/-- A text that ends its last line. -/
def endingLine (text : String) : String :=
  if text.toList.getLast? = some '\n' then text else text ++ "\n"

/-- A reply: what the run wrote, its value, and the diagnostics. -/
def replyLines (r : Reply) : Transcript :=
  (if r.output = "" then [] else [Chunk.out (endingLine r.output)]) ++
    (r.value.map fun v => line v.render).toList ++ diagnosticLines r.diagnostics

/-- A failure of the command itself, with what it comes from. -/
structure CommandError where
  text : String
  causes : List String
deriving DecidableEq, Repr

namespace CommandError

/-- A number on the right of five places. -/
def aligned (n : Nat) : String :=
  let digits := toString n
  String.ofList (List.replicate (5 - digits.length) ' ') ++ digits

/-- A single cause is set in; several are numbered. -/
def causeLines (causes : List String) : List String :=
  match causes with
  | [cause] => ["    " ++ cause]
  | _ => (causes.zipIdx 0).map fun (cause, n) => aligned n ++ ": " ++ cause

def render (e : CommandError) : String :=
  "Error: " ++ e.text ++ "\n" ++
    if e.causes.isEmpty then ""
    else "\nCaused by:\n" ++ String.join ((causeLines e.causes).map (· ++ "\n"))

end CommandError

end ScriptHost.CommandLine
