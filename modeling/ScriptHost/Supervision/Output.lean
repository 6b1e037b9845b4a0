/-!
# Captured output

Text written by running code, kept up to a limit in bytes. The first write that does not
fit is cut after the last character that fits, a marker follows once, and all later writes
are dropped.
-/

namespace ScriptHost

/-- The text that stands for output beyond the limit. -/
def truncationMark : String := "\n[output truncated]"

/-- The longest start of a text that takes at most `room` bytes. -/
def takeBytes (room : Nat) : List Char → List Char
  | [] => []
  | c :: cs => if c.utf8Size ≤ room then c :: takeBytes (room - c.utf8Size) cs else []

/-- Captured text with its limit. -/
structure Output where
  limit : Nat
  text : String
  truncated : Bool
deriving DecidableEq, Repr

namespace Output

/-- No text yet. -/
def empty (limit : Nat) : Output := ⟨limit, "", false⟩

/-- Capture a text. -/
def write (o : Output) (text : String) : Output :=
  if o.truncated then o
  else
    let room := o.limit - o.text.utf8ByteSize
    if text.utf8ByteSize ≤ room then { o with text := o.text ++ text }
    else
      { o with
        text := o.text ++ String.ofList (takeBytes room text.toList) ++ truncationMark
        truncated := true }

/-- Capture a text and a line feed. -/
def writeLine (o : Output) (text : String) : Output :=
  (o.write text).write "\n"

/-- Capture several texts. -/
def writeAll (o : Output) (texts : List String) : Output :=
  texts.foldl write o

end Output

end ScriptHost
