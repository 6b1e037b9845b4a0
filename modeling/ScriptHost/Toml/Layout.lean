/-!
# Layout of Toml

Blanks, line ends and comments, which may stand between the parts of a document.
-/

namespace ScriptHost.Toml

/-- A blank within a line. -/
def isGap (c : Char) : Bool := c == ' ' || c == '\t'

def skipGap (cs : List Char) : List Char := cs.dropWhile isGap

/-- A character that may stand as it is in a comment or a text of one line. -/
def isPlain (c : Char) : Bool := c == '\t' || (32 ≤ c.toNat && c.toNat ≠ 127)

/-- The characters behind the end of a line, if there is one. -/
def lineFeed? : List Char → Option (List Char)
  | '\n' :: cs => some cs
  | '\r' :: '\n' :: cs => some cs
  | _ => none

/-- Pass over blanks and line ends. -/
def skipLines : List Char → List Char
  | ' ' :: cs => skipLines cs
  | '\t' :: cs => skipLines cs
  | '\n' :: cs => skipLines cs
  | '\r' :: '\n' :: cs => skipLines cs
  | cs => cs

/-- Pass over the blanks and the comment at the end of a line. -/
def skipComment (cs : List Char) : List Char :=
  match skipGap cs with
  | '#' :: rest => rest.dropWhile isPlain
  | rest => rest

/-- The characters behind the end of a line; nothing but a comment may come before it. The
end of the document ends a line too. -/
def lineEnd? (cs : List Char) : Option (List Char) :=
  match skipComment cs with
  | [] => some []
  | rest => lineFeed? rest

/-- Pass over blanks, line ends and comments, of which there are at most `limit`. -/
def skipFiller : Nat → List Char → List Char
  | 0, cs => cs
  | limit + 1, cs =>
    match skipLines cs with
    | '#' :: rest =>
      match lineFeed? (rest.dropWhile isPlain) with
      | some rest => skipFiller limit rest
      | none => rest.dropWhile isPlain
    | rest => rest

/-- Pass over all blanks, line ends and comments. A comment that is not well formed is left
with the character that must not stand in it. -/
def skipAll (cs : List Char) : List Char := skipFiller cs.length cs

end ScriptHost.Toml
