import ScriptHost.Text.Radix
import ScriptHost.Toml.Layout

/-!
# Quoted texts of Toml

A text stands between quotes, on one line between single ones and over lines between triple
ones. Between double quotes there are escapes; between single quotes every character stands
for itself.
-/

namespace ScriptHost.Toml

/-- The character whose code point is written in hexadecimal with `count` digits, and what
follows. -/
def codePoint? (count : Nat) (cs : List Char) : Option (Char × List Char) :=
  if cs.length < count then none
  else
    match Text.numberIn? 16 (cs.take count) with
    | some n => if n.isValidChar then some (Char.ofNat n, cs.drop count) else none
    | none => none

/-- The character that an escape stands for, read behind its backslash, and what follows. -/
def escape? : List Char → Option (Char × List Char)
  | 'b' :: cs => some ('\x08', cs)
  | 't' :: cs => some ('\t', cs)
  | 'n' :: cs => some ('\n', cs)
  | 'f' :: cs => some ('\x0c', cs)
  | 'r' :: cs => some ('\r', cs)
  | 'e' :: cs => some ('\x1b', cs)
  | '"' :: cs => some ('"', cs)
  | '\\' :: cs => some ('\\', cs)
  | 'x' :: cs => codePoint? 2 cs
  | 'u' :: cs => codePoint? 4 cs
  | 'U' :: cs => codePoint? 8 cs
  | _ => none

/-- Read a text of one line with escapes; `read` holds it backwards. -/
def readBasic (read : List Char) : Nat → List Char → Option (String × List Char)
  | 0, _ => none
  | limit + 1, cs =>
    match cs with
    | '"' :: rest => some (String.ofList read.reverse, rest)
    | '\\' :: rest =>
      match escape? rest with
      | some (c, rest) => readBasic (c :: read) limit rest
      | none => none
    | c :: rest => if isPlain c then readBasic (c :: read) limit rest else none
    | [] => none

/-- Read a text of one line without escapes. -/
def readLiteral (cs : List Char) : Option (String × List Char) :=
  let text := cs.takeWhile (· != '\'')
  match cs.dropWhile (· != '\'') with
  | _ :: rest => if text.all isPlain then some (String.ofList text, rest) else none
  | [] => none

/-- The quotes at the start, of which five at most can stand together at the end of a text. -/
def quoteRun (quote : Char) (cs : List Char) : Nat :=
  min 5 (cs.takeWhile (· == quote)).length

/-- The characters behind a backslash at the end of a line, which joins the lines. -/
def joinedLine? (cs : List Char) : Option (List Char) := (lineFeed? (skipGap cs)).map skipLines

/-- The first character may stand as it is in a text of several lines. A carriage return does
so before a line feed only. -/
def startsPlain : List Char → Bool
  | '\n' :: _ => true
  | '\r' :: '\n' :: _ => true
  | c :: _ => isPlain c
  | [] => false

/-- Read a text of several lines; `read` holds it backwards. Line ends stay as they are written.
Of the quotes at the end the last three close the text. -/
def readLines (quote : Char) (escapes : Bool) (read : List Char) :
    Nat → List Char → Option (String × List Char)
  | 0, _ => none
  | limit + 1, cs =>
    match cs with
    | [] => none
    | c :: rest =>
      if c == quote then
        let run := quoteRun quote cs
        if 3 ≤ run then
          some (String.ofList (List.replicate (run - 3) quote ++ read).reverse, cs.drop run)
        else readLines quote escapes (List.replicate run quote ++ read) limit (cs.drop run)
      else if c == '\\' && escapes then
        match joinedLine? rest with
        | some rest => readLines quote escapes read limit rest
        | none =>
          match escape? rest with
          | some (c, rest) => readLines quote escapes (c :: read) limit rest
          | none => none
      else if startsPlain cs then readLines quote escapes (c :: read) limit rest
      else none

/-- Read a text of several lines behind its opening quotes; a line end there does not count. -/
def readMultiline (quote : Char) (escapes : Bool) (cs : List Char) :
    Option (String × List Char) :=
  let cs := (lineFeed? cs).getD cs
  readLines quote escapes [] (cs.length + 1) cs

/-- Read a text on one line, as keys are quoted. -/
def quotedKey? : List Char → Option (String × List Char)
  | '"' :: cs => readBasic [] (cs.length + 1) cs
  | '\'' :: cs => readLiteral cs
  | _ => none

/-- Read a text in any of its four forms. -/
def quotedText? : List Char → Option (String × List Char)
  | '"' :: '"' :: '"' :: cs => readMultiline '"' true cs
  | '\'' :: '\'' :: '\'' :: cs => readMultiline '\'' false cs
  | cs => quotedKey? cs

end ScriptHost.Toml
