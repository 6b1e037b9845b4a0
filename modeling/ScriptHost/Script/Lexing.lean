import ScriptHost.Diagnostic
import ScriptHost.Script.Token
import ScriptHost.Source.Escape
import ScriptHost.Source.Trivia
import ScriptHost.Text.Decimal
import ScriptHost.Text.Numeral
import ScriptHost.Text.Split

/-!
# Reading tokens

A source text is cut into tokens with trivia between them. A malformed lexeme gives an
error and no token, and reading goes on behind it, so all lexical errors of a text are
found. The text has tokens only when it has no error.
-/

namespace ScriptHost.Script

/-- What is wrong with a lexeme. -/
inductive LexicalError where
  | unclosedComment
  | unclosedText
  | unknownEscape
  | integerTooLarge
  | unexpected (c : Char)
deriving DecidableEq, Repr

namespace LexicalError

def code : LexicalError → String
  | unclosedComment => "CS1035"
  | unclosedText => "CS1010"
  | unknownEscape => "CS1009"
  | integerTooLarge => "CS1021"
  | unexpected _ => "CS1056"

def message : LexicalError → String
  | unclosedComment => "End-of-file found, '*/' expected"
  | unclosedText => "Newline in constant"
  | unknownEscape => "Unrecognized escape sequence"
  | integerTooLarge => "Integral constant is too large"
  | unexpected c => "Unexpected character '" ++ String.singleton c ++ "'"

def diagnostic (e : Placed LexicalError) : Diagnostic :=
  (Diagnostic.error e.val.code e.val.message).placed e.loc

end LexicalError

/-- One lexeme read: its token unless it is malformed, the errors found in it, and the
text that follows with its place. -/
structure Lexeme where
  token : Option Token
  errors : List (Placed LexicalError)
  rest : List Char
  loc : Location
deriving DecidableEq, Repr

/-- Read the inside of a text up to its closing quote. `opened` is the place of the opening
quote, where errors are reported, and `read` holds the characters so far, backwards. -/
def readText (opened : Location) (read : List Char) : Location → List Char → Lexeme
  | loc, '"' :: cs =>
    ⟨some (.text (String.ofList read.reverse)), [], cs, loc.next '"'⟩
  | loc, '\n' :: cs => ⟨none, [⟨.unclosedText, opened⟩], '\n' :: cs, loc⟩
  | loc, '\\' :: c :: cs =>
    match Source.unescape c with
    | some e => readText opened (e :: read) ((loc.next '\\').next c) cs
    | none =>
      let tail := readText opened read ((loc.next '\\').next c) cs
      { tail with errors := ⟨.unknownEscape, opened⟩ :: tail.errors }
  | loc, ['\\'] =>
    ⟨none, [⟨.unknownEscape, opened⟩, ⟨.unclosedText, opened⟩], [], loc.next '\\'⟩
  | loc, c :: cs => readText opened (c :: read) (loc.next c) cs
  | loc, [] => ⟨none, [⟨.unclosedText, opened⟩], [], loc⟩

/-- A character of an integer: a digit, or an underscore between digits. -/
def isIntegerPart (c : Char) : Bool := c.isDigit || c == '_'

/-- Read an integer that starts with a digit. -/
def readInteger (loc : Location) (cs : List Char) : Lexeme :=
  let written := cs.takeWhile isIntegerPart
  let rest := cs.dropWhile isIntegerPart
  match Value.wordOf? (Text.decimalValue (written.filter (· != '_'))) with
  | some n => ⟨some (.int n), [], rest, loc.after written⟩
  | none => ⟨none, [⟨.integerTooLarge, loc⟩], rest, loc.after written⟩

/-- The token of a word: a keyword if it is spelled like one. -/
def wordToken (name : String) : Token :=
  match Keyword.ofSpelling? name with
  | some k => .keyword k
  | none => .word name

/-- Read a word or keyword. -/
def readWord (loc : Location) (cs : List Char) : Lexeme :=
  let written := cs.takeWhile Text.isWordPart
  ⟨some (wordToken (String.ofList written)), [], cs.dropWhile Text.isWordPart,
    loc.after written⟩

/-- The longest symbol at the start of a text, and the text behind it. -/
def symbolAt : List Char → Option (Symbol × List Char)
  | ';' :: cs => some (.semicolon, cs)
  | ',' :: cs => some (.comma, cs)
  | '.' :: cs => some (.dot, cs)
  | '(' :: cs => some (.openParen, cs)
  | ')' :: cs => some (.closeParen, cs)
  | '*' :: cs => some (.star, cs)
  | '/' :: cs => some (.slash, cs)
  | '%' :: cs => some (.percent, cs)
  | '+' :: '=' :: cs => some (.plusAssign, cs)
  | '+' :: cs => some (.plus, cs)
  | '-' :: '=' :: cs => some (.minusAssign, cs)
  | '-' :: cs => some (.minus, cs)
  | '!' :: '=' :: cs => some (.notEqual, cs)
  | '!' :: cs => some (.bang, cs)
  | '=' :: '=' :: cs => some (.equal, cs)
  | '=' :: cs => some (.assign, cs)
  | '<' :: '=' :: cs => some (.lessEqual, cs)
  | '<' :: cs => some (.less, cs)
  | '>' :: '=' :: cs => some (.greaterEqual, cs)
  | '>' :: cs => some (.greater, cs)
  | '&' :: '&' :: cs => some (.both, cs)
  | '|' :: '|' :: cs => some (.either, cs)
  | _ => none

/-- Read the lexeme that starts with the character `c`. -/
def readLexeme (loc : Location) (c : Char) (cs : List Char) : Lexeme :=
  match symbolAt (c :: cs) with
  | some (s, rest) => ⟨some (.symbol s), [], rest, loc.after s.spelling.toList⟩
  | none =>
    if c = '"' then readText loc [] (loc.next c) cs
    else if c.isDigit then readInteger loc (c :: cs)
    else if Text.isWordStart c then readWord loc (c :: cs)
    else ⟨none, [⟨.unexpected c, loc⟩], cs, loc.next c⟩

theorem readText_length_le (opened : Location) (read : List Char) (loc : Location)
    (cs : List Char) : (readText opened read loc cs).rest.length ≤ cs.length := by
  fun_induction readText opened read loc cs <;> simp_all +zetaDelta <;> omega

theorem symbolAt_length_lt {cs rest : List Char} {s : Symbol}
    (h : symbolAt cs = some (s, rest)) : rest.length < cs.length := by
  unfold symbolAt at h
  split at h <;> cases h <;> grind

/-- A lexeme takes at least its first character. -/
theorem readLexeme_length_le (loc : Location) (c : Char) (cs : List Char) :
    (readLexeme loc c cs).rest.length ≤ cs.length := by
  unfold readLexeme
  split
  · rename_i s rest h
    have := symbolAt_length_lt h
    simp only [List.length_cons] at this
    exact Nat.le_of_lt_succ this
  · split
    · exact readText_length_le _ _ _ _
    · split
      · rename_i hd
        have hp : isIntegerPart c = true := by simp [isIntegerPart, hd]
        have : ((c :: cs).dropWhile isIntegerPart).length ≤ cs.length := by
          rw [List.dropWhile_cons_of_pos hp]; exact Text.length_dropWhile_le _ _
        unfold readInteger
        dsimp only
        split <;> exact this
      · split
        · rename_i hw
          have hp : Text.isWordPart c = true := by
            simp only [Text.isWordStart, Text.isWordPart, Bool.or_eq_true] at hw ⊢
            rcases hw with h | h <;> simp [h]
          unfold readWord
          rw [List.dropWhile_cons_of_pos hp]
          exact Text.length_dropWhile_le _ _
        · exact Nat.le_refl _

/-- A text cut into tokens: the tokens and errors in order, and the place of its end. -/
structure Lexed where
  tokens : List (Placed Token)
  errors : List (Placed LexicalError)
  finish : Location
deriving DecidableEq, Repr

/-- Cut the text `cs` that starts at `loc`. -/
def lexFrom (loc : Location) (cs : List Char) : Lexed :=
  let gap := Source.skipTrivia loc cs
  let gapErrors := (gap.unclosed.map (Placed.mk .unclosedComment)).toList
  match _h : gap.rest with
  | [] => ⟨[], gapErrors, gap.loc⟩
  | c :: body =>
    let lexeme := readLexeme gap.loc c body
    let tail := lexFrom lexeme.loc lexeme.rest
    ⟨(lexeme.token.map (Placed.mk · gap.loc)).toList ++ tail.tokens,
      gapErrors ++ lexeme.errors ++ tail.errors, tail.finish⟩
termination_by cs.length
decreasing_by
  have h1 : gap.rest.length ≤ cs.length := Source.skipTrivia_length_le loc cs
  have h2 : lexeme.rest.length ≤ body.length := readLexeme_length_le gap.loc c body
  have h3 : gap.rest.length = body.length + 1 := by simp [_h]
  show lexeme.rest.length < cs.length
  omega

/-- The tokens of a source text with the place of its end, or its lexical errors. -/
def lex (source : String) : Except (List (Placed LexicalError)) (List (Placed Token) × Location) :=
  let lexed := lexFrom Location.first source.toList
  if lexed.errors.isEmpty then .ok (lexed.tokens, lexed.finish) else .error lexed.errors

end ScriptHost.Script
