import ScriptHost.Json.Basic
import ScriptHost.Session.Id

/-!
# Printing Json

Two layouts: on one line without blanks, and over several lines indented by two blanks a
level, where empty arrays and objects stay on one line.
-/

namespace ScriptHost.Json

/-- A character of a text as it is written between quotes. -/
def escapeChar (c : Char) : List Char :=
  match c with
  | '"' => ['\\', '"']
  | '\\' => ['\\', '\\']
  | '\n' => ['\\', 'n']
  | '\r' => ['\\', 'r']
  | '\t' => ['\\', 't']
  | '\x08' => ['\\', 'b']
  | '\x0c' => ['\\', 'f']
  | c =>
    if c.toNat < 32 then ['\\', 'u'] ++ SessionId.hexDigits 4 c.toNat else [c]

/-- A text between quotes. -/
def quote (s : String) : String :=
  "\"" ++ String.ofList (s.toList.flatMap escapeChar) ++ "\""

/-- The line feed and the blanks that start a line at a level. -/
def newLine (level : Nat) : String := "\n" ++ String.ofList (List.replicate (2 * level) ' ')

mutual

/-- The form on one line. -/
def compact : Json → String
  | null => "null"
  | bool true => "true"
  | bool false => "false"
  | int n => toString n
  | real x => x.render
  | str s => quote s
  | arr items => "[" ++ ",".intercalate (compactItems items) ++ "]"
  | obj members => "\x7b" ++ ",".intercalate (compactMembers members) ++ "\x7d"

/-- The items of an array, each on one line. -/
def compactItems : List Json → List String
  | [] => []
  | item :: items => compact item :: compactItems items

/-- The members of an object, each on one line. -/
def compactMembers : List (String × Json) → List String
  | [] => []
  | (key, value) :: members => (quote key ++ ":" ++ compact value) :: compactMembers members

end

mutual

/-- The form over several lines, for a value at a level. -/
def prettyAt (level : Nat) : Json → String
  | arr (item :: items) =>
    "[" ++ ",".intercalate (prettyItems (level + 1) (item :: items)) ++ newLine level ++ "]"
  | obj (m :: ms) =>
    "\x7b" ++ ",".intercalate (prettyMembers (level + 1) (m :: ms)) ++ newLine level ++ "\x7d"
  | value => compact value

/-- The items of an array, each on lines of its own. -/
def prettyItems (level : Nat) : List Json → List String
  | [] => []
  | item :: items => (newLine level ++ prettyAt level item) :: prettyItems level items

/-- The members of an object, each on lines of its own. -/
def prettyMembers (level : Nat) : List (String × Json) → List String
  | [] => []
  | (key, value) :: members =>
    (newLine level ++ quote key ++ ": " ++ prettyAt level value) :: prettyMembers level members

end

/-- The form over several lines. -/
def pretty (value : Json) : String := prettyAt 0 value

end ScriptHost.Json
