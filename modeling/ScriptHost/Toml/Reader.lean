import ScriptHost.Toml.Draft
import ScriptHost.Toml.Quoted
import ScriptHost.Toml.Scalar

/-!
# Reading Toml

A document is a sequence of lines: assignments, headers of tables, headers of repeated
tables. Arrays and inline tables may go over several lines, and nest to a fixed depth at
most. The number that bounds the descent is computed from the length of the text, since every
step takes a character.
-/

namespace ScriptHost.Toml

/-- A key: the steps that lead to a table, and the name in it. -/
structure Key where
  steps : List String
  name : String
deriving DecidableEq, Repr

def Key.path (k : Key) : List String := k.steps ++ [k.name]

/-- A character of a key without quotes. -/
def isBareChar (c : Char) : Bool := c.isAlphanum || c == '_' || c == '-'

/-- Read one step of a key. -/
def readStep (cs : List Char) : Option (String × List Char) :=
  match quotedKey? cs with
  | some read => some read
  | none =>
    let bare := cs.takeWhile isBareChar
    if bare.isEmpty then none else some (String.ofList bare, cs.dropWhile isBareChar)

/-- Read a key of at most `limit` steps. Blanks may stand around the points. -/
def readSteps : Nat → List Char → Option (Key × List Char)
  | 0, _ => none
  | limit + 1, cs =>
    match readStep cs with
    | none => none
    | some (step, rest) =>
      match skipGap rest with
      | '.' :: rest =>
        (readSteps limit (skipGap rest)).map fun (k, rest) => (⟨step :: k.steps, k.name⟩, rest)
      | rest => some (⟨[], step⟩, rest)

/-- The most steps that a key has. -/
def maxSteps : Nat := 80

/-- Read a key, with the blanks behind it. -/
def readKey (cs : List Char) : Option (Key × List Char) := readSteps maxSteps cs

mutual

/-- Read a value; `depth` is the nesting still allowed. -/
def readValue : Nat → Nat → List Char → Option (Node × List Char)
  | 0, _, _ => none
  | limit + 1, depth, cs =>
    match cs with
    | '"' :: _ => (quotedText? cs).map fun (s, rest) => (.text s, rest)
    | '\'' :: _ => (quotedText? cs).map fun (s, rest) => (.text s, rest)
    | '[' :: rest =>
      match depth with
      | 0 => none
      | depth + 1 => (readItems limit depth rest).map fun (items, rest) => (.list items, rest)
    | '\x7b' :: rest =>
      match depth with
      | 0 => none
      | depth + 1 =>
        (readPairs limit depth [] rest).map fun (ms, rest) => (.table (Draft.nodeMembers ms), rest)
    | _ => readScalar cs

/-- Read the items of an array up to its end. -/
def readItems : Nat → Nat → List Char → Option (List Node × List Char)
  | 0, _, _ => none
  | limit + 1, depth, cs =>
    match skipAll cs with
    | ']' :: rest => some ([], rest)
    | rest =>
      match readValue limit depth rest with
      | none => none
      | some (item, rest) =>
        match skipAll rest with
        | ',' :: rest =>
          (readItems limit depth rest).map fun (items, rest) => (item :: items, rest)
        | ']' :: rest => some ([item], rest)
        | _ => none

/-- Read the assignments of an inline table up to its end, behind those read before. Each may go
over several lines. -/
def readPairs : Nat → Nat → Members → List Char → Option (Members × List Char)
  | 0, _, _, _ => none
  | limit + 1, depth, ms, cs =>
    match skipAll cs with
    | '\x7d' :: rest => some (ms, rest)
    | rest =>
      match readKey rest with
      | none => none
      | some (key, rest) =>
        match skipAll rest with
        | '=' :: rest =>
          match readValue limit depth (skipAll rest) with
          | none => none
          | some (n, rest) =>
            match ms.assign n key.name key.steps with
            | none => none
            | some ms =>
              match skipAll rest with
              | ',' :: rest => readPairs limit depth ms rest
              | '\x7d' :: rest => some (ms, rest)
              | _ => none
        | _ => none

end

/-- The deepest nesting of arrays and inline tables that is read. -/
def maxDepth : Nat := 80

/-- What has been read: the members of the document, and the header in force. -/
structure Reading where
  members : Members
  current : Option Key

namespace Reading

def start : Reading := ⟨[], none⟩

/-- The steps to the table in force. -/
def path (r : Reading) : List String := r.current.elim [] Key.path

/-- Read an assignment. -/
def assignment? (r : Reading) (cs : List Char) : Option (Reading × List Char) :=
  match readKey cs with
  | some (key, '=' :: rest) => do
    let (n, rest) ← readValue (2 * cs.length + 2) maxDepth (skipGap rest)
    let members ← r.members.within (·.assign n key.name key.steps) r.path
    return ({ r with members := members }, rest)
  | _ => none

/-- Read the header of a repeated table behind its brackets. -/
def repeatedHeader? (r : Reading) (cs : List Char) : Option (Reading × List Char) :=
  match readKey (skipGap cs) with
  | some (key, ']' :: ']' :: rest) => do
    let members ← r.members.within (·.openNext key.name) key.steps
    return (⟨members, some key⟩, rest)
  | _ => none

/-- Read the header of a table behind its bracket. -/
def header? (r : Reading) (cs : List Char) : Option (Reading × List Char) :=
  match readKey (skipGap cs) with
  | some (key, ']' :: rest) => do
    let members ← r.members.within (·.openTable key.name) key.steps
    return (⟨members, some key⟩, rest)
  | _ => none

/-- Read an assignment or a header. -/
def statement? (r : Reading) : List Char → Option (Reading × List Char)
  | '[' :: '[' :: cs => r.repeatedHeader? cs
  | '[' :: cs => r.header? cs
  | cs => r.assignment? cs

/-- Read at most `limit` statements, each on a line of its own. -/
def lines (r : Reading) : Nat → List Char → Option Reading
  | 0, _ => none
  | limit + 1, cs =>
    match skipAll cs with
    | [] => some r
    | cs =>
      match r.statement? cs with
      | none => none
      | some (r, rest) =>
        match lineEnd? rest with
        | some rest => lines r limit rest
        | none => none

end Reading

/-- The text without the mark that may stand at its start. -/
def withoutMark : List Char → List Char
  | '\ufeff' :: cs => cs
  | cs => cs

/-- The members of the document that a text is. -/
def parse? (s : String) : Option (List (String × Node)) :=
  let cs := withoutMark s.toList
  (Reading.start.lines (cs.length + 1) cs).map fun r => Draft.nodeMembers r.members

end ScriptHost.Toml
