import ScriptHost.Json.Basic
import ScriptHost.Number.Scaled
import ScriptHost.Text.Radix
import ScriptHost.Value

/-!
# Reading Json

A text is read as one value with blanks around it. Arrays and objects nest to a fixed depth
at most; a key may occur twice. The number that bounds the descent is the length of the text,
since every step takes a character.
-/

namespace ScriptHost.Json

/-- A blank between the parts of a value. -/
def isGap (c : Char) : Bool := c == ' ' || c == '\t' || c == '\n' || c == '\r'

def skipGap (cs : List Char) : List Char := cs.dropWhile isGap

/-- The number of four hexadecimal digits, and what follows them. -/
def hex4? (cs : List Char) : Option (Nat × List Char) :=
  if cs.length < 4 then none else (Text.numberIn? 16 (cs.take 4)).map (·, cs.drop 4)

/-- The character with a code point, if there is one. -/
def charOf? (n : Nat) : Option Char :=
  if n.isValidChar then some (Char.ofNat n) else none

/-- The character of a unit written in hexadecimal, with the second half of a pair. -/
def unicodeEscape? (cs : List Char) : Option (Char × List Char) := do
  let (high, rest) ← hex4? cs
  if 0xD800 ≤ high ∧ high < 0xDC00 then
    match rest with
    | '\\' :: 'u' :: rest =>
      let (low, rest) ← hex4? rest
      if 0xDC00 ≤ low ∧ low < 0xE000 then
        let c ← charOf? (0x10000 + (high - 0xD800) * 0x400 + (low - 0xDC00))
        return (c, rest)
      else none
    | _ => none
  else
    let c ← charOf? high
    return (c, rest)

/-- The character of a short escape. -/
def shortEscape? : Char → Option Char
  | '"' => some '"'
  | '\\' => some '\\'
  | '/' => some '/'
  | 'b' => some '\x08'
  | 'f' => some '\x0c'
  | 'n' => some '\n'
  | 'r' => some '\r'
  | 't' => some '\t'
  | _ => none

/-- Read the inside of a text up to its closing quote; `read` holds it backwards. -/
def readString (read : List Char) : Nat → List Char → Option (String × List Char)
  | 0, _ => none
  | limit + 1, cs =>
    match cs with
    | '"' :: rest => some (String.ofList read.reverse, rest)
    | '\\' :: 'u' :: rest =>
      match unicodeEscape? rest with
      | some (c, rest) => readString (c :: read) limit rest
      | none => none
    | '\\' :: c :: rest =>
      match shortEscape? c with
      | some e => readString (e :: read) limit rest
      | none => none
    | c :: rest => if c.toNat < 32 then none else readString (c :: read) limit rest
    | [] => none

/-- A character of a number. -/
def isNumberPart (c : Char) : Bool :=
  c.isDigit || c == '-' || c == '+' || c == '.' || c == 'e' || c == 'E'

/-- The whole number that digits stand for: one of sixty-four bits, which has no sign if it is
beyond the signed ones. A negative zero is not a whole number. -/
def whole? (negative : Bool) (digits : List Char) : Option Int := do
  let n ← Text.digits? digits
  if negative then
    let w ← Value.wordOf? (-(n : Int))
    if n = 0 then none else return w.toInt
  else if n ≤ Text.maxUnsigned then return n
  else none

/-- The number written in the given way: no needless zero in front, digits around the
point. A number too great for a double is refused. -/
def number? (written : List Char) : Option Json :=
  let (negative, digits) :=
    match written with
    | '-' :: rest => (true, rest)
    | rest => (false, rest)
  let plain :=
    match digits with
    | '0' :: c :: _ => !c.isDigit
    | _ => true
  if !plain then none
  else
    match whole? negative digits with
    | some n => some (int n)
    | none => do
      let written ← WrittenNumber.read? digits
      let x ← (Scaled.ofWritten written).double? negative
      return real x

/-- Pass over a fixed word. -/
def word? (word : String) (value : Json) (cs : List Char) : Option (Json × List Char) :=
  if word.toList.isPrefixOf cs then some (value, cs.drop word.toList.length) else none

mutual

/-- Read a value; `depth` is the nesting still allowed. -/
def readValue : Nat → Nat → List Char → Option (Json × List Char)
  | 0, _, _ => none
  | limit + 1, depth, cs =>
    match skipGap cs with
    | '"' :: rest => (readString [] (rest.length + 1) rest).map fun (s, rest) => (str s, rest)
    | '[' :: rest =>
      match depth with
      | 0 => none
      | depth + 1 =>
        match skipGap rest with
        | ']' :: rest => some (arr [], rest)
        | rest => (readItems limit depth rest).map fun (items, rest) => (arr items, rest)
    | '\x7b' :: rest =>
      match depth with
      | 0 => none
      | depth + 1 =>
        match skipGap rest with
        | '\x7d' :: rest => some (obj [], rest)
        | rest => (readMembers limit depth rest).map fun (ms, rest) => (obj ms, rest)
    | 'n' :: rest => word? "null" null ('n' :: rest)
    | 't' :: rest => word? "true" (bool true) ('t' :: rest)
    | 'f' :: rest => word? "false" (bool false) ('f' :: rest)
    | rest => (number? (rest.takeWhile isNumberPart)).map (·, rest.dropWhile isNumberPart)

/-- Read the items of an array up to its end. -/
def readItems : Nat → Nat → List Char → Option (List Json × List Char)
  | 0, _, _ => none
  | limit + 1, depth, cs =>
    match readValue limit depth cs with
    | none => none
    | some (item, rest) =>
      match skipGap rest with
      | ',' :: rest => (readItems limit depth rest).map fun (items, rest) => (item :: items, rest)
      | ']' :: rest => some ([item], rest)
      | _ => none

/-- Read the members of an object up to its end. -/
def readMembers : Nat → Nat → List Char → Option (List (String × Json) × List Char)
  | 0, _, _ => none
  | limit + 1, depth, cs =>
    match skipGap cs with
    | '"' :: rest =>
      match readString [] (rest.length + 1) rest with
      | none => none
      | some (key, rest) =>
        match skipGap rest with
        | ':' :: rest =>
          match readValue limit depth rest with
          | none => none
          | some (value, rest) =>
            match skipGap rest with
            | ',' :: rest =>
              (readMembers limit depth rest).map fun (ms, rest) => ((key, value) :: ms, rest)
            | '\x7d' :: rest => some ([(key, value)], rest)
            | _ => none
        | _ => none
    | _ => none

end

/-- The deepest nesting that is read. -/
def maxDepth : Nat := 127

/-- Read a text as one value. -/
def parse? (s : String) : Option Json :=
  let cs := s.toList
  match readValue (2 * cs.length + 2) maxDepth cs with
  | some (value, rest) => if (skipGap rest).isEmpty then some value else none
  | none => none

end ScriptHost.Json
