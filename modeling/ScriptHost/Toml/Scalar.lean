import ScriptHost.Document.Node
import ScriptHost.Text.Radix
import ScriptHost.Text.Split
import ScriptHost.Toml.Datetime
import ScriptHost.Toml.Layout
import ScriptHost.Value

/-!
# Scalars of Toml

Values written without quotes: truth values, integers in four bases, doubles, dates and
times. Digits may be grouped by underscores, each between two digits.
-/

namespace ScriptHost.Toml

/-- Digits without the underscores between them. -/
def ungrouped? (isDigit : Char → Bool) (cs : List Char) : Option (List Char) :=
  let groups := cs.splitOn '_'
  if groups.all fun g => !g.isEmpty && g.all isDigit then some groups.flatten else none

/-- The decimal digits of a whole part: no needless zero in front. -/
def wholePart? (cs : List Char) : Option (List Char) :=
  match ungrouped? Char.isDigit cs with
  | some ('0' :: _ :: _) => none
  | digits => digits

/-- A sign at the start, if there is one, and what follows. -/
def signed : List Char → Bool × List Char
  | '-' :: cs => (true, cs)
  | '+' :: cs => (false, cs)
  | cs => (false, cs)

/-- The integer that digits of a base stand for. -/
def inBase? (base : Nat) (cs : List Char) : Option Int := do
  let digits ← ungrouped? (fun c => (Text.digitIn? base c).isSome) cs
  let n ← Text.numberIn? base digits
  return (n : Int)

/-- An integer of any size. -/
def integer? : List Char → Option Int
  | '0' :: 'x' :: cs => inBase? 16 cs
  | '0' :: 'o' :: cs => inBase? 8 cs
  | '0' :: 'b' :: cs => inBase? 2 cs
  | cs =>
    let (negative, cs) := signed cs
    (wholePart? cs).map fun digits =>
      let n : Int := Text.decimalValue digits
      if negative then -n else n

/-- The power of ten behind the letter for it. -/
def power? (cs : List Char) : Option Int :=
  let (negative, cs) := signed cs
  (ungrouped? Char.isDigit cs).map fun digits =>
    let n : Int := Text.decimalValue digits
    if negative then -n else n

/-- The digits before and behind the point, if there is one. -/
def mantissa? (cs : List Char) : Option (List Char × List Char) :=
  match Text.splitOnce '.' cs with
  | some (whole, fraction) => do
    let whole ← wholePart? whole
    let fraction ← ungrouped? Char.isDigit fraction
    return (whole, fraction)
  | none => (wholePart? cs).map (·, [])

/-- A decimal number with a point, a power of ten or both. -/
def decimal? (cs : List Char) : Option DecimalLiteral :=
  let (negative, cs) := signed cs
  let isPowerMark := fun c : Char => c == 'e' || c == 'E'
  do
    let (whole, fraction) ← mantissa? (cs.takeWhile (!isPowerMark ·))
    let power ←
      match cs.dropWhile (!isPowerMark ·) with
      | _ :: cs => power? cs
      | [] => some 0
    return .ofParts negative whole fraction power

/-- The double nearest to a decimal number, unless that is infinite. -/
def double? (cs : List Char) : Option Double :=
  match signed cs with
  | (negative, ['i', 'n', 'f']) => some (.infinite negative)
  | (_, ['n', 'a', 'n']) => some .notANumber
  | _ =>
    match (decimal? cs).map Double.ofDecimal with
    | some (.infinite _) => none
    | x => x

/-- A character of a value without quotes. -/
def isScalarChar (c : Char) : Bool :=
  c.isAlphanum || c == '_' || c == '+' || c == '-' || c == '.' || c == ':'

/-- The value that characters without quotes stand for. -/
def scalar? (cs : List Char) : Option Node :=
  if cs = "true".toList then some (.bool true)
  else if cs = "false".toList then some (.bool false)
  else
    match integer? cs with
    | some n => (Value.wordOf? n).map (.int ·.toInt)
    | none =>
      match double? cs with
      | some x => some (.real x)
      | none => (datetime? cs).map .text

/-- The end of a time that stands behind a date and a blank. -/
def timeBehind (written rest : List Char) : List Char :=
  match date? written, rest with
  | some (_, []), ' ' :: rest =>
    if (clock? rest).isSome then ' ' :: rest.takeWhile isScalarChar else []
  | _, _ => []

/-- Read a value without quotes. -/
def readScalar (cs : List Char) : Option (Node × List Char) :=
  let written := cs.takeWhile isScalarChar
  let rest := cs.dropWhile isScalarChar
  let behind := timeBehind written rest
  (scalar? (written ++ behind)).map (·, rest.drop behind.length)

end ScriptHost.Toml
