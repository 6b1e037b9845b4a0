import ScriptHost.Text.Decimal

/-!
# Number literals

Decimal numbers as they are written: a sign, digits, and a power of ten.
-/

namespace ScriptHost

/-- A decimal number: `digits` times ten to the power `exponent`, perhaps negative. -/
structure DecimalLiteral where
  negative : Bool
  digits : Nat
  exponent : Int
deriving DecidableEq, Repr

namespace DecimalLiteral

/-- The number with the given whole part, fraction and exponent. -/
def ofParts (negative : Bool) (whole fraction : List Char) (exponent : Int) : DecimalLiteral :=
  ⟨negative, Text.decimalValue (whole ++ fraction), exponent - fraction.length⟩

end DecimalLiteral

/-- An unsigned number as it is written: the digits before and behind the point, and the power
of ten behind the letter for it. -/
structure WrittenNumber where
  whole : List Char
  fraction : List Char
  exponent : Int
deriving DecidableEq, Repr

namespace WrittenNumber

/-- The exponent written behind the letter for it: digits, perhaps behind a sign. -/
def exponent? : List Char → Option Int
  | '-' :: cs => (Text.digits? cs).map fun n => -(n : Int)
  | '+' :: cs => (Text.digits? cs).map fun n => (n : Int)
  | cs => (Text.digits? cs).map fun n => (n : Int)

/-- Read a number with digits on both sides of the point, if there is one, and with an exponent,
if there is one. -/
def read? (cs : List Char) : Option WrittenNumber :=
  let whole := cs.takeWhile Char.isDigit
  let afterWhole := cs.dropWhile Char.isDigit
  let (fraction, afterFraction) :=
    match afterWhole with
    | '.' :: rest => (some (rest.takeWhile Char.isDigit), rest.dropWhile Char.isDigit)
    | rest => (none, rest)
  if whole.isEmpty || fraction.any List.isEmpty then none
  else
    match afterFraction with
    | [] => some ⟨whole, fraction.getD [], 0⟩
    | e :: rest =>
      if e == 'e' || e == 'E' then (exponent? rest).map (⟨whole, fraction.getD [], ·⟩) else none

end WrittenNumber

end ScriptHost
