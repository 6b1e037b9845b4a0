import ScriptHost.Number.Literal

/-!
# Double precision numbers

Binary floating point numbers with fifty-three bits of precision, each a whole number of the
smallest positive one. A decimal number is read as the nearest of them; of two that are
equally near, the one with an even significand.
-/

namespace ScriptHost

/-- A double: a sign with a whole number of units of two to the power minus 1074, an
infinity, or no number at all. -/
inductive Double where
  | finite (negative : Bool) (units : Nat)
  | infinite (negative : Bool)
  | notANumber
deriving DecidableEq, Repr

namespace Double

/-- The bits of a significand. -/
def precision : Nat := 53

/-- The units that make one. -/
def one : Nat := 1 <<< 1074

/-- The units from which on a number is infinite. -/
def infinity : Nat := 1 <<< 2098

/-- The whole number nearest to a quotient, and of two the even one. -/
def roundToEven (num den : Nat) : Nat :=
  let q := num / den
  let r := num % den
  if 2 * r < den then q
  else if den < 2 * r then q + 1
  else q + q % 2

/-- The number of bits of a number. -/
def bitLength (n : Nat) : Nat := if n = 0 then 0 else Nat.log2 n + 1

/-- The nearest number of units that a double can be to a quotient of units. -/
def nearestUnits (num den : Nat) : Nat :=
  let spare := bitLength (num / den) - precision
  roundToEven num (den <<< spare) <<< spare

/-- The double of a sign and a quotient of units. -/
def ofUnits (negative : Bool) (num den : Nat) : Double :=
  let units := nearestUnits num den
  if infinity ≤ units then infinite negative else finite negative units

/-- Ten to the power `n`. -/
def powerOfTen (n : Nat) : Nat := Nat.pow 10 n

/-- Beyond this many places before the point, a number is infinite; behind it, zero. -/
def placeLimit : Int := 400

/-- The double nearest to a decimal number. -/
def ofDecimal (n : DecimalLiteral) : Double :=
  let places := (toString n.digits).length + n.exponent
  if n.digits = 0 then finite n.negative 0
  else if placeLimit < places then infinite n.negative
  else if places < -placeLimit then finite n.negative 0
  else if 0 ≤ n.exponent then ofUnits n.negative (n.digits * powerOfTen n.exponent.toNat * one) 1
  else ofUnits n.negative (n.digits * one) (powerOfTen (-n.exponent).toNat)

/-- The double is zero. -/
def isZero : Double → Bool
  | finite _ units => units == 0
  | _ => false

/-- The nearest unsigned number of sixty-four bits, a half going up; no number counts as
zero. -/
def toUnsigned : Double → Nat
  | finite true _ => 0
  | finite false units => min ((2 * units + one) / (2 * one)) Text.maxUnsigned
  | infinite negative => if negative then 0 else Text.maxUnsigned
  | notANumber => 0

/-! ## The written form -/

/-- The least number of decimal places before the point, perhaps negative, that a positive
number of units needs: ten to this power is above the number, and ten to the one below is
not. -/
def decimalPlaces (units : Nat) : Int :=
  (toString (units * powerOfTen 400 / one)).length - 400

/-- The decimal numbers with a digit at the given place that are next to a number of units
below and above, each with its distance times a common factor. -/
def neighbours (units : Nat) (place : Int) : List (DecimalLiteral × Nat) :=
  let num := if 0 ≤ place then units else units * powerOfTen (-place).toNat
  let den := if 0 ≤ place then one * powerOfTen place.toNat else one
  let digits := num / den
  [(⟨false, digits, place⟩, num % den), (⟨false, digits + 1, place⟩, den - num % den)]

/-- Of the neighbours at a place that are read as the number of units, the nearest; of two,
the one above. -/
def readingBack? (units : Nat) (place : Int) : Option DecimalLiteral :=
  match (neighbours units place).filter fun n => ofDecimal n.1 == finite false units with
  | [] => none
  | [n] => some n.1
  | n :: m :: _ => some (if n.2 < m.2 then n.1 else m.1)

/-- The decimal number with the fewest digits that is read as the number of units. Seventeen
digits always suffice; with none, the neighbour above is a power of ten. -/
def shortest (units : Nat) : DecimalLiteral :=
  let places := decimalPlaces units
  ((List.range 18).findSome? fun n : Nat => readingBack? units (places - n)).getD ⟨false, 0, 0⟩

/-- A decimal number without an exponent. -/
def positional (n : DecimalLiteral) : String :=
  let digits := (toString n.digits).toList
  if 0 ≤ n.exponent then
    String.ofList (digits ++ List.replicate n.exponent.toNat '0')
  else
    let behind := (-n.exponent).toNat
    let padded := List.replicate (behind + 1 - digits.length) '0' ++ digits
    String.ofList (padded.take (padded.length - behind) ++ '.' ::
      padded.drop (padded.length - behind))

/-- The text of a double: the fewest digits that read back, never an exponent. -/
def render : Double → String
  | finite negative units =>
    (if negative then "-" else "") ++ (if units = 0 then "0" else positional (shortest units))
  | infinite negative => if negative then "-inf" else "inf"
  | notANumber => "NaN"

end Double

end ScriptHost
