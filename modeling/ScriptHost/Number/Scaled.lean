import ScriptHost.Number.Double

/-!
# Numbers read by scaling

A decimal number is read into a significand of sixty-four bits and a power of ten; the
significand as a double is then multiplied or divided by the power as a double. Each of these
steps rounds, so that the result may lie beside the nearest double.
-/

namespace ScriptHost

/-- A significand of sixty-four bits with a power of ten. -/
structure Scaled where
  significand : Nat
  exponent : Int
deriving DecidableEq, Repr

namespace Scaled

/-- The number `n` with further digits for as long as they leave it in sixty-four bits, and the
number of digits that are left over. -/
def appendDigits (n : Nat) : List Char → Nat × Nat
  | [] => (n, 0)
  | c :: cs =>
    let next := 10 * n + (c.toNat - '0'.toNat)
    if next ≤ Text.maxUnsigned then appendDigits next cs else (n, cs.length + 1)

/-- The digits taken in leave the number in sixty-four bits. -/
theorem appendDigits_le {n : Nat} (h : n ≤ Text.maxUnsigned) (cs : List Char) :
    (appendDigits n cs).1 ≤ Text.maxUnsigned := by
  induction cs generalizing n with
  | nil => exact h
  | cons c cs ih =>
    simp only [appendDigits]
    split
    · rename_i hnext
      exact ih hnext
    · exact h

/-- The significand and exponent of a number as it is written. A digit of the whole part that
is left over counts as a place; one of the fraction is dropped. -/
def ofWritten (w : WrittenNumber) : Scaled :=
  let (whole, places) := appendDigits 0 w.whole
  let (significand, dropped) := appendDigits whole w.fraction
  ⟨significand, w.exponent + places - (w.fraction.length - dropped : Nat)⟩

/-- The greatest power of ten that is a double. -/
def maxPower : Nat := 308

/-- The units of a power of ten as a double. -/
def powerUnits (n : Nat) : Nat := Double.nearestUnits (Double.powerOfTen n * Double.one) 1

/-- The double number of units nearest to a product of two. -/
def multiply (a b : Nat) : Nat := Double.nearestUnits (a * b) Double.one

/-- The double number of units nearest to a quotient of two. -/
def divide (a b : Nat) : Nat := Double.nearestUnits (a * Double.one) b

/-- The units divided by a power of ten, in steps of the greatest power. -/
def divideByPower (units n : Nat) : Nat :=
  if n ≤ maxPower then divide units (powerUnits n)
  else if units = 0 then 0
  else divideByPower (divide units (powerUnits maxPower)) (n - maxPower)
termination_by n
decreasing_by simp only [maxPower] at *; omega

/-- The units multiplied by a power of ten, unless the result is infinite. -/
def multiplyByPower? (units n : Nat) : Option Nat :=
  if n ≤ maxPower then (some (multiply units (powerUnits n))).filter (· < Double.infinity)
  else if units = 0 then some 0
  else none

/-- The double with a sign that is reached by scaling, unless it is infinite. -/
def double? (negative : Bool) (s : Scaled) : Option Double :=
  let units := Double.nearestUnits (s.significand * Double.one) 1
  if 0 ≤ s.exponent then (multiplyByPower? units s.exponent.toNat).map (.finite negative)
  else some (.finite negative (divideByPower units (-s.exponent).toNat))

end Scaled

end ScriptHost
