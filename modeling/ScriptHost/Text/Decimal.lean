/-!
# Decimal numbers

Unsigned numbers written with decimal digits, and the bound of the sixty-four bit ones.
-/

namespace ScriptHost.Text

/-- The number that decimal digits stand for. -/
def decimalValue (digits : List Char) : Nat :=
  digits.foldl (fun n c => 10 * n + (c.toNat - '0'.toNat)) 0

/-- The greatest unsigned number of sixty-four bits. -/
def maxUnsigned : Nat := 0xffffffffffffffff

/-- The number written with digits only, at least one. -/
def digits? (cs : List Char) : Option Nat :=
  if !cs.isEmpty && cs.all Char.isDigit then some (decimalValue cs) else none

/-- The unsigned number of sixty-four bits written with digits, perhaps behind a plus
sign. -/
def unsigned? (cs : List Char) : Option Nat :=
  let digits := match cs with
    | '+' :: rest => rest
    | _ => cs
  (digits? digits).filter (· ≤ maxUnsigned)

end ScriptHost.Text
