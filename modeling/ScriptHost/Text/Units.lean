/-!
# Sixteen-bit units

The length of a text in sixteen-bit code units: characters beyond the first plane
count twice.
-/

namespace ScriptHost.Text

/-- The number of sixteen-bit units of a character. -/
def charUnits (c : Char) : Nat :=
  if c.val < 0x10000 then 1 else 2

/-- The number of sixteen-bit units of some characters. -/
def unitsOf : List Char → Nat
  | [] => 0
  | c :: cs => charUnits c + unitsOf cs

/-- The number of sixteen-bit units of a text. -/
def unitCount (s : String) : Nat := unitsOf s.toList

theorem unitsOf_append (cs ds : List Char) : unitsOf (cs ++ ds) = unitsOf cs + unitsOf ds := by
  induction cs with
  | nil => simp [unitsOf]
  | cons c cs ih => rw [List.cons_append, unitsOf, unitsOf, ih, Nat.add_assoc]

/-- A text has at least as many units as characters. -/
theorem length_le_unitsOf (cs : List Char) : cs.length ≤ unitsOf cs := by
  induction cs with
  | nil => exact Nat.le_refl 0
  | cons c cs ih =>
    have : 1 ≤ charUnits c := by unfold charUnits; split <;> decide
    rw [List.length_cons, unitsOf]
    omega

end ScriptHost.Text
