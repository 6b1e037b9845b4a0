import Mathlib.Data.String.Basic
import ScriptHost.Text.Units

/-!
# Sizes of texts

The bytes of a text are those of its characters, and a text has at least as many bytes as
sixteen-bit units.
-/

namespace ScriptHost.Text

theorem utf8ByteSize_eq_utf8Len (s : String) : s.utf8ByteSize = String.utf8Len s.toList := by
  rw [← String.utf8ByteSize_ofList, String.ofList_toList]

/-- A character beyond the first plane takes four bytes. -/
theorem charUnits_le_utf8Size (c : Char) : charUnits c ≤ c.utf8Size := by
  have hpos := c.utf8Size_pos
  rw [charUnits]
  split
  · exact hpos
  · rename_i hwide
    simp only [UInt32.lt_iff_toNat_lt, UInt32.reduceToNat] at hwide
    simp only [Char.utf8Size, UInt32.le_iff_toNat_le, UInt32.reduceToNat, UInt32.reduceOfNatLT]
    rw [if_neg (by omega), if_neg (by omega), if_neg (by omega)]
    decide

theorem unitsOf_le_utf8Len (cs : List Char) : unitsOf cs ≤ String.utf8Len cs := by
  induction cs with
  | nil => exact Nat.le_refl 0
  | cons c cs ih =>
      have hfirst := charUnits_le_utf8Size c
      rw [unitsOf, String.utf8Len_cons]
      omega

theorem unitCount_le_utf8ByteSize (s : String) : unitCount s ≤ s.utf8ByteSize := by
  rw [utf8ByteSize_eq_utf8Len]
  exact unitsOf_le_utf8Len s.toList

end ScriptHost.Text
