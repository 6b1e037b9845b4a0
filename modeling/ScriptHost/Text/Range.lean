/-!
# Character ranges

Sets of characters given as lists of inclusive code point ranges.
-/

namespace ScriptHost.Text

/-- The code point of `c` lies in one of the inclusive ranges. -/
def inRanges (ranges : List (Nat × Nat)) (c : Char) : Bool :=
  ranges.any fun (first, last) => first ≤ c.toNat && c.toNat ≤ last

end ScriptHost.Text
