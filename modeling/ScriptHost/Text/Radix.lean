/-!
# Digits of any base

Numbers written with the decimal digits and then the letters, in either case.
-/

namespace ScriptHost.Text

/-- The value of a character as a digit in some base up to thirty-six. -/
def digitValue? (c : Char) : Option Nat :=
  if c.isDigit then some (c.toNat - '0'.toNat)
  else if 'a' ≤ c ∧ c ≤ 'z' then some (c.toNat - 'a'.toNat + 10)
  else if 'A' ≤ c ∧ c ≤ 'Z' then some (c.toNat - 'A'.toNat + 10)
  else none

/-- The value of a digit of a base. -/
def digitIn? (base : Nat) (c : Char) : Option Nat := (digitValue? c).filter (· < base)

/-- The number that digits of a base stand for, behind the number `high`. -/
def numberAfter? (base high : Nat) : List Char → Option Nat
  | [] => some high
  | c :: cs =>
    match digitIn? base c with
    | some d => numberAfter? base (high * base + d) cs
    | none => none

/-- The number that digits of a base stand for. -/
def numberIn? (base : Nat) (cs : List Char) : Option Nat := numberAfter? base 0 cs

theorem digitIn?_lt {base : Nat} {c : Char} {d : Nat} (h : digitIn? base c = some d) :
    d < base := by
  simpa using (Option.filter_eq_some_iff.1 h).2

/-- As many digits of a base as are written make a number below that power of the base. -/
theorem numberAfter?_lt {base high : Nat} {cs : List Char} {n : Nat}
    (h : numberAfter? base high cs = some n) : n < (high + 1) * Nat.pow base cs.length := by
  induction cs generalizing high with
  | nil => simp only [numberAfter?, Option.some.injEq] at h; simp [h]
  | cons c cs ih =>
    simp only [numberAfter?] at h
    split at h
    · rename_i d hd
      have hlt := digitIn?_lt hd
      have := ih h
      calc n < (high * base + d + 1) * Nat.pow base cs.length := this
        _ ≤ ((high + 1) * base) * Nat.pow base cs.length := by
          apply Nat.mul_le_mul_right
          rw [Nat.add_mul]
          omega
        _ = (high + 1) * Nat.pow base (c :: cs).length := by
          rw [Nat.mul_assoc, Nat.mul_comm base]
          rfl
    · cases h

end ScriptHost.Text
