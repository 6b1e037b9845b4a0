/-!
# Session ids

Ids have the form of random identifiers of 128 bits: 32 hexadecimal digits in five groups.
Six bits are fixed by the form; the others are taken from a number.
-/

namespace ScriptHost.SessionId

/-- A hexadecimal digit. -/
def hexDigit (n : Nat) : Char := ("0123456789abcdef".toList[n % 16]?).getD '0'

/-- The last `count` hexadecimal digits of a number. -/
def hexDigits (count n : Nat) : List Char :=
  match count with
  | 0 => []
  | count + 1 => hexDigits count (n / 16) ++ [hexDigit n]

/-- The id that a number stands for. -/
def ofNumber (n : Nat) : String :=
  String.ofList
    (hexDigits 8 (n >>> 88) ++ ['-'] ++ hexDigits 4 (n >>> 72) ++ ['-', '4'] ++
      hexDigits 3 (n >>> 60) ++ ['-', 'a'] ++ hexDigits 3 (n >>> 48) ++ ['-'] ++
      hexDigits 12 n)

end ScriptHost.SessionId
