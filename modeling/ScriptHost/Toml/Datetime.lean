import ScriptHost.Text.Decimal

/-!
# Dates and times of Toml

A date, a time of day, or both, perhaps with an offset. They are kept as texts in one spelling:
a capital letter between date and time, the seconds if there are any, and no needless zero in a
fraction.
-/

namespace ScriptHost.Toml

/-- The number of so many digits, and what follows. -/
def digitsOf? (count : Nat) (cs : List Char) : Option (Nat × List Char) :=
  if cs.length < count then none else (Text.digits? (cs.take count)).map (·, cs.drop count)

/-- A number with zeros in front up to a width. -/
def paddedDigits (width n : Nat) : String :=
  let digits := toString n
  String.ofList (List.replicate (width - digits.length) '0') ++ digits

def isLeapYear (year : Nat) : Bool := year % 4 == 0 && (year % 100 != 0 || year % 400 == 0)

def daysOfMonth (year month : Nat) : Nat :=
  if month = 2 then (if isLeapYear year then 29 else 28)
  else if month = 4 ∨ month = 6 ∨ month = 9 ∨ month = 11 then 30
  else 31

/-- A day of the calendar, and what follows. -/
def date? (cs : List Char) : Option (String × List Char) := do
  let (year, cs) ← digitsOf? 4 cs
  let '-' :: cs := cs | none
  let (month, cs) ← digitsOf? 2 cs
  let '-' :: cs := cs | none
  let (day, cs) ← digitsOf? 2 cs
  if 1 ≤ month ∧ month ≤ 12 ∧ 1 ≤ day ∧ day ≤ daysOfMonth year month then
    return (paddedDigits 4 year ++ "-" ++ paddedDigits 2 month ++ "-" ++ paddedDigits 2 day, cs)
  else none

/-- The fraction of a second behind its point, to nine digits, and what follows. -/
def fractionOfSecond? : List Char → Option (String × List Char)
  | '.' :: cs =>
    let digits := cs.takeWhile Char.isDigit
    let kept := ((digits.take 9).reverse.dropWhile (· == '0')).reverse
    if digits.isEmpty then none
    else some (if kept.isEmpty then ".0" else "." ++ String.ofList kept, cs.dropWhile Char.isDigit)
  | cs => some ("", cs)

/-- The seconds behind their colon, if there are any, and what follows. -/
def seconds? : List Char → Option (String × List Char)
  | ':' :: cs => do
    let (second, cs) ← digitsOf? 2 cs
    let (fraction, cs) ← fractionOfSecond? cs
    if second ≤ 60 then return (":" ++ paddedDigits 2 second ++ fraction, cs) else none
  | cs => some ("", cs)

/-- Hours and minutes, and what follows. -/
def clock? (cs : List Char) : Option (String × List Char) := do
  let (hour, cs) ← digitsOf? 2 cs
  let ':' :: cs := cs | none
  let (minute, cs) ← digitsOf? 2 cs
  if hour ≤ 23 ∧ minute ≤ 59 then
    return (paddedDigits 2 hour ++ ":" ++ paddedDigits 2 minute, cs)
  else none

/-- A time of day, and what follows. -/
def time? (cs : List Char) : Option (String × List Char) := do
  let (clock, cs) ← clock? cs
  let (seconds, cs) ← seconds? cs
  return (clock ++ seconds, cs)

/-- The offset at the end of a time. -/
def offset? : List Char → Option String
  | [] => some ""
  | ['Z'] | ['z'] => some "Z"
  | sign :: cs =>
    if sign == '+' || sign == '-' then
      match clock? cs with
      | some (clock, []) =>
        some ((if sign == '-' && clock != "00:00" then "-" else "+") ++ clock)
      | _ => none
    else none

/-- The mark between a date and a time. -/
def isTimeMark (c : Char) : Bool := c == 'T' || c == 't' || c == ' '

/-- The one spelling of a date, a time, or both. -/
def datetime? (cs : List Char) : Option String :=
  match date? cs with
  | some (date, []) => some date
  | some (date, mark :: cs) =>
    if isTimeMark mark then do
      let (time, cs) ← time? cs
      let offset ← offset? cs
      return date ++ "T" ++ time ++ offset
    else none
  | none =>
    match time? cs with
    | some (time, []) => some time
    | _ => none

end ScriptHost.Toml
