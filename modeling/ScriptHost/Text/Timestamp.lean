import ScriptHost.Session.Registry

/-!
# Timestamps

Clock readings written as dates and times of day in the calendar of today, counted from the
start of 1970. The fraction of a second has none, three, six or nine digits, as few as will
do.
-/

namespace ScriptHost.Timestamp

/-- The date of a day counted from the first of March of the year zero. -/
def dateOfDay (day : Int) : Int × Int × Int :=
  let era := day.fdiv 146097
  let dayOfEra := day - era * 146097
  let year :=
    (dayOfEra - dayOfEra / 1460 + dayOfEra / 36524 - dayOfEra / 146096) / 365
  let dayOfYear := dayOfEra - (365 * year + year / 4 - year / 100)
  let shifted := (5 * dayOfYear + 2) / 153
  let month := if shifted < 10 then shifted + 3 else shifted - 9
  let yearStart := if month ≤ 2 then 1 else 0
  (year + era * 400 + yearStart, month, dayOfYear - (153 * shifted + 2) / 5 + 1)

/-- A number with zeros in front up to a width. -/
def padded (width n : Nat) : String :=
  let digits := toString n
  String.ofList (List.replicate (width - digits.length) '0') ++ digits

/-- The fraction of a second. -/
def fraction (nanos : Nat) : String :=
  if nanos = 0 then ""
  else if nanos % 1000000 = 0 then "." ++ padded 3 (nanos / 1000000)
  else if nanos % 1000 = 0 then "." ++ padded 6 (nanos / 1000)
  else "." ++ padded 9 nanos

/-- The written form of a clock reading. -/
def render (t : Instant) : String :=
  let seconds := t.fdiv Instant.nanosPerSecond
  let nanos := t - seconds * Instant.nanosPerSecond
  let day := seconds.fdiv 86400
  let second := (seconds - day * 86400).toNat
  let (year, month, date) := dateOfDay (day + 719468)
  padded 4 year.toNat ++ "-" ++ padded 2 month.toNat ++ "-" ++ padded 2 date.toNat ++ "T" ++
    padded 2 (second / 3600) ++ ":" ++ padded 2 (second / 60 % 60) ++ ":" ++
    padded 2 (second % 60) ++ fraction nanos.toNat ++ "Z"

end ScriptHost.Timestamp
