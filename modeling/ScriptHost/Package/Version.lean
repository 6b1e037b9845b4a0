import ScriptHost.Text.Decimal
import ScriptHost.Text.Split

/-!
# Versions

Versions are compared part by part: as numbers where both parts are numbers, as texts
otherwise. A version that goes on where the other ends is the greater one.
-/

namespace ScriptHost.Version

/-- The parts of a version, which dots and dashes separate. -/
def parts (version : String) : List (List Char) :=
  version.toList.splitOnP fun c => c == '.' || c == '-'

/-- Compare two parts. -/
def comparePart (a b : List Char) : Ordering :=
  match Text.unsigned? a, Text.unsigned? b with
  | some m, some n => compare m n
  | _, _ => compare (String.ofList a) (String.ofList b)

/-- Compare the parts of two versions. -/
def compareParts : List (List Char) → List (List Char) → Ordering
  | [], [] => .eq
  | _ :: _, [] => .gt
  | [], _ :: _ => .lt
  | a :: as, b :: bs => (comparePart a b).then (compareParts as bs)

/-- Compare two versions. -/
def compare (a b : String) : Ordering := compareParts (parts a) (parts b)

/-- The candidate with the greatest version; of equal ones, the last. -/
def latest? {α : Type} (version : α → String) : List α → Option α
  | [] => none
  | a :: candidates =>
    some (candidates.foldl
      (fun best next => if compare (version best) (version next) = .gt then best else next) a)

end ScriptHost.Version
