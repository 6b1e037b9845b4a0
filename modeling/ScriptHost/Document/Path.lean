import ScriptHost.Document.Node
import ScriptHost.Text.Decimal

/-!
# Paths into documents

A path leads through the members of tables and the items of lists. Following one to make a
change makes all that is missing on the way: what is not a table where a member is wanted
becomes an empty table, and likewise for lists.
-/

namespace ScriptHost

/-- A step into a document: to a member of a table, or to an item of a list. An item's number
counts from the front, a negative one from the end. -/
inductive PathStep where
  | member (key : String)
  | item (number : Int)
deriving DecidableEq, Repr

namespace PathStep

/-! ## The written form -/

/-- A character of a member's name in a path. -/
def isNameChar (c : Char) : Bool := c.isAlphanum || c == '_' || c == '-'

/-- The name at the start, and what follows. -/
def name? (cs : List Char) : Option (String × List Char) :=
  let name := cs.takeWhile isNameChar
  if name.isEmpty then none else some (String.ofList name, cs.dropWhile isNameChar)

/-- A blank within the brackets around a number. -/
def isGap (c : Char) : Bool := c == ' ' || c == '\t'

/-- The least and the greatest number of an item. -/
def minNumber : Int := -0x8000000000000000

def maxNumber : Int := 0x7fffffffffffffff

/-- The number in front of a closing bracket, and what follows that. -/
def number? (cs : List Char) : Option (Int × List Char) :=
  let cs := cs.dropWhile isGap
  let (negative, cs) :=
    match cs with
    | '-' :: rest => (true, rest)
    | rest => (false, rest)
  match Text.digits? (cs.takeWhile Char.isDigit), (cs.dropWhile Char.isDigit).dropWhile isGap with
  | some n, ']' :: rest =>
    let number : Int := if negative then -n else n
    if minNumber ≤ number ∧ number ≤ maxNumber then some (number, rest) else none
  | _, _ => none

/-- At most `limit` steps behind the first name of a path, and nothing else: names behind
points, and numbers in brackets. -/
def further? : Nat → List Char → Option (List PathStep)
  | _, [] => some []
  | 0, _ => none
  | limit + 1, '.' :: cs => do
    let (name, cs) ← name? cs
    let steps ← further? limit cs
    return member name :: steps
  | limit + 1, '[' :: cs => do
    let (number, cs) ← number? cs
    let steps ← further? limit cs
    return item number :: steps
  | _, _ => none

/-- The steps of a text that is a path. -/
def path? (cs : List Char) : Option (List PathStep) := do
  let (name, cs) ← name? cs
  let steps ← further? cs.length cs
  return member name :: steps

/-- The steps that a key stands for. One that is no path is a single step. -/
def ofKey (key : String) : List PathStep := (path? key.toList).getD [member key]

end PathStep

namespace Node

/-- The items of a list; anything else has none. -/
def items : Node → List Node
  | list items => items
  | _ => []

/-- The position that an item's number means, in items to which nulls are added so that it is
there: behind them, or before them if a negative number reaches beyond the front. -/
def reach (number : Int) (items : List Node) : Nat × List Node :=
  if 0 ≤ number then
    let position := number.toNat
    (position, items ++ List.replicate (position + 1 - items.length) null)
  else
    let back := (-number).toNat
    (items.length - back, List.replicate (back - items.length) null ++ items)

/-- There is an item at the position. -/
theorem reach_lt (number : Int) (items : List Node) :
    (reach number items).1 < (reach number items).2.length := by
  unfold reach
  split
  · simp only [List.length_append, List.length_replicate]
    omega
  · simp only [List.length_append, List.length_replicate]
    omega

/-- The value with a change made at the end of a path. -/
def alter (change : Node → Node) : List PathStep → Node → Node
  | [], n => change n
  | .member key :: path, n =>
    table (setEntry key (alter change path ((n.members.lookup key).getD null)) n.members)
  | .item number :: path, n =>
    let (position, items) := reach number n.items
    list (items.modify position (alter change path))

end Node

end ScriptHost
