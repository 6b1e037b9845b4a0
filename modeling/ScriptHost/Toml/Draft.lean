import ScriptHost.Document.Node

/-!
# Drafts of tables

A table while its document is being read. A table that has been given whole, or under a
header of its own, is not given again: only tables that came up on the way to others are
still open, each kind in its own way.
-/

namespace ScriptHost.Toml

/-- How a table came up. -/
inductive Origin where
  /-- It has a header of its own. -/
  | header
  /-- It is a step in a key of an assignment, or the last step before one. -/
  | dotted
  /-- It is a step in the header of another table. -/
  | implied
deriving DecidableEq, Repr

inductive Draft where
  /-- A value, complete as it is. -/
  | value (n : Node)
  | table (origin : Origin) (members : List (String × Draft))
  /-- Tables under headers that repeat; the last is the open one. -/
  | tables (closed : List (List (String × Draft))) (last : List (String × Draft))

/-- The members of a table in the making. -/
abbrev Members := List (String × Draft)

namespace Draft

mutual

/-- The finished value. -/
def node : Draft → Node
  | value n => n
  | table _ ms => .table (nodeMembers ms)
  | tables closed last => .list (tableNodes closed ++ [.table (nodeMembers last)])

/-- The finished members. -/
def nodeMembers : Members → List (String × Node)
  | [] => []
  | (key, d) :: ms => (key, d.node) :: nodeMembers ms

/-- The finished tables. -/
def tableNodes : List Members → List Node
  | [] => []
  | ms :: rest => .table (nodeMembers ms) :: tableNodes rest

end

end Draft

namespace Members

/-- The table that a key's steps go on from, once a value is assigned behind them: the last of
them is from then on a table of that key. -/
def originOfStep (origin : Origin) (steps : List String) : Origin :=
  if steps = [] then .dotted else origin

/-- The members with a new value at the end of a key's steps. The steps lead through tables
that came up on the way to others; tables with a header of their own are closed to them. -/
def assign (n : Node) (key : String) : List String → Members → Option Members
  | [], ms => if (ms.lookup key).isSome then none else some (ms ++ [(key, .value n)])
  | step :: steps, ms =>
    match ms.lookup step with
    | none => do
      let inner ← assign n key steps []
      return ms ++ [(step, .table .dotted inner)]
    | some (.table origin inner) =>
      if origin = .header then none
      else do
        let inner ← assign n key steps inner
        return setEntry step (.table (originOfStep origin steps) inner) ms
    | some (.tables closed last) =>
      if steps = [] then none
      else do
        let last ← assign n key steps last
        return setEntry step (.tables closed last) ms
    | some (.value _) => none

/-- The members with a table changed that the steps of a header lead to. -/
def within (change : Members → Option Members) : List String → Members → Option Members
  | [], ms => change ms
  | step :: steps, ms =>
    match ms.lookup step with
    | none => do
      let inner ← within change steps []
      return ms ++ [(step, .table .implied inner)]
    | some (.table origin inner) => do
      let inner ← within change steps inner
      return setEntry step (.table origin inner) ms
    | some (.tables closed last) => do
      let last ← within change steps last
      return setEntry step (.tables closed last) ms
    | some (.value _) => none

/-- Open a table under a header of its own. -/
def openTable (key : String) (ms : Members) : Option Members :=
  match ms.lookup key with
  | none => some (ms ++ [(key, .table .header [])])
  | some (.table .implied inner) => some (setEntry key (.table .header inner) ms)
  | some _ => none

/-- Open one more table under a header that repeats. -/
def openNext (key : String) (ms : Members) : Option Members :=
  match ms.lookup key with
  | none => some (ms ++ [(key, .tables [] [])])
  | some (.tables closed last) => some (setEntry key (.tables (closed ++ [last]) []) ms)
  | some _ => none

end Members

end ScriptHost.Toml
