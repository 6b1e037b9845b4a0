import ScriptHost.Text.Blank
import ScriptHost.Text.Case
import ScriptHost.Text.Split

/-!
# Name patterns

A policy names what it forbids by words joined with dots. Words are compared in lower case.
A pattern occurs in a chain of words when its words stand there one after the other.
-/

namespace ScriptHost.Guard

/-- A policy entry with its words in lower case. -/
structure Pattern where
  entry : String
  words : List String
deriving DecidableEq, Repr

/-- The words of a policy entry, in lower case and without the empty ones. -/
def patternWords (entry : String) : List String :=
  ((Text.splitAt '.' entry).map fun word => Text.lowercase (Text.trim word)).filter (· ≠ "")

/-- The pattern of a policy entry, if it has any words. -/
def Pattern.ofEntry? (entry : String) : Option Pattern :=
  let words := patternWords entry
  if words.isEmpty then none else some ⟨entry, words⟩

/-- The words stand in the chain one after the other. -/
def occursIn (words : List String) : List String → Bool
  | [] => words.isEmpty
  | c :: chain => words.isPrefixOf (c :: chain) || occursIn words chain

namespace Pattern

/-- The pattern occurs in the chain. -/
def occurs (p : Pattern) (chain : List String) : Bool := occursIn p.words chain

/-- The ends of a list that are neither the whole nor empty. -/
def properTails {α : Type} : List α → List (List α)
  | [] => []
  | [_] => []
  | _ :: x :: xs => (x :: xs) :: properTails (x :: xs)

/-- An end of the pattern occurs in the chain, as it does where the first words are given by
a directive elsewhere in the source. -/
def tailOccurs (p : Pattern) (chain : List String) : Bool :=
  (properTails p.words).any (occursIn · chain)

end Pattern

end ScriptHost.Guard
