import ScriptHost.Guard.Item
import ScriptHost.Script.Token
import Mathlib.Data.List.Chain

/-!
# Items read off tokens

The items of a source text, read off its tokens and not off its characters: each text token
is an item, and so is each longest run of words with dots between them.
-/

namespace ScriptHost

namespace Script.Token

/-- The word that a token spells. -/
def spelling? : Token → Option String
  | word name => some name
  | keyword k => some k.spelling
  | _ => none

def isInt : Token → Bool
  | int _ => true
  | _ => false

/-- A word or a dot, which the scan of a source text takes for a part of a number in front of
it. -/
def sticks (t : Token) : Bool := t == symbol .dot || t.spelling?.isSome

end Script.Token

namespace Guard
open Script (Token)

/-- No integer stands directly before a word or a dot. -/
def Spaced (ts : List (Placed Token)) : Prop :=
  ts.IsChain fun t u => t.val.isInt = true → u.val.sticks = false

/-- The words that follow a word, each behind a dot, and the tokens behind the last of them. -/
def chainBehind : List (Placed Token) → List String × List (Placed Token)
  | dot :: t :: ts =>
    if dot.val = .symbol .dot then
      match t.val.spelling? with
      | some word => (word :: (chainBehind ts).1, (chainBehind ts).2)
      | none => ([], dot :: t :: ts)
    else ([], dot :: t :: ts)
  | ts => ([], ts)

theorem chainBehind_of_ne_dot {t : Token} (h : t ≠ .symbol .dot) (loc : Location)
    (ts : List (Placed Token)) : chainBehind (⟨t, loc⟩ :: ts) = ([], ⟨t, loc⟩ :: ts) := by
  cases ts with
  | nil => rfl
  | cons u us => exact if_neg h

theorem chainBehind_dot_word {t : Token} {word : String} (h : t.spelling? = some word)
    (dot loc : Location) (ts : List (Placed Token)) :
    chainBehind (⟨.symbol .dot, dot⟩ :: ⟨t, loc⟩ :: ts) =
      (word :: (chainBehind ts).1, (chainBehind ts).2) := by
  rw [chainBehind, if_pos rfl, h]

theorem chainBehind_dot_of_spelling? {t : Token} (h : t.spelling? = none)
    (dot loc : Location) (ts : List (Placed Token)) :
    chainBehind (⟨.symbol .dot, dot⟩ :: ⟨t, loc⟩ :: ts) =
      ([], ⟨.symbol .dot, dot⟩ :: ⟨t, loc⟩ :: ts) := by
  rw [chainBehind, if_pos rfl, h]

/-- What follows a chain of words is an end of the tokens. -/
theorem chainBehind_suffix (ts : List (Placed Token)) : (chainBehind ts).2 <:+ ts := by
  fun_induction chainBehind ts with
  | case1 dot t ts hdot word hword ih =>
      exact ih.trans ⟨[dot, t], rfl⟩
  | case2 | case3 | case4 => exact List.suffix_rfl

/-- The items that tokens stand for, in order. -/
def itemsOf : List (Placed Token) → List (Placed Item)
  | [] => []
  | t :: ts =>
    match t.val, t.val.spelling? with
    | .text s, _ => ⟨.text s, t.loc⟩ :: itemsOf ts
    | _, some word => ⟨.name (word :: (chainBehind ts).1), t.loc⟩ :: itemsOf (chainBehind ts).2
    | _, none => itemsOf ts
termination_by ts => ts.length
decreasing_by
  · simp
  · exact Nat.lt_succ_of_le (chainBehind_suffix ts).length_le
  · simp

@[simp] theorem itemsOf_nil : itemsOf [] = [] := by
  rw [itemsOf]

@[simp] theorem itemsOf_text (s : String) (loc : Location) (ts : List (Placed Token)) :
    itemsOf (⟨.text s, loc⟩ :: ts) = ⟨.text s, loc⟩ :: itemsOf ts := by
  rw [itemsOf]

theorem itemsOf_of_spelling? {t : Token} {word : String} (h : t.spelling? = some word)
    (loc : Location) (ts : List (Placed Token)) :
    itemsOf (⟨t, loc⟩ :: ts) =
      ⟨.name (word :: (chainBehind ts).1), loc⟩ :: itemsOf (chainBehind ts).2 := by
  cases t with
  | word | keyword =>
      cases h
      rw [itemsOf]
      rfl
  | int | text | symbol => cases h

@[simp] theorem itemsOf_int (n : Int64) (loc : Location) (ts : List (Placed Token)) :
    itemsOf (⟨.int n, loc⟩ :: ts) = itemsOf ts := by
  rw [itemsOf]
  rfl

@[simp] theorem itemsOf_symbol (s : Script.Symbol) (loc : Location) (ts : List (Placed Token)) :
    itemsOf (⟨.symbol s, loc⟩ :: ts) = itemsOf ts := by
  rw [itemsOf]
  rfl

end Guard
end ScriptHost
