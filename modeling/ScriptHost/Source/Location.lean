/-!
# Places in a source text

Lines and columns count from one, columns in characters; only a line feed starts a
new line. The place after a text is found by reading it character by character.
-/

namespace ScriptHost

/-- A place in a source text. -/
structure Location where
  line : Nat
  column : Nat
deriving DecidableEq, Repr, Inhabited

namespace Location

/-- The place of the first character. -/
def first : Location := ⟨1, 1⟩

/-- The place after the character `c` standing at `loc`. -/
def next (loc : Location) (c : Char) : Location :=
  if c = '\n' then ⟨loc.line + 1, 1⟩ else ⟨loc.line, loc.column + 1⟩

/-- The place after the characters `cs` standing at `loc`. -/
def after (loc : Location) (cs : List Char) : Location :=
  cs.foldl next loc

@[simp] theorem after_nil (loc : Location) : loc.after [] = loc := rfl

@[simp] theorem after_cons (loc : Location) (c : Char) (cs : List Char) :
    loc.after (c :: cs) = (loc.next c).after cs := rfl

theorem after_append (loc : Location) (cs ds : List Char) :
    loc.after (cs ++ ds) = (loc.after cs).after ds :=
  List.foldl_append

/-- The written form `(line,column)`. -/
def render (loc : Location) : String :=
  "(" ++ toString loc.line ++ "," ++ toString loc.column ++ ")"

end Location

/-- Something found at a place. -/
structure Placed (α : Type) where
  val : α
  loc : Location
deriving DecidableEq, Repr

end ScriptHost
