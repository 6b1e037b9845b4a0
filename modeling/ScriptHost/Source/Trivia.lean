import ScriptHost.Source.Location
import ScriptHost.Text.Blank

/-!
# Blanks and comments

What stands between two lexemes: blanks, comments to the end of the line, and
comments between `/*` and `*/`, which do not nest. A comment that is never closed takes
the whole rest of the text.
-/

namespace ScriptHost.Source

/-- Where a reader of trivia stands. -/
inductive Trivia where
  | between
  | lineComment
  | blockComment (opened : Location)
deriving DecidableEq, Repr

/-- The text that follows a run of trivia, its place, and the opening of a comment that
was never closed. -/
structure Skipped where
  rest : List Char
  loc : Location
  unclosed : Option Location
deriving DecidableEq, Repr

/-- Skip trivia, starting in the given state. -/
def Trivia.skip : Trivia → Location → List Char → Skipped
  | .between, loc, '/' :: '/' :: cs => skip .lineComment ((loc.next '/').next '/') cs
  | .between, loc, '/' :: '*' :: cs => skip (.blockComment loc) ((loc.next '/').next '*') cs
  | .between, loc, c :: cs =>
    if Text.isBlank c then skip .between (loc.next c) cs else ⟨c :: cs, loc, none⟩
  | .lineComment, loc, c :: cs =>
    if c = '\n' then skip .between (loc.next c) cs else skip .lineComment (loc.next c) cs
  | .blockComment _, loc, '*' :: '/' :: cs => skip .between ((loc.next '*').next '/') cs
  | .blockComment opened, loc, c :: cs => skip (.blockComment opened) (loc.next c) cs
  | .blockComment opened, loc, [] => ⟨[], loc, some opened⟩
  | _, loc, [] => ⟨[], loc, none⟩

theorem Trivia.skip_blank {c : Char} (hc : Text.isBlank c = true) (loc : Location)
    (cs : List Char) : skip .between loc (c :: cs) = skip .between (loc.next c) cs := by
  have hslash : c ≠ '/' := by
    rintro rfl
    cases hc
  conv => lhs; unfold skip
  split <;> simp_all

/-- Neither a blank nor the opening of a comment is passed over. -/
theorem Trivia.skip_lexeme {c : Char} {cs : List Char} (hblank : ¬Text.isBlank c = true)
    (hline : ∀ rest, c = '/' → cs = '/' :: rest → False)
    (hblock : ∀ rest, c = '/' → cs = '*' :: rest → False) (loc : Location) :
    skip .between loc (c :: cs) = ⟨c :: cs, loc, none⟩ := by
  unfold skip
  split <;> simp_all

theorem Trivia.skip_lineComment {c : Char} (hc : c ≠ '\n') (loc : Location) (cs : List Char) :
    skip .lineComment loc (c :: cs) = skip .lineComment (loc.next c) cs :=
  if_neg hc

theorem Trivia.skip_blockComment {c : Char} {cs : List Char}
    (hend : ∀ rest, c = '*' → cs = '/' :: rest → False) (opened loc : Location) :
    skip (.blockComment opened) loc (c :: cs) = skip (.blockComment opened) (loc.next c) cs := by
  conv => lhs; unfold skip
  split <;> simp_all

/-- Skip the trivia at the start of a text. -/
def skipTrivia (loc : Location) (cs : List Char) : Skipped :=
  Trivia.skip .between loc cs

theorem Trivia.skip_length_le (state : Trivia) (loc : Location) (cs : List Char) :
    (Trivia.skip state loc cs).rest.length ≤ cs.length := by
  fun_induction Trivia.skip state loc cs <;> simp_all <;> omega

theorem skipTrivia_length_le (loc : Location) (cs : List Char) :
    (skipTrivia loc cs).rest.length ≤ cs.length :=
  Trivia.skip_length_le _ _ _

end ScriptHost.Source
