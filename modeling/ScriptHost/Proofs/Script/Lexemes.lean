import ScriptHost.Script.Lexing

/-!
# Texts without lexical errors

A text in which every lexeme is well formed, as a relation between the text and its tokens.
Each step of the relation passes over trivia and reads one token, so a proof about such a
text is an induction without cases for errors.
-/

namespace ScriptHost.Script

/-- The text that starts at a place is cut into the tokens, without an error. -/
inductive Reads : Location → List Char → List (Placed Token) → Prop
  | nil {loc cs finish} (gap : Source.skipTrivia loc cs = ⟨[], finish, none⟩) : Reads loc cs []
  | cons {loc cs start c body t rest behind ts}
      (gap : Source.skipTrivia loc cs = ⟨c :: body, start, none⟩)
      (lexeme : readLexeme start c body = ⟨some t, [], rest, behind⟩)
      (tail : Reads behind rest ts) : Reads loc cs (⟨t, start⟩ :: ts)

/-- The inside of a text gives a token unless it gives an error. -/
theorem readText_token_isSome {opened : Location} {read : List Char} {loc : Location}
    {cs : List Char} (h : (readText opened read loc cs).errors = []) :
    (readText opened read loc cs).token.isSome := by
  fun_induction readText opened read loc cs <;> simp_all +zetaDelta

theorem readInteger_token_isSome {loc : Location} {cs : List Char}
    (h : (readInteger loc cs).errors = []) : (readInteger loc cs).token.isSome := by
  unfold readInteger at h ⊢
  dsimp only at h ⊢
  split at h
  · rfl
  · cases h

/-- A lexeme gives a token unless it gives an error. -/
theorem readLexeme_token_isSome {loc : Location} {c : Char} {cs : List Char}
    (h : (readLexeme loc c cs).errors = []) : (readLexeme loc c cs).token.isSome := by
  revert h
  unfold readLexeme
  split
  · exact fun _ => rfl
  · split
    · exact readText_token_isSome
    · split
      · exact readInteger_token_isSome
      · split
        · exact fun _ => rfl
        · exact fun h => nomatch h

/-- Cutting a text without an error relates it to its tokens. -/
theorem reads_of_errors_eq_nil {loc : Location} {cs : List Char}
    (h : (lexFrom loc cs).errors = []) : Reads loc cs (lexFrom loc cs).tokens := by
  fun_induction lexFrom loc cs with
  | case1 loc cs gap gapErrors hrest =>
      have hgap : gap.unclosed = none := by simpa [gapErrors] using h
      have hskip : Source.skipTrivia loc cs = ⟨[], gap.loc, none⟩ := by rw [← hrest, ← hgap]
      exact Reads.nil hskip
  | case2 loc cs gap gapErrors c body hrest lexeme tail ih =>
      simp only [List.append_eq_nil_iff] at h
      obtain ⟨⟨hgapErrors, hlexeme⟩, htail⟩ := h
      have hgap : gap.unclosed = none := by simpa [gapErrors] using hgapErrors
      obtain ⟨t, ht⟩ := Option.isSome_iff_exists.1 (readLexeme_token_isSome hlexeme)
      have htokens : (lexeme.token.map (Placed.mk · gap.loc)).toList ++ tail.tokens =
          ⟨t, gap.loc⟩ :: tail.tokens := by
        rw [show lexeme.token = some t from ht]
        rfl
      show Reads loc cs ((lexeme.token.map (Placed.mk · gap.loc)).toList ++ tail.tokens)
      rw [htokens]
      have hskip : Source.skipTrivia loc cs = ⟨c :: body, gap.loc, none⟩ := by rw [← hrest, ← hgap]
      have hread : readLexeme gap.loc c body = ⟨some t, [], lexeme.rest, lexeme.loc⟩ := by
        show lexeme = _
        rw [← ht, ← hlexeme]
      exact Reads.cons hskip hread (ih htail)

/-- A text that is related to tokens is cut into them. -/
theorem lexFrom_of_reads {loc : Location} {cs : List Char} {ts : List (Placed Token)}
    (h : Reads loc cs ts) : ∃ finish, lexFrom loc cs = ⟨ts, [], finish⟩ := by
  induction h with
  | @nil loc cs finish gap =>
      refine ⟨finish, ?_⟩
      fun_cases lexFrom loc cs <;> simp_all +zetaDelta
  | @cons loc cs start c body t rest behind ts gap lexeme tail ih =>
      obtain ⟨finish, hfinish⟩ := ih
      refine ⟨finish, ?_⟩
      fun_cases lexFrom loc cs <;> simp_all +zetaDelta

/-- A source text has tokens only when it is cut without an error. -/
theorem reads_of_lex_eq_ok {source : String} {tokens : List (Placed Token)} {finish : Location}
    (h : lex source = .ok (tokens, finish)) : Reads .first source.toList tokens := by
  unfold lex at h
  dsimp only at h
  split at h
  · rename_i hempty
    cases h
    exact reads_of_errors_eq_nil (List.isEmpty_iff.1 hempty)
  · cases h

theorem lex_of_reads {source : String} {ts : List (Placed Token)}
    (h : Reads .first source.toList ts) : ∃ finish, lex source = .ok (ts, finish) := by
  obtain ⟨finish, hcut⟩ := lexFrom_of_reads h
  refine ⟨finish, ?_⟩
  rw [lex, hcut]
  rfl

end ScriptHost.Script
