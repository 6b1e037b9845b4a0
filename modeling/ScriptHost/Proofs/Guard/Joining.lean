import ScriptHost.Proofs.Computation
import ScriptHost.Proofs.Guard.Lockstep

/-!
# Sources one behind the other

A source that can be scanned is scanned alike when a line feed, a semicolon and any other text
follow it: the line feed ends a comment that is still open and the semicolon a chain that still
waits for a word, and neither lets the text behind change what stands in front.
-/

namespace ScriptHost.Guard
open Source (Trivia)

variable {cs more : List Char} {loc behind : Location}

/-- The same was read, and what follows reads as what followed before with more behind it, once
trivia is passed over. -/
def Scanned.GoesOn {α : Type} (s : Scanned α) (more : List Char) (t : Scanned α) : Prop :=
  t.val = s.val ∧ Source.skipTrivia t.loc t.rest = Source.skipTrivia s.loc (s.rest ++ more)

/-! ## Runs of characters -/

/-- A run ends where it would have ended alone, when what follows does not continue it. -/
theorem span_append {p : Char → Bool} (cs : List Char) (hmore : ∀ d ∈ more.head?, p d = false) :
    (cs ++ more).takeWhile p = cs.takeWhile p ∧
      (cs ++ more).dropWhile p = cs.dropWhile p ++ more := by
  induction cs with
  | nil =>
      cases more with
      | nil => exact ⟨rfl, rfl⟩
      | cons d more =>
          have hd : ¬p d = true := Bool.eq_false_iff.1 (hmore d rfl)
          exact ⟨List.takeWhile_cons_of_neg hd, List.dropWhile_cons_of_neg hd⟩
  | cons c cs ih =>
      by_cases hc : p c = true
      · rw [List.cons_append, List.takeWhile_cons_of_pos hc, List.takeWhile_cons_of_pos hc,
          List.dropWhile_cons_of_pos hc, List.dropWhile_cons_of_pos hc, ih.1, ih.2]
        exact ⟨rfl, rfl⟩
      · rw [List.cons_append, List.takeWhile_cons_of_neg hc, List.takeWhile_cons_of_neg hc,
          List.dropWhile_cons_of_neg hc, List.dropWhile_cons_of_neg hc]
        exact ⟨rfl, rfl⟩

/-! ## Trivia -/

/-- What a text starts with when a line feed follows it, it started with before. -/
theorem not_append_feed {p : Prop} (start : List Char) (hstart : '\n' ∉ start)
    (h : ∀ rest, p → cs = start ++ rest → False) :
    ∀ rest, p → cs ++ '\n' :: more = start ++ rest → False := by
  intro rest hp heq
  obtain ⟨tail, rfl, hfeed⟩ | ⟨tail, htail, -⟩ := List.append_eq_append_iff.1 heq
  · cases tail with
    | nil => exact h [] hp (by rw [List.append_nil, List.append_nil])
    | cons c tail =>
        rw [(List.cons.inj hfeed).1] at hstart
        exact hstart (List.mem_append_right cs (List.mem_cons_self ..))
  · exact h tail hp htail

/-- Trivia in front of a lexeme ends where it ended; trivia at the end of the text goes on behind
the line feed. -/
theorem skip_append_feed {state : Trivia} {rest : List Char}
    (h : Trivia.skip state loc cs = ⟨rest, behind, none⟩) (more : List Char) :
    Trivia.skip state loc (cs ++ '\n' :: more) =
      if rest = [] then Source.skipTrivia (behind.next '\n') more
      else ⟨rest ++ '\n' :: more, behind, none⟩ := by
  fun_induction Trivia.skip state loc cs with
  | case1 loc cs ih | case2 loc cs ih => exact ih h
  | case3 loc c cs hline hblock hblank ih =>
      rw [List.cons_append, Trivia.skip_blank hblank]
      exact ih h
  | case4 loc c cs hline hblock hblank =>
      cases h
      rw [List.cons_append, if_neg (List.cons_ne_nil _ _)]
      exact Trivia.skip_lexeme hblank (not_append_feed ['/'] (by decide) hline)
        (not_append_feed ['*'] (by decide) hblock) _
  | case5 loc cs ih => exact ih h
  | case6 loc c cs hc ih =>
      rw [List.cons_append, Trivia.skip_lineComment hc]
      exact ih h
  | case7 opened loc cs ih => exact ih h
  | case8 opened loc c cs hend ih =>
      rw [List.cons_append, Trivia.skip_blockComment (not_append_feed ['/'] (by decide) hend)]
      exact ih h
  | case9 opened loc => cases h
  | case10 state loc hstate =>
      cases h
      cases state with
      | between | lineComment => rfl
      | blockComment opened => exact absurd rfl (hstate opened)

theorem skipTrivia_of_skip {gap : Scanned Unit} (h : skip loc cs = .ok gap) :
    Source.skipTrivia loc cs = ⟨gap.rest, gap.loc, none⟩ := by
  unfold skip at h
  dsimp only at h
  split at h
  · cases h
  · rename_i hclosed
    cases h
    rw [← hclosed]

theorem skip_of_skipTrivia {rest : List Char}
    (h : Source.skipTrivia loc cs = ⟨rest, behind, none⟩) : skip loc cs = .ok ⟨(), behind, rest⟩ := by
  rw [skip, h]

/-- Trivia in front of a lexeme, in a text that goes on. -/
theorem skip_append_of_ne_nil {gap : Scanned Unit} (h : skip loc cs = .ok gap)
    (hrest : gap.rest ≠ []) (more : List Char) :
    skip loc (cs ++ '\n' :: more) = .ok { gap with rest := gap.rest ++ '\n' :: more } := by
  apply skip_of_skipTrivia
  rw [Source.skipTrivia, skip_append_feed (skipTrivia_of_skip h), if_neg hrest]

/-- Trivia at the end of a text, when a semicolon follows on the next line. -/
theorem skip_append_of_nil {gap : Scanned Unit} (h : skip loc cs = .ok gap)
    (hrest : gap.rest = []) (more : List Char) :
    skip loc (cs ++ '\n' :: ';' :: more) = .ok ⟨(), gap.loc.next '\n', ';' :: more⟩ := by
  apply skip_of_skipTrivia
  rw [Source.skipTrivia, skip_append_feed (skipTrivia_of_skip h), if_pos hrest]
  rfl

/-! ## Literals -/

theorem readText_append {opened : Location} {read : List Char} {s : Scanned String}
    (h : readText opened read loc cs = .ok s) (more : List Char) :
    readText opened read loc (cs ++ more) = .ok { s with rest := s.rest ++ more } := by
  fun_induction readText opened read loc cs with
  | case1 read loc cs =>
      cases h
      rfl
  | case3 read loc c cs e he ih =>
      rw [List.cons_append, List.cons_append, readText, he]
      exact ih h
  | case7 read loc c cs hquote hfeed hesc hend ih =>
      have hbackslash : c ≠ '\\' := by
        intro hc
        cases cs with
        | nil => exact hend hc rfl
        | cons d cs => exact hesc d cs hc rfl
      rw [List.cons_append, readText]
      · exact ih h
      · exact hquote
      · exact hfeed
      · exact fun _ _ hc _ => hbackslash hc
      · exact fun hc _ => hbackslash hc
  | case2 | case4 | case5 | case6 | case8 => cases h

theorem readVerbatim_append {opened : Location} {read : List Char} {s : Scanned String}
    (h : readVerbatim opened read loc cs = .ok s) (more : List Char) :
    readVerbatim opened read loc (cs ++ '\n' :: more) =
      .ok { s with rest := s.rest ++ '\n' :: more } := by
  fun_induction readVerbatim opened read loc cs with
  | case1 read loc cs ih => exact ih h
  | case2 read loc cs hpair =>
      cases h
      rw [List.cons_append, readVerbatim]
      exact fun rest => not_append_feed ['"'] (by decide) (fun rest _ => hpair rest) rest trivial
  | case3 read loc c cs hpair hquote ih =>
      rw [List.cons_append, readVerbatim]
      · exact ih h
      · exact not_append_feed ['"'] (by decide) hpair
      · exact hquote
  | case4 => cases h

theorem skipCharacter_append {opened : Location} {s : Scanned Unit}
    (h : skipCharacter opened loc cs = .ok s) (more : List Char) :
    skipCharacter opened loc (cs ++ more) = .ok { s with rest := s.rest ++ more } := by
  fun_induction skipCharacter opened loc cs with
  | case1 loc c cs ih => exact ih h
  | case2 loc cs =>
      cases h
      rfl
  | case4 loc c cs hesc hquote hfeed ih =>
      have hbackslash : c ≠ '\\' := by
        intro hc
        cases cs with
        | nil => cases h
        | cons d cs => exact hesc d cs hc rfl
      rw [List.cons_append, skipCharacter]
      · exact ih h
      · exact fun _ _ hc _ => hbackslash hc
      · exact hquote
      · exact hfeed
  | case3 | case5 => cases h

/-! ## Words and chains -/

theorem readWord_of_ne {c : Char} (hc : c ≠ '@') (loc : Location) (cs : List Char) :
    readWord loc (c :: cs) =
      ⟨String.ofList ((c :: cs).takeWhile Text.isWordPart),
        loc.after ((c :: cs).takeWhile Text.isWordPart), (c :: cs).dropWhile Text.isWordPart⟩ := by
  unfold readWord
  split
  · rename_i heq
    exact absurd (List.cons.inj heq).1 hc
  · rfl

theorem readWord_append (loc : Location) (c : Char) (cs : List Char)
    (hmore : ∀ d ∈ more.head?, Text.isWordPart d = false) :
    readWord loc (c :: cs ++ more) =
      { readWord loc (c :: cs) with rest := (readWord loc (c :: cs)).rest ++ more } := by
  by_cases hc : c = '@'
  · subst hc
    obtain ⟨htake, hdrop⟩ := span_append cs hmore
    rw [List.cons_append, readWord, readWord, htake, hdrop]
  · obtain ⟨htake, hdrop⟩ := span_append (c :: cs) hmore
    rw [readWord_of_ne hc, List.cons_append, readWord_of_ne hc, ← List.cons_append, htake, hdrop]

theorem readChain_of_end {words : List String} {gap : Scanned Unit} (hgap : skip loc cs = .ok gap)
    (hsep : separatorAt gap.rest = none) : readChain words loc cs = .ok ⟨words, loc, cs⟩ := by
  fun_cases readChain words loc cs <;> simp_all

theorem readChain_of_separator {words : List String} {gap next : Scanned Unit}
    {sep after : List Char} (hgap : skip loc cs = .ok gap)
    (hsep : separatorAt gap.rest = some (sep, after))
    (hnext : skip (gap.loc.after sep) after = .ok next) :
    readChain words loc cs =
      match next.rest with
      | [] => .ok ⟨words, next.loc, []⟩
      | c :: body =>
        if isNameStart c then
          let word := readWord next.loc (c :: body)
          readChain (words ++ [word.val]) word.loc word.rest
        else if c = '\\' then .error ⟨.escapeInName, next.loc⟩
        else .ok ⟨words, next.loc, c :: body⟩ := by
  fun_cases readChain words loc cs <;> simp_all
  subst_vars
  rfl

theorem separatorAt_append {sep after : List Char} (h : separatorAt cs = some (sep, after))
    (more : List Char) : separatorAt (cs ++ more) = some (sep, after ++ more) := by
  unfold separatorAt at h
  split at h <;> cases h <;> rfl

theorem separatorAt_append_feed (h : separatorAt cs = none) (more : List Char) :
    separatorAt (cs ++ '\n' :: more) = none := by
  cases cs with
  | nil => rfl
  | cons c cs =>
      unfold separatorAt at h ⊢
      cases cs with
      | nil => split <;> simp_all
      | cons d cs => split at h <;> simp_all

/-- Behind the trivia in front of a separator. -/
theorem skip_append_of_separatorAt {gap : Scanned Unit} {sep after : List Char}
    (h : skip loc cs = .ok gap) (hsep : separatorAt gap.rest = some (sep, after))
    (more : List Char) :
    skip loc (cs ++ '\n' :: more) = .ok { gap with rest := gap.rest ++ '\n' :: more } := by
  apply skip_append_of_ne_nil h
  intro hnil
  rw [hnil] at hsep
  cases hsep

/-- A chain is read alike in a text that goes on, but for trivia that is passed over in search of
a word. -/
theorem readChain_append {words : List String} {s : Scanned (List String)}
    (h : readChain words loc cs = .ok s) (more : List Char) :
    ∃ t, readChain words loc (cs ++ '\n' :: ';' :: more) = .ok t ∧
      s.GoesOn ('\n' :: ';' :: more) t := by
  fun_induction readChain words loc cs with
  | case1 | case3 | case6 => cases h
  | case2 words loc cs gap h₁ h₂ =>
      cases h
      refine ⟨⟨words, loc, cs ++ '\n' :: ';' :: more⟩, ?_, rfl, rfl⟩
      by_cases hrest : gap.rest = []
      · exact readChain_of_end (skip_append_of_nil h₁ hrest more) rfl
      · exact readChain_of_end (skip_append_of_ne_nil h₁ hrest _) (separatorAt_append_feed h₂ _)
  | case4 words loc cs gap h₁ sep after h₂ next h₃ h₄ =>
      cases h
      -- the search for a word goes on over the line feed and ends at the semicolon
      refine ⟨⟨words, next.loc.next '\n', ';' :: more⟩, ?_, rfl, rfl⟩
      exact readChain_of_separator (skip_append_of_separatorAt h₁ h₂ _)
        (separatorAt_append h₂ _) (skip_append_of_nil h₃ h₄ more)
  | case5 words loc cs gap h₁ sep after h₂ next h₃ c body h₄ hc word ih =>
      obtain ⟨t, ht, hgoesOn⟩ := ih h
      refine ⟨t, ?_, hgoesOn⟩
      have hnext : next.rest ≠ [] := by
        rw [h₄]
        exact List.cons_ne_nil c body
      rw [readChain_of_separator (skip_append_of_separatorAt h₁ h₂ _) (separatorAt_append h₂ _)
        (skip_append_of_ne_nil h₃ hnext _), h₄]
      dsimp only [List.cons_append]
      rw [if_pos hc, ← List.cons_append, readWord_append next.loc c body]
      · exact ht
      · rintro d ⟨⟩
        decide
  | case7 words loc cs gap h₁ sep after h₂ next h₃ c body h₄ hc hb =>
      cases h
      have hnext : next.rest ≠ [] := by
        rw [h₄]
        exact List.cons_ne_nil c body
      refine ⟨⟨words, next.loc, c :: body ++ '\n' :: ';' :: more⟩, ?_, rfl, rfl⟩
      rw [readChain_of_separator (skip_append_of_separatorAt h₁ h₂ _) (separatorAt_append h₂ _)
        (skip_append_of_ne_nil h₃ hnext _), h₄]
      dsimp only [List.cons_append]
      rw [if_neg hc, if_neg hb]

/-! ## Lexemes -/

theorem goesOn_item {α : Type} {alone joined : Scan α} {f : α → Option Item}
    {s : Scanned (Option Item)} (h : alone.map (·.item f) = .ok s)
    (happend : ∀ u, alone = .ok u → ∃ v, joined = .ok v ∧ u.GoesOn more v) :
    ∃ t, joined.map (·.item f) = .ok t ∧ s.GoesOn more t := by
  obtain ⟨u, hu, rfl⟩ := Computation.except_map_eq_ok_iff.1 h
  obtain ⟨v, rfl, hval, hbehind⟩ := happend u hu
  exact ⟨v.item f, rfl, congrArg f hval, hbehind⟩

/-- A lexeme is read alike in a text that goes on. -/
theorem readLexeme_append {c : Char} {s : Scanned (Option Item)}
    (h : readLexeme loc c cs = .ok s) (more : List Char) :
    ∃ t, readLexeme loc c (cs ++ '\n' :: ';' :: more) = .ok t ∧
      s.GoesOn ('\n' :: ';' :: more) t := by
  unfold readLexeme at h
  split at h
  · exact goesOn_item h fun u hu => ⟨_, readVerbatim_append hu _, rfl, rfl⟩
  · exact goesOn_item h fun u hu => ⟨_, readText_append hu _, rfl, rfl⟩
  · exact goesOn_item h fun u hu => ⟨_, readVerbatim_append hu _, rfl, rfl⟩
  · exact goesOn_item h fun u hu => ⟨_, readVerbatim_append hu _, rfl, rfl⟩
  · exact goesOn_item h fun u hu => ⟨_, readText_append hu _, rfl, rfl⟩
  · exact goesOn_item h fun u hu => ⟨_, skipCharacter_append hu _, rfl, rfl⟩
  · cases h
  · rename_i hquote hapostrophe hbackslash hat hdollar hdollarAt hatDollar
    rw [readLexeme]
    · split
      · rename_i hname
        rw [if_pos hname] at h
        unfold nameLexeme at h ⊢
        rw [← List.cons_append, readWord_append loc c cs]
        · exact goesOn_item h fun u hu => readChain_append hu more
        · rintro d ⟨⟩
          decide
      · rename_i hname
        rw [if_neg hname] at h
        split
        · rename_i hdigit
          rw [if_pos hdigit] at h
          cases h
          have hfeed : ∀ d ∈ ('\n' :: ';' :: more).head?, isNumberPart d = false := by
            rintro d ⟨⟩
            decide
          obtain ⟨htake, hdrop⟩ := span_append (c :: cs) hfeed
          rw [← List.cons_append, htake, hdrop]
          exact ⟨_, rfl, rfl, rfl⟩
        · rename_i hdigit
          rw [if_neg hdigit] at h
          cases h
          exact ⟨_, rfl, rfl, rfl⟩
    · exact hquote
    · exact hapostrophe
    · exact hbackslash
    · exact not_append_feed ['"'] (by decide) hat
    · exact not_append_feed ['"'] (by decide) hdollar
    · exact not_append_feed ['@', '"'] (by decide) hdollarAt
    · exact not_append_feed ['$', '"'] (by decide) hatDollar

/-! ## Sources -/

/-- The items of a source are the item of its first lexeme, if that makes one, and the items
behind it. -/
theorem scanFrom_eq (loc : Location) (cs : List Char) :
    scanFrom loc cs =
      (skip loc cs).bind fun gap =>
        match gap.rest with
        | [] => .ok []
        | c :: body =>
          (readLexeme gap.loc c body).bind fun lexeme =>
            (scanFrom lexeme.loc lexeme.rest).map fun items =>
              (lexeme.val.map (Placed.mk · gap.loc)).toList ++ items := by
  fun_cases scanFrom loc cs <;> simp_all [Except.bind, Except.map]

theorem scanFrom_of_skip {gap : Scanned Unit} {c : Char} {body : List Char}
    (h : skip loc cs = .ok gap) (hrest : gap.rest = c :: body) :
    scanFrom loc cs =
      (readLexeme gap.loc c body).bind fun lexeme =>
        (scanFrom lexeme.loc lexeme.rest).map fun items =>
          (lexeme.val.map (Placed.mk · gap.loc)).toList ++ items := by
  rw [scanFrom_eq, h]
  simp only [Except.bind, hrest]

/-- What trivia was passed over in front of a text does not matter to its items. -/
theorem scanFrom_congr {ds : List Char}
    (h : Source.skipTrivia loc cs = Source.skipTrivia behind ds) :
    scanFrom loc cs = scanFrom behind ds := by
  rw [scanFrom_eq, scanFrom_eq, skip, skip, h]

/-- A source that can be scanned has the same items when a line feed, a semicolon and more text
follow it, and the items of that text come behind them. -/
theorem scanFrom_append {items : List (Placed Item)} (h : scanFrom loc cs = .ok items)
    (more : List Char) :
    ∃ behind, scanFrom loc (cs ++ '\n' :: ';' :: more) =
      (scanFrom behind more).map (items ++ ·) := by
  fun_induction scanFrom loc cs generalizing items with
  | case1 | case3 | case4 => cases h
  | case2 loc cs gap h₁ h₂ =>
      cases h
      refine ⟨(gap.loc.next '\n').next ';', ?_⟩
      rw [scanFrom_eq, skip_append_of_nil h₁ h₂]
      rfl
  | case5 loc cs gap h₁ c body h₂ lexeme h₃ items' h₄ ih =>
      cases h
      obtain ⟨behind, htail⟩ := ih h₄
      obtain ⟨t, ht, hval, hbehind⟩ := readLexeme_append h₃ more
      refine ⟨behind, ?_⟩
      have hgap : gap.rest ≠ [] := by
        rw [h₂]
        exact List.cons_ne_nil c body
      have hrest : gap.rest ++ '\n' :: ';' :: more = c :: (body ++ '\n' :: ';' :: more) := by
        rw [h₂, List.cons_append]
      rw [scanFrom_of_skip (skip_append_of_ne_nil h₁ hgap _) hrest, ht]
      show (scanFrom t.loc t.rest).map _ = _
      rw [scanFrom_congr hbehind, htail, hval]
      cases scanFrom behind more with
      | error e => rfl
      | ok rest => exact congrArg Except.ok (List.append_assoc ..).symm

end ScriptHost.Guard
