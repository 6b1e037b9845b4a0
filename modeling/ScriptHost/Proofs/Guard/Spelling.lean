import ScriptHost.Proofs.Guard.Joining
import ScriptHost.Proofs.Guard.Verdict
import Mathlib.Data.List.TakeWhile

/-!
# Spellings of a name

A chain of words can be spelled in many ways: in either case, with signs in front of its words,
with any of the separators, and with blanks and comments around these. All of them are scanned
into the same words, so none hides a forbidden name, whatever stands in front of it and behind.
-/

namespace ScriptHost.Guard
open Source (Trivia)

variable {loc : Location} {cs more : List Char} {words : List String} {word : String}

/-! ## Blanks and comments -/

/-- Blanks and comments that are closed. -/
inductive Gap : List Char → Prop
  | nil : Gap []
  | blank {c : Char} {cs : List Char} (hc : Text.isBlank c = true) (h : Gap cs) : Gap (c :: cs)
  | lineComment {body cs : List Char} (hbody : '\n' ∉ body) (h : Gap cs) :
      Gap ('/' :: '/' :: (body ++ '\n' :: cs))
  | blockComment {body cs : List Char} (hbody : ¬['*', '/'] <:+: body) (h : Gap cs) :
      Gap ('/' :: '*' :: (body ++ '*' :: '/' :: cs))

theorem skip_lineComment {body : List Char} (hbody : '\n' ∉ body) (loc : Location)
    (cs : List Char) :
    Trivia.skip .lineComment loc (body ++ '\n' :: cs) =
      Source.skipTrivia (loc.after (body ++ ['\n'])) cs := by
  induction body generalizing loc with
  | nil => rfl
  | cons c body ih =>
      obtain ⟨hc, hbody⟩ := not_or.1 (mt List.mem_cons.2 hbody)
      rw [List.cons_append, Trivia.skip_lineComment (Ne.symm hc), ih hbody]
      rfl

theorem skip_blockComment {body : List Char} (hbody : ¬['*', '/'] <:+: body) (opened : Location)
    (loc : Location) (cs : List Char) :
    Trivia.skip (.blockComment opened) loc (body ++ '*' :: '/' :: cs) =
      Source.skipTrivia (loc.after (body ++ ['*', '/'])) cs := by
  induction body generalizing loc with
  | nil => rfl
  | cons c body ih =>
      have htail : ¬['*', '/'] <:+: body := fun h => hbody (List.infix_cons h)
      have hend : ∀ rest, c = '*' → body ++ '*' :: '/' :: cs = '/' :: rest → False := by
        rintro rest rfl hrest
        cases body with
        | nil => cases hrest
        | cons d body =>
            obtain ⟨rfl, -⟩ := List.cons.inj hrest
            exact hbody (List.IsPrefix.isInfix ⟨body, rfl⟩)
      rw [List.cons_append, Trivia.skip_blockComment hend, ih htail]
      rfl

/-- A gap is passed over. -/
theorem skipTrivia_gap {gap : List Char} (h : Gap gap) (loc : Location) (cs : List Char) :
    Source.skipTrivia loc (gap ++ cs) = Source.skipTrivia (loc.after gap) cs := by
  induction h generalizing loc with
  | nil => rfl
  | blank hc h ih => exact (Trivia.skip_blank hc loc _).trans (ih _)
  | @lineComment body gap hbody h ih =>
      calc
        Source.skipTrivia loc ('/' :: '/' :: (body ++ '\n' :: gap) ++ cs)
          = Trivia.skip .lineComment (loc.after ['/', '/']) (body ++ '\n' :: (gap ++ cs)) := by
            rw [List.cons_append, List.cons_append, List.append_assoc]
            rfl
        _ = Source.skipTrivia ((loc.after ['/', '/']).after (body ++ ['\n'])) (gap ++ cs) :=
            skip_lineComment hbody _ _
        _ = Source.skipTrivia (loc.after ('/' :: '/' :: (body ++ '\n' :: gap))) cs := by
            rw [ih, ← Location.after_append, List.append_assoc]
            rfl
  | @blockComment body gap hbody h ih =>
      calc
        Source.skipTrivia loc ('/' :: '*' :: (body ++ '*' :: '/' :: gap) ++ cs)
          = Trivia.skip (.blockComment loc) (loc.after ['/', '*'])
              (body ++ '*' :: '/' :: (gap ++ cs)) := by
            rw [List.cons_append, List.cons_append, List.append_assoc]
            rfl
        _ = Source.skipTrivia ((loc.after ['/', '*']).after (body ++ ['*', '/'])) (gap ++ cs) :=
            skip_blockComment hbody _ _ _
        _ = Source.skipTrivia (loc.after ('/' :: '*' :: (body ++ '*' :: '/' :: gap))) cs := by
            rw [ih, ← Location.after_append, List.append_assoc]
            rfl

/-! ## Words -/

theorem isWordPart_of_range {c : Char} (first count : Nat) (hfirst : first ≤ c.toNat)
    (hlast : c.toNat < first + count)
    (hall : ∀ k < count, Text.isWordPart (Char.ofNat (first + k)) = false) :
    Text.isWordPart c = false := by
  have hk := hall (c.toNat - first) (by omega)
  rwa [Nat.add_sub_cancel' hfirst, Char.ofNat_toNat] at hk

/-- No blank continues a word. -/
theorem isWordPart_of_isBlank {c : Char} (h : Text.isBlank c = true) :
    Text.isWordPart c = false := by
  simp only [Text.isBlank, Bool.or_eq_true, Bool.and_eq_true, beq_iff_eq, decide_eq_true_eq] at h
  obtain ((((((((((h | ⟨hfirst, hlast⟩) | h) | h) | h) | ⟨hfirst, hlast⟩) | h) | h) | h) | h) | h) := h
  any_goals
    subst h
    decide +kernel
  · exact isWordPart_of_range 0x9 5 hfirst (Nat.lt_succ_of_le hlast) (by decide +kernel)
  · exact isWordPart_of_range 0x2000 11 hfirst (Nat.lt_succ_of_le hlast) (by decide +kernel)

theorem isWordPart_of_isNameStart {c : Char} (h : isNameStart c = true) :
    c = '@' ∨ Text.isWordPart c = true := by
  rcases Bool.or_eq_true_iff.1 h with hstart | hsign
  · exact Or.inr (isWordPart_of_isWordStart hstart)
  · exact Or.inl (beq_iff_eq.1 hsign)

/-- No trivia starts with a name. -/
theorem skipTrivia_of_isNameStart {c : Char} (h : isNameStart c = true) (loc : Location)
    (cs : List Char) : Source.skipTrivia loc (c :: cs) = ⟨c :: cs, loc, none⟩ := by
  apply skipTrivia_cons
  · rcases isWordPart_of_isNameStart h with rfl | hpart
    · decide
    · by_contra hblank
      rw [isWordPart_of_isBlank (by simpa using hblank)] at hpart
      cases hpart
  · rintro rfl
    revert h
    decide

/-- The letters of a word. -/
structure IsWord (letters : List Char) : Prop where
  start : ∃ c ∈ letters.head?, Text.isWordStart c = true
  parts : ∀ c ∈ letters, Text.isWordPart c = true

/-- The text spells a word given in lower case, perhaps behind the sign that marks a word as
literal. -/
inductive SpellsWord (word : String) : List Char → Prop
  | plain {letters : List Char} (h : IsWord letters)
      (hcase : Text.lowercase (String.ofList letters) = word) : SpellsWord word letters
  | marked {letters : List Char} (h : IsWord letters)
      (hcase : Text.lowercase (String.ofList letters) = word) : SpellsWord word ('@' :: letters)

theorem IsWord.eq_cons {letters : List Char} (h : IsWord letters) :
    ∃ c rest, letters = c :: rest ∧ Text.isWordStart c = true := by
  obtain ⟨c, hc, hstart⟩ := h.start
  cases letters with
  | nil => cases hc
  | cons d rest =>
      cases hc
      exact ⟨c, rest, rfl, hstart⟩

theorem IsWord.ne_empty {letters : List Char} (h : IsWord letters) :
    String.ofList letters ≠ "" := by
  obtain ⟨c, rest, rfl, -⟩ := h.eq_cons
  intro hempty
  have := congrArg String.toList hempty
  simp at this

/-- What does not continue a word ends it. -/
theorem IsWord.span {letters : List Char} (h : IsWord letters)
    (hmore : ∀ d ∈ more.head?, Text.isWordPart d = false) :
    (letters ++ more).takeWhile Text.isWordPart = letters ∧
      (letters ++ more).dropWhile Text.isWordPart = more := by
  obtain ⟨htake, hdrop⟩ := span_append letters hmore
  rw [htake, hdrop, List.takeWhile_eq_self_iff.2 h.parts, List.dropWhile_eq_nil_iff.2 h.parts]
  exact ⟨rfl, rfl⟩

/-- A sign in front of a word starts a name. -/
theorem readLexeme_sign {c : Char} (h : Text.isWordStart c = true) (loc : Location)
    (cs : List Char) : readLexeme loc '@' (c :: cs) = nameLexeme loc '@' (c :: cs) := by
  have hmark : c ∉ marks := notMem_marks (by decide) h
  unfold readLexeme
  split <;> rename_i heq
  all_goals first
    | exact if_pos rfl
    | exact absurd heq (by decide)
    | exact absurd ((List.cons.inj heq).1 ▸ by decide) hmark

/-- A spelled word starts a name and is read whole. -/
theorem SpellsWord.read (h : SpellsWord word cs) :
    ∃ c body name, cs = c :: body ∧ isNameStart c = true ∧ name ≠ "" ∧
      Text.lowercase name = word ∧
      (∀ loc more, readLexeme loc c (body ++ more) = nameLexeme loc c (body ++ more)) ∧
      ∀ loc more, (∀ d ∈ more.head?, Text.isWordPart d = false) →
        readWord loc (cs ++ more) = ⟨name, loc.after cs, more⟩ := by
  cases h with
  | plain hword hcase =>
      obtain ⟨c, body, rfl, hstart⟩ := hword.eq_cons
      refine ⟨c, body, _, rfl, isNameStart_of_isWordStart hstart, hword.ne_empty, hcase, ?_, ?_⟩
      · intro loc more
        exact readLexeme_of_isWordStart hstart
      · intro loc more hmore
        obtain ⟨htake, hdrop⟩ := hword.span hmore
        rw [List.cons_append, readWord_of_isWordStart hstart, ← List.cons_append, htake, hdrop]
  | @marked letters hword hcase =>
      refine ⟨'@', letters, _, rfl, by decide, hword.ne_empty, hcase, ?_, ?_⟩
      · intro loc more
        obtain ⟨c, body, rfl, hstart⟩ := hword.eq_cons
        exact readLexeme_sign hstart loc (body ++ more)
      · intro loc more hmore
        obtain ⟨htake, hdrop⟩ := hword.span hmore
        rw [List.cons_append, readWord, htake, hdrop]
        rfl

/-! ## Chains -/

/-- The separators of a chain. -/
def separators : List (List Char) := [['.'], [':', ':'], ['?', '.']]

theorem separatorAt_of_mem {sep : List Char} (h : sep ∈ separators) (cs : List Char) :
    separatorAt (sep ++ cs) = some (sep, cs) := by
  simp only [separators, List.mem_cons, List.not_mem_nil, or_false] at h
  obtain rfl | rfl | rfl := h <;> rfl

theorem skipTrivia_separator {sep : List Char} (h : sep ∈ separators) (loc : Location)
    (cs : List Char) : Source.skipTrivia loc (sep ++ cs) = ⟨sep ++ cs, loc, none⟩ := by
  simp only [separators, List.mem_cons, List.not_mem_nil, or_false] at h
  obtain rfl | rfl | rfl := h <;> exact skipTrivia_cons (by decide) (by decide) _ _

/-- The text spells the words one after the other, with a separator between them and gaps
around it. -/
inductive Spells : List String → List Char → Prop
  | last {word : String} {cs : List Char} (h : SpellsWord word cs) : Spells [word] cs
  | cons {word : String} {words : List String} {cs before sep after rest : List Char}
      (h : SpellsWord word cs) (hbefore : Gap before) (hsep : sep ∈ separators)
      (hafter : Gap after) (hrest : Spells words rest) :
      Spells (word :: words) (cs ++ (before ++ (sep ++ (after ++ rest))))

/-- What stands between two words continues neither. -/
theorem isWordPart_of_link {before sep : List Char} (hbefore : Gap before)
    (hsep : sep ∈ separators) (cs : List Char) :
    ∀ d ∈ (before ++ (sep ++ cs)).head?, Text.isWordPart d = false := by
  cases hbefore with
  | nil =>
      simp only [separators, List.mem_cons, List.not_mem_nil, or_false] at hsep
      obtain rfl | rfl | rfl := hsep <;> rintro d ⟨⟩ <;> decide
  | blank hc h =>
      rintro d ⟨⟩
      exact isWordPart_of_isBlank hc
  | lineComment | blockComment =>
      rintro d ⟨⟩
      decide

/-- A further word is read into the chain. -/
theorem readChain_link {before sep after body : List Char} {c : Char} (hbefore : Gap before)
    (hsep : sep ∈ separators) (hafter : Gap after) (hc : isNameStart c = true) (loc : Location) :
    ∃ behind, ∀ words, readChain words loc (before ++ (sep ++ (after ++ c :: body))) =
      readChain (words ++ [(readWord behind (c :: body)).val]) (readWord behind (c :: body)).loc
        (readWord behind (c :: body)).rest := by
  have hgap : skip loc (before ++ (sep ++ (after ++ c :: body))) =
      .ok ⟨(), loc.after before, sep ++ (after ++ c :: body)⟩ := by
    apply skip_of_skipTrivia
    rw [skipTrivia_gap hbefore, skipTrivia_separator hsep]
  have hnext : skip ((loc.after before).after sep) (after ++ c :: body) =
      .ok ⟨(), ((loc.after before).after sep).after after, c :: body⟩ := by
    apply skip_of_skipTrivia
    rw [skipTrivia_gap hafter, skipTrivia_of_isNameStart hc]
  refine ⟨((loc.after before).after sep).after after, fun words => ?_⟩
  rw [readChain_of_separator hgap (separatorAt_of_mem hsep _) hnext]
  exact if_pos hc

/-- A spelled chain starts a name, and its words are read into the chain one by one. -/
theorem Spells.read (h : Spells words cs) :
    ∃ c body name names, cs = c :: body ∧ isNameStart c = true ∧ name ≠ "" ∧
      (name :: names).map Text.lowercase = words ∧
      (∀ loc more, readLexeme loc c (body ++ more) = nameLexeme loc c (body ++ more)) ∧
      ∀ loc more, (∀ d ∈ more.head?, Text.isWordPart d = false) →
        (readWord loc (cs ++ more)).val = name ∧
          ∃ behind, ∀ front, readChain front (readWord loc (cs ++ more)).loc
            (readWord loc (cs ++ more)).rest = readChain (front ++ names) behind more := by
  induction h with
  | last h =>
      obtain ⟨c, body, name, rfl, hc, hname, hcase, hlexeme, hword⟩ := h.read
      refine ⟨c, body, name, [], rfl, hc, hname, congrArg (· :: []) hcase, hlexeme, ?_⟩
      intro loc more hmore
      rw [hword loc more hmore]
      exact ⟨rfl, _, fun front => by rw [List.append_nil]⟩
  | @cons word words cs before sep after rest h hbefore hsep hafter hrest ih =>
      obtain ⟨c, body, name, rfl, hc, hname, hcase, hlexeme, hword⟩ := h.read
      obtain ⟨d, tail, second, names, rfl, hd, -, hnames, -, hread⟩ := ih
      refine ⟨c, body ++ (before ++ (sep ++ (after ++ d :: tail))), name, second :: names, rfl, hc,
        hname, ?_, ?_, ?_⟩
      · rw [List.map_cons, hcase, hnames]
      · intro loc more
        rw [List.append_assoc]
        exact hlexeme loc _
      · intro loc more hmore
        have hjoin : c :: body ++ (before ++ (sep ++ (after ++ d :: tail))) ++ more =
            c :: body ++ (before ++ (sep ++ (after ++ d :: (tail ++ more)))) := by
          simp only [List.append_assoc, List.cons_append]
        rw [hjoin, hword loc _ (isWordPart_of_link hbefore hsep _)]
        refine ⟨rfl, ?_⟩
        obtain ⟨middle, hlink⟩ :=
          @readChain_link before sep after (tail ++ more) d hbefore hsep hafter hd
            (loc.after (c :: body))
        obtain ⟨hsecond, behind, hchain⟩ := hread middle more hmore
        refine ⟨behind, fun front => ?_⟩
        rw [List.cons_append] at hsecond hchain
        rw [hlink front, hsecond, hchain, List.append_assoc]
        rfl

theorem readChain_prefix {s : Scanned (List String)} (h : readChain words loc cs = .ok s) :
    words <+: s.val := by
  fun_induction readChain words loc cs with
  | case1 | case3 | case6 => cases h
  | case2 | case4 | case7 =>
      cases h
      exact List.prefix_rfl
  | case5 words loc cs gap h₁ sep after h₂ next h₃ c body h₄ hc word ih =>
      exact (List.prefix_append words [word.val]).trans (ih h)

/-- A spelled chain is an error of the scan, for what follows it, or the words of the first item
start with its words. -/
theorem scanFrom_of_spells (h : Spells words cs)
    (hmore : ∀ d ∈ more.head?, Text.isWordPart d = false) (loc : Location) :
    (∃ e, scanFrom loc (cs ++ more) = .error e) ∨
      ∃ chain items, scanFrom loc (cs ++ more) = .ok (⟨.name chain, loc⟩ :: items) ∧
        words <+: chain.map Text.lowercase := by
  obtain ⟨c, body, name, names, rfl, hc, hname, hcase, hlexeme, hread⟩ := h.read
  obtain ⟨hval, behind, hchain⟩ := hread loc more hmore
  have hlexeme : readLexeme loc c (body ++ more) =
      (readChain (name :: names) behind more).map (·.item nameItem) := by
    rw [hlexeme, nameLexeme, ← List.cons_append, hval, hchain]
    rfl
  rw [List.cons_append,
    scanFrom_of_skip (skip_of_skipTrivia (skipTrivia_of_isNameStart hc loc _)) rfl, hlexeme]
  cases hchain : readChain (name :: names) behind more with
  | error e => exact Or.inl ⟨e, rfl⟩
  | ok s =>
      obtain ⟨others, hwords⟩ := readChain_prefix hchain
      have hitem : nameItem s.val = some (.name s.val) := by
        rw [nameItem, if_neg]
        rw [← hwords]
        exact fun h => hname (List.cons.inj h).1
      cases hscan : scanFrom s.loc s.rest with
      | error e =>
          refine Or.inl ⟨e, ?_⟩
          show (scanFrom s.loc s.rest).map _ = _
          rw [hscan]
          rfl
      | ok items =>
          refine Or.inr ⟨s.val, items, ?_, ?_⟩
          · show (scanFrom s.loc s.rest).map (fun items =>
              ((nameItem s.val).map (Placed.mk · loc)).toList ++ items) = _
            rw [hscan, hitem]
            rfl
          · rw [← hcase, ← hwords, List.map_append]
            exact List.prefix_append _ _

/-! ## Forbidden names -/

theorem occursIn_of_prefix {chain : List String} (h : words <+: chain) :
    occursIn words chain = true := by
  obtain ⟨others, rfl⟩ := h
  cases words with
  | nil => cases others <;> rfl
  | cons word words =>
      have hstart : (word :: words).isPrefixOf (word :: words ++ others) = true :=
        List.isPrefixOf_iff_prefix.2 (List.prefix_append _ _)
      exact Bool.or_eq_true_iff.2 (Or.inl hstart)

theorem Spells.ne_nil (h : Spells words cs) : words ≠ [] := by
  cases h with
  | last | cons => exact List.cons_ne_nil _ _

/-- The pattern of a policy entry that has words. -/
theorem mem_patterns {entry : String} {entries : List String} (hentry : entry ∈ entries)
    (hwords : patternWords entry ≠ []) :
    ⟨entry, patternWords entry⟩ ∈ entries.filterMap Pattern.ofEntry? := by
  refine List.mem_filterMap.2 ⟨entry, hentry, ?_⟩
  rw [Pattern.ofEntry?, if_neg]
  rwa [List.isEmpty_iff]

/-- A chain that starts with the words of a forbidden name or of a blocked library fails. -/
theorem checkName_of_start {p : Policy} {entry : String} {chain : List String}
    (hentry : entry ∈ p.forbiddenApis ∨ entry ∈ p.blockedLibraries)
    (hwords : patternWords entry ≠ [])
    (hchain : patternWords entry <+: chain.map Text.lowercase) (loc : Location) :
    (Rules.ofPolicy p).checkName chain loc ≠ .ok () := by
  intro hok
  obtain ⟨hforbidden, hlibraries⟩ := Rules.checkName_eq_ok_iff.1 hok
  have hoccurs := occursIn_of_prefix hchain
  rcases hentry with hentry | hentry
  · have habsent := hforbidden _ (mem_patterns hentry hwords)
    exact Bool.false_ne_true (habsent.symm.trans hoccurs)
  · have habsent := (hlibraries _ (mem_patterns hentry hwords)).1
    exact Bool.false_ne_true (habsent.symm.trans hoccurs)

/-- No spelling and no text in front hides a forbidden name or a blocked library. -/
theorem checkSource_of_spells {p : Policy} {entry front spelling behind : String}
    {items : List (Placed Item)} (hrestrict : p.restrictApis = true)
    (hentry : entry ∈ p.forbiddenApis ∨ entry ∈ p.blockedLibraries)
    (hfront : scan front = .ok items) (hspelling : Spells (patternWords entry) spelling.toList)
    (hbehind : ∀ c ∈ behind.toList.head?, Text.isWordPart c = false) :
    ∃ violation, checkSource (front ++ "\n;" ++ spelling ++ behind) p = .error violation := by
  obtain ⟨loc, hscan⟩ := scanFrom_append hfront (spelling.toList ++ behind.toList)
  have hsource : scan (front ++ "\n;" ++ spelling ++ behind) =
      (scanFrom loc (spelling.toList ++ behind.toList)).map (items ++ ·) := by
    rw [← hscan, scan]
    simp
  rcases scanFrom_of_spells hspelling hbehind loc with ⟨e, he⟩ | ⟨chain, others, hok, hchain⟩
  · apply eq_error_of_ne_ok
    intro hok
    obtain ⟨_, hitems, -⟩ := (checkSource_eq_ok_iff.1 hok).2 hrestrict
    rw [hsource, he] at hitems
    cases hitems
  · rw [hok] at hsource
    have hitem : ⟨.name chain, loc⟩ ∈ items ++ ⟨.name chain, loc⟩ :: others :=
      List.mem_append_right items (List.mem_cons_self ..)
    exact checkSource_of_item hrestrict hsource hitem
      (checkName_of_start hentry hspelling.ne_nil hchain loc)

/-- Behind an open comment: a sign, capitals, a blank, comments and another separator. -/
theorem checkSource_of_spells_marked :
    ∃ violation, checkSource ("x. // y" ++ "\n;" ++ "@PROCESS /*.*/?.//\nstart" ++ "(1)")
      Policy.production = .error violation := by
  have hentry : "Process.Start" ∈ Policy.production.forbiddenApis.names := by decide +kernel
  have hfront : scan "x. // y" = .ok [⟨.name ["x"], ⟨1, 1⟩⟩] := by
    decide +kernel
  have hwords : patternWords "Process.Start" = ["process", "start"] := by decide +kernel
  have hprocess : SpellsWord "process" ('@' :: ['P', 'R', 'O', 'C', 'E', 'S', 'S']) :=
    .marked ⟨⟨'P', rfl, by decide⟩, List.all_eq_true.1 (by decide)⟩ (by decide +kernel)
  have hstart : SpellsWord "start" ['s', 't', 'a', 'r', 't'] :=
    .plain ⟨⟨'s', rfl, by decide⟩, List.all_eq_true.1 (by decide)⟩ (by decide +kernel)
  have hbefore : Gap (' ' :: '/' :: '*' :: (['.'] ++ '*' :: '/' :: [])) :=
    .blank (by decide) (.blockComment (by decide) .nil)
  have hafter : Gap ('/' :: '/' :: ([] ++ '\n' :: [])) := .lineComment (by decide) .nil
  have hquestion : ['?', '.'] ∈ separators := by decide
  have hspelling : Spells (patternWords "Process.Start") "@PROCESS /*.*/?.//\nstart".toList :=
    hwords ▸ .cons hprocess hbefore hquestion hafter (.last hstart)
  have hbehind : ∀ c ∈ "(1)".toList.head?, Text.isWordPart c = false := by
    rintro c ⟨⟩
    decide
  exact checkSource_of_spells rfl (Or.inl hentry) hfront hspelling hbehind

end ScriptHost.Guard
