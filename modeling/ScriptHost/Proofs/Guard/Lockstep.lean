import ScriptHost.Proofs.Guard.TokenItems
import ScriptHost.Proofs.Script.Lexemes
import ScriptHost.Proofs.Text.Capitals

/-!
# Scanning and cutting in step

The scan of a text and its cutting into tokens read characters by rules of their own. On a
text without lexical errors they differ in numbers only: the scan takes in letters and dots
behind a number. Where no number stands before a word or a dot, the scan finds exactly the
items of the tokens.
-/

namespace ScriptHost.Guard
open Script (Token Reads)

/-! ## Characters -/

/-- The characters that start a literal or an escape. -/
def marks : List Char := ['@', '$', '"', '\'', '\\']

theorem readLexeme_of_notMem_marks {c : Char} (h : c ∉ marks) (loc : Location) (cs : List Char) :
    readLexeme loc c cs =
      if isNameStart c then nameLexeme loc c cs
      else if c.isDigit then
        .ok ⟨none, loc.after ((c :: cs).takeWhile isNumberPart),
          (c :: cs).dropWhile isNumberPart⟩
      else .ok ⟨none, loc.next c, cs⟩ := by
  unfold readLexeme
  split
  all_goals first
    | rfl
    | exact absurd (by decide) h

/-- No mark satisfies a test that fails on all of them. -/
theorem notMem_marks {p : Char → Bool} (hmarks : marks.all (!p ·) = true) {c : Char}
    (h : p c = true) : c ∉ marks := by
  intro hc
  have := List.all_eq_true.1 hmarks c hc
  rw [h] at this
  cases this

/-- A character that starts no item and spoils none: the scan passes over it alone. -/
def isPlain (c : Char) : Bool := !isNameStart c && !c.isDigit && !marks.contains c

theorem readLexeme_of_isPlain {c : Char} (h : isPlain c = true) (loc : Location)
    (cs : List Char) : readLexeme loc c cs = .ok ⟨none, loc.next c, cs⟩ := by
  simp only [isPlain, Bool.and_eq_true, Bool.not_eq_true'] at h
  obtain ⟨⟨hname, hdigit⟩, hmark⟩ := h
  rw [readLexeme_of_notMem_marks (by simpa using hmark), hname, hdigit]
  rfl

/-- A digit starts no name. -/
theorem isNameStart_of_isDigit {c : Char} (h : c.isDigit = true) : isNameStart c = false := by
  have hne : ∀ d : Char, d.isDigit = false → c ≠ d := by
    rintro d hd rfl
    exact Bool.false_ne_true (hd.symm.trans h)
  simp only [Char.isDigit, Bool.and_eq_true, decide_eq_true_eq, UInt32.le_iff_toNat_le,
    ge_iff_le] at h
  have hascii : c.val < 128 := UInt32.lt_iff_toNat_lt.2 (Nat.lt_of_le_of_lt h.2 (by decide))
  have halpha : c.isAlpha = false := by
    apply Bool.eq_false_iff.2
    rw [Ne, Text.isAlpha_iff]
    have h9 : '9'.val.toNat = 57 := rfl
    omega
  simp [isNameStart, Text.isWordStart, Text.isLetter, hascii, halpha, hne '_' (by decide),
    hne '@' (by decide)]

/-- A letter below the eighth bit starts a word. -/
theorem isWordStart_of_isAlpha {c : Char} (h : c.isAlpha = true) : Text.isWordStart c = true := by
  have hascii : c.val < 128 := by
    have hrange := Text.isAlpha_iff.1 h
    exact UInt32.lt_iff_toNat_lt.2 (show c.val.toNat < 128 by omega)
  simp [Text.isWordStart, Text.isLetter, hascii, h]

/-- A letter below the eighth bit is no blank. -/
theorem isBlank_of_isAlpha {c : Char} (h : c.isAlpha = true) : Text.isBlank c = false := by
  have hne : ∀ d : Char, d.isAlpha = false → (c == d) = false := by
    rintro d hd
    apply beq_eq_false_iff_ne.2
    rintro rfl
    exact Bool.false_ne_true (hd.symm.trans h)
  have hrange : ∀ d e : Char, e.val.toNat < 65 ∨ 122 < d.val.toNat →
      (decide (d ≤ c) && decide (c ≤ e)) = false := by
    intro d e hde
    have hletter := Text.isAlpha_iff.1 h
    rw [Bool.and_eq_false_iff, decide_eq_false_iff_not, decide_eq_false_iff_not, Char.le_def,
      Char.le_def, UInt32.le_iff_toNat_le, UInt32.le_iff_toNat_le]
    omega
  simp (disch := decide) only [Text.isBlank, hne, hrange, Bool.or_false]

theorem isNameStart_of_isWordStart {c : Char} (h : Text.isWordStart c = true) :
    isNameStart c = true := by
  rw [isNameStart, h, Bool.true_or]

theorem isWordPart_of_isWordStart {c : Char} (h : Text.isWordStart c = true) :
    Text.isWordPart c = true := by
  simp only [Text.isWordStart, Text.isWordPart, Bool.or_eq_true] at h ⊢
  rcases h with h | h
  · exact Or.inl (Or.inl h)
  · exact Or.inr h

/-- No trivia starts with a character that is neither a blank nor a slash. -/
theorem skipTrivia_cons {c : Char} (hblank : Text.isBlank c = false) (hslash : c ≠ '/')
    (loc : Location) (cs : List Char) :
    Source.skipTrivia loc (c :: cs) = ⟨c :: cs, loc, none⟩ := by
  unfold Source.skipTrivia Source.Trivia.skip
  split <;> simp_all

/-! ## The lexemes of a text without errors -/

/-- A symbol is one plain character or two. -/
theorem plain_of_symbolAt {c : Char} {cs rest : List Char} {s : Script.Symbol}
    (h : Script.symbolAt (c :: cs) = some (s, rest)) :
    isPlain c = true ∧
      ((cs = rest ∧ s.spelling.toList = [c]) ∨
        ∃ d, cs = d :: rest ∧ s.spelling.toList = [c, d] ∧ isPlain d = true ∧
          Text.isBlank d = false ∧ d ≠ '/') := by
  unfold Script.symbolAt at h
  split at h <;> cases h <;> rename_i heq <;> cases heq <;> refine ⟨by decide, ?_⟩
  all_goals first
    | exact Or.inl ⟨rfl, by decide⟩
    | exact Or.inr ⟨_, rfl, by decide, by decide, by decide, by decide⟩

/-- The inside of a text that is cut without an error is scanned alike. -/
theorem readText_of_token {opened : Location} {read : List Char} {loc behind : Location}
    {cs rest : List Char} {t : Token}
    (h : Script.readText opened read loc cs = ⟨some t, [], rest, behind⟩) :
    ∃ s, t = .text s ∧ readText opened read loc cs = .ok ⟨s, behind, rest⟩ := by
  fun_induction Script.readText opened read loc cs with
  | case1 read loc cs =>
      cases h
      exact ⟨_, rfl, by rw [readText]⟩
  | case2 => cases h
  | case3 read loc c cs e he ih =>
      obtain ⟨s, hs, hread⟩ := ih h
      exact ⟨s, hs, by rw [readText, he]; exact hread⟩
  | case4 read loc c cs he tail ih => cases congrArg Script.Lexeme.errors h
  | case5 => cases h
  | case6 read loc c cs hquote hfeed hesc hend ih =>
      obtain ⟨s, hs, hread⟩ := ih h
      refine ⟨s, hs, ?_⟩
      rw [readText] <;> assumption
  | case7 => cases h

/-- Longer runs are the same where what follows the shorter one ends them too. -/
theorem span_eq_of_imp {p q : Char → Bool} (himp : ∀ c, p c = true → q c = true) {cs : List Char}
    (hhead : ∀ c rest, cs.dropWhile p = c :: rest → q c = false) :
    cs.takeWhile q = cs.takeWhile p ∧ cs.dropWhile q = cs.dropWhile p := by
  induction cs with
  | nil => exact ⟨rfl, rfl⟩
  | cons c cs ih =>
      by_cases hp : p c = true
      · rw [List.dropWhile_cons_of_pos hp] at hhead
        obtain ⟨htake, hdrop⟩ := ih hhead
        rw [List.takeWhile_cons_of_pos hp, List.takeWhile_cons_of_pos (himp c hp),
          List.dropWhile_cons_of_pos hp, List.dropWhile_cons_of_pos (himp c hp), htake, hdrop]
        exact ⟨rfl, rfl⟩
      · have hq : ¬q c = true := by
          rw [hhead c cs (List.dropWhile_cons_of_neg hp)]
          exact Bool.false_ne_true
        rw [List.takeWhile_cons_of_neg hp, List.takeWhile_cons_of_neg hq,
          List.dropWhile_cons_of_neg hp, List.dropWhile_cons_of_neg hq]
        exact ⟨rfl, rfl⟩

theorem isNumberPart_of_isIntegerPart (c : Char) (h : Script.isIntegerPart c = true) :
    isNumberPart c = true := by
  simp only [Script.isIntegerPart, isNumberPart, Char.isAlphanum, Bool.or_eq_true] at h ⊢
  rcases h with h | h
  · exact Or.inl (Or.inl (Or.inr h))
  · exact Or.inl (Or.inr h)

/-- The word of a word token, and the keyword of another, is spelled as written. -/
theorem spelling?_wordToken (name : String) : (Script.wordToken name).spelling? = some name := by
  unfold Script.wordToken
  split
  · rename_i k hk
    have hspelling := List.find?_some hk
    exact congrArg some (beq_iff_eq.1 hspelling)
  · rfl

/-- A token read without an error is a symbol, a text, an integer or a word. -/
theorem readLexeme_cases {loc behind : Location} {c : Char} {cs rest : List Char} {t : Token}
    (h : Script.readLexeme loc c cs = ⟨some t, [], rest, behind⟩) :
    (∃ s, t = .symbol s ∧ Script.symbolAt (c :: cs) = some (s, rest) ∧
        behind = loc.after s.spelling.toList) ∨
      (c = '"' ∧ Script.readText loc [] (loc.next c) cs = ⟨some t, [], rest, behind⟩) ∨
      (c.isDigit = true ∧ (∃ n, t = .int n) ∧
        rest = (c :: cs).dropWhile Script.isIntegerPart ∧
        behind = loc.after ((c :: cs).takeWhile Script.isIntegerPart)) ∨
      (Text.isWordStart c = true ∧
        t = Script.wordToken (String.ofList ((c :: cs).takeWhile Text.isWordPart)) ∧
        rest = (c :: cs).dropWhile Text.isWordPart ∧
        behind = loc.after ((c :: cs).takeWhile Text.isWordPart)) := by
  unfold Script.readLexeme at h
  split at h
  · rename_i s rest' hsymbol
    cases h
    exact Or.inl ⟨s, rfl, hsymbol, rfl⟩
  · split at h
    · exact Or.inr (Or.inl ⟨‹_›, h⟩)
    · split at h
      · rename_i hdigit
        unfold Script.readInteger at h
        dsimp only at h
        split at h <;> cases h
        exact Or.inr (Or.inr (Or.inl ⟨hdigit, ⟨_, rfl⟩, rfl, rfl⟩))
      · split at h
        · rename_i hword
          cases h
          exact Or.inr (Or.inr (Or.inr ⟨hword, rfl, rfl, rfl⟩))
        · cases h

/-! ## One step of the scan -/

theorem scanFrom_of_readLexeme {loc start : Location} {cs body : List Char} {c : Char}
    {s : Scanned (Option Item)} {items : List (Placed Item)}
    (gap : Source.skipTrivia loc cs = ⟨c :: body, start, none⟩)
    (lexeme : readLexeme start c body = .ok s) (tail : scanFrom s.loc s.rest = .ok items) :
    scanFrom loc cs = .ok ((s.val.map (Placed.mk · start)).toList ++ items) := by
  have hskip : skip loc cs = .ok ⟨(), start, c :: body⟩ := by rw [skip, gap]
  fun_cases scanFrom loc cs <;> simp_all

theorem scanFrom_of_end {loc finish : Location} {cs : List Char}
    (gap : Source.skipTrivia loc cs = ⟨[], finish, none⟩) : scanFrom loc cs = .ok [] := by
  have hskip : skip loc cs = .ok ⟨(), finish, []⟩ := by rw [skip, gap]
  fun_cases scanFrom loc cs <;> simp_all

/-- The scan passes over a symbol. -/
theorem scanFrom_of_symbolAt {loc start : Location} {cs body rest : List Char} {c : Char}
    {s : Script.Symbol} {items : List (Placed Item)}
    (gap : Source.skipTrivia loc cs = ⟨c :: body, start, none⟩)
    (hsymbol : Script.symbolAt (c :: body) = some (s, rest))
    (tail : scanFrom (start.after s.spelling.toList) rest = .ok items) :
    scanFrom loc cs = .ok items := by
  obtain ⟨hc, ⟨rfl, hspelling⟩ | ⟨d, rfl, hspelling, hd, hblank, hslash⟩⟩ := plain_of_symbolAt hsymbol
  · rw [hspelling] at tail
    exact scanFrom_of_readLexeme gap (readLexeme_of_isPlain hc _ _) tail
  · rw [hspelling] at tail
    -- the scan reads the two characters of the symbol as two lexemes
    have second : scanFrom (start.next c) (d :: rest) = .ok items :=
      scanFrom_of_readLexeme (skipTrivia_cons hblank hslash _ _) (readLexeme_of_isPlain hd _ _) tail
    exact scanFrom_of_readLexeme gap (readLexeme_of_isPlain hc _ _) second

/-- The scan reads a text as it is cut. -/
theorem readLexeme_of_text {loc behind : Location} {cs rest : List Char} {t : Token}
    (h : Script.readText loc [] (loc.next '"') cs = ⟨some t, [], rest, behind⟩) :
    ∃ s, t = .text s ∧ readLexeme loc '"' cs = .ok ⟨some (.text s), behind, rest⟩ := by
  obtain ⟨s, hs, hread⟩ := readText_of_token h
  refine ⟨s, hs, ?_⟩
  show textLexeme loc cs = _
  rw [textLexeme, hread]
  rfl

/-- The scan passes over an integer when nothing that could continue a number follows it. -/
theorem readLexeme_of_isDigit {loc : Location} {c : Char} {cs : List Char}
    (hdigit : c.isDigit = true)
    (hhead : ∀ d rest, (c :: cs).dropWhile Script.isIntegerPart = d :: rest →
      isNumberPart d = false) :
    readLexeme loc c cs =
      .ok ⟨none, loc.after ((c :: cs).takeWhile Script.isIntegerPart),
        (c :: cs).dropWhile Script.isIntegerPart⟩ := by
  obtain ⟨htake, hdrop⟩ := span_eq_of_imp isNumberPart_of_isIntegerPart hhead
  rw [readLexeme_of_notMem_marks (notMem_marks (by decide) hdigit),
    isNameStart_of_isDigit hdigit, hdigit, htake, hdrop]
  rfl

/-- The scan reads a chain from a word on. -/
theorem readLexeme_of_isWordStart {loc : Location} {c : Char} {cs : List Char}
    (hword : Text.isWordStart c = true) : readLexeme loc c cs = nameLexeme loc c cs := by
  rw [readLexeme_of_notMem_marks (notMem_marks (by decide) hword)]
  exact if_pos (isNameStart_of_isWordStart hword)

/-- Behind a word start, both read the same word. -/
theorem readWord_of_isWordStart {loc : Location} {c : Char} {cs : List Char}
    (hword : Text.isWordStart c = true) :
    readWord loc (c :: cs) =
      ⟨String.ofList ((c :: cs).takeWhile Text.isWordPart),
        loc.after ((c :: cs).takeWhile Text.isWordPart),
        (c :: cs).dropWhile Text.isWordPart⟩ := by
  unfold readWord
  split
  · rename_i heq
    cases heq
    exact absurd hword (by decide)
  · rfl

/-- A chain that starts with a word is a name. -/
theorem readLexeme_of_readChain {loc behind : Location} {c : Char} {cs rest : List Char}
    {words : List String} (hword : Text.isWordStart c = true)
    (hchain : readChain [String.ofList ((c :: cs).takeWhile Text.isWordPart)]
        (loc.after ((c :: cs).takeWhile Text.isWordPart))
        ((c :: cs).dropWhile Text.isWordPart) =
      .ok ⟨[String.ofList ((c :: cs).takeWhile Text.isWordPart)] ++ words, behind, rest⟩) :
    readLexeme loc c cs =
      .ok ⟨some (.name (String.ofList ((c :: cs).takeWhile Text.isWordPart) :: words)),
        behind, rest⟩ := by
  have hne : String.ofList ((c :: cs).takeWhile Text.isWordPart) ≠ "" := by
    rw [List.takeWhile_cons_of_pos (isWordPart_of_isWordStart hword)]
    intro h
    have := congrArg String.toList h
    simp at this
  rw [readLexeme_of_isWordStart hword, nameLexeme, readWord_of_isWordStart hword]
  dsimp only
  rw [hchain]
  show Except.ok (Scanned.item _ nameItem) = _
  rw [Scanned.item, nameItem, List.singleton_append, if_neg]
  rintro h
  exact hne (List.cons.inj h).1

/-! ## Chains -/

theorem head_of_symbolAt_dot {cs rest : List Char} (h : Script.symbolAt cs = some (.dot, rest)) :
    cs = '.' :: rest := by
  unfold Script.symbolAt at h
  split at h <;> cases h
  rfl

theorem wordToken_ne_symbol (name : String) (s : Script.Symbol) :
    Script.wordToken name ≠ .symbol s := by
  intro h
  have hspelling := spelling?_wordToken name
  rw [h] at hspelling
  cases hspelling

/-- Only a full stop is read as a dot. -/
theorem head_of_token_dot {loc behind : Location} {c : Char} {cs rest : List Char}
    (h : Script.readLexeme loc c cs = ⟨some (.symbol .dot), [], rest, behind⟩) :
    c = '.' ∧ cs = rest := by
  obtain ⟨s, hs, hsymbol, -⟩ | ⟨-, htext⟩ | ⟨-, ⟨n, hn⟩, -⟩ | ⟨-, hname, -⟩ := readLexeme_cases h
  · cases hs
    exact List.cons.inj (head_of_symbolAt_dot hsymbol)
  · obtain ⟨s, hs, -⟩ := readText_of_token htext
    cases hs
  · cases hn
  · exact absurd hname.symm (wordToken_ne_symbol _ _)

/-- In a text without errors, the only separator of a chain is a dot. -/
theorem separatorAt_of_readLexeme {loc behind : Location} {c : Char} {cs rest : List Char}
    {t : Token} (h : Script.readLexeme loc c cs = ⟨some t, [], rest, behind⟩) :
    (t = .symbol .dot ∧ separatorAt (c :: cs) = some (['.'], rest) ∧ behind = loc.next '.') ∨
      (t ≠ .symbol .dot ∧ separatorAt (c :: cs) = none) := by
  unfold separatorAt
  split
  · rename_i cs' heq
    cases heq
    cases h
    exact Or.inl ⟨rfl, rfl, rfl⟩
  · rename_i cs' heq
    cases heq
    cases h
  · rename_i cs' heq
    cases heq
    cases h
  · rename_i hdot _ _
    refine Or.inr ⟨?_, rfl⟩
    rintro rfl
    obtain ⟨rfl, rfl⟩ := head_of_token_dot h
    exact hdot _ rfl

/-- A name start is read as a word. -/
theorem word_of_isNameStart {loc behind : Location} {c : Char} {cs rest : List Char} {t : Token}
    (h : Script.readLexeme loc c cs = ⟨some t, [], rest, behind⟩) (hc : isNameStart c = true) :
    t.spelling? = some (readWord loc (c :: cs)).val ∧
      (readWord loc (c :: cs)).loc = behind ∧ (readWord loc (c :: cs)).rest = rest := by
  obtain ⟨s, -, hsymbol, -⟩ | ⟨rfl, -⟩ | ⟨hdigit, -⟩ | ⟨hword, rfl, rfl, rfl⟩ := readLexeme_cases h
  · have hplain := (plain_of_symbolAt hsymbol).1
    rw [isPlain, hc] at hplain
    cases hplain
  · exact absurd hc (by decide)
  · rw [isNameStart_of_isDigit hdigit] at hc
    cases hc
  · rw [readWord_of_isWordStart hword]
    exact ⟨spelling?_wordToken _, rfl, rfl⟩

/-- What is no name start is not read as a word. -/
theorem spelling?_eq_none_of_not_isNameStart {loc behind : Location} {c : Char}
    {cs rest : List Char} {t : Token}
    (h : Script.readLexeme loc c cs = ⟨some t, [], rest, behind⟩) (hc : ¬isNameStart c = true) :
    t.spelling? = none := by
  obtain ⟨s, rfl, -⟩ | ⟨-, htext⟩ | ⟨-, ⟨n, rfl⟩, -⟩ | ⟨hword, -⟩ := readLexeme_cases h
  · rfl
  · obtain ⟨s, rfl, -⟩ := readText_of_token htext
    rfl
  · rfl
  · exact absurd (isNameStart_of_isWordStart hword) hc

/-- No trivia is left where trivia was passed over. -/
theorem skipTrivia_skip {state : Source.Trivia} {loc behind : Location} {cs rest : List Char}
    (h : Source.Trivia.skip state loc cs = ⟨rest, behind, none⟩) :
    Source.skipTrivia behind rest = ⟨rest, behind, none⟩ := by
  fun_induction Source.Trivia.skip state loc cs with
  | case1 loc cs ih | case2 loc cs ih => exact ih h
  | case3 loc c cs hline hblock hblank ih => exact ih h
  | case4 loc c cs hline hblock hblank =>
      cases h
      unfold Source.skipTrivia Source.Trivia.skip
      split <;> simp_all
  | case5 loc cs ih | case6 loc c cs hc ih | case7 opened loc cs ih => exact ih h
  | case8 opened loc c cs hend ih => exact ih h
  | case9 opened loc => cases h
  | case10 state loc =>
      cases h
      rfl

/-- Trivia of a text without errors is passed over. -/
theorem skip_ne_error {loc : Location} {cs : List Char} {ts : List (Placed Token)}
    (h : Reads loc cs ts) (e : Placed ScanError) : skip loc cs ≠ .error e := by
  intro hskip
  cases h with
  | nil gap | cons gap =>
      rw [skip, gap] at hskip
      cases hskip

/-- Behind trivia the text ends, or a lexeme starts. -/
theorem reads_of_skip {loc : Location} {cs : List Char} {ts : List (Placed Token)}
    {gap : Scanned Unit} (h : Reads loc cs ts) (hskip : skip loc cs = .ok gap) :
    Reads gap.loc gap.rest ts ∧
      ((gap.rest = [] ∧ ts = []) ∨
        ∃ c body t rest behind us, gap.rest = c :: body ∧ ts = ⟨t, gap.loc⟩ :: us ∧
          Script.readLexeme gap.loc c body = ⟨some t, [], rest, behind⟩ ∧
          Reads behind rest us) := by
  cases h with
  | nil hgap =>
      rw [skip, hgap] at hskip
      cases hskip
      exact ⟨.nil (skipTrivia_skip hgap), Or.inl ⟨rfl, rfl⟩⟩
  | cons hgap lexeme tail =>
      rw [skip, hgap] at hskip
      cases hskip
      exact ⟨.cons (skipTrivia_skip hgap) lexeme tail,
        Or.inr ⟨_, _, _, _, _, _, rfl, rfl, lexeme, tail⟩⟩

/-- A separator behind trivia is a dot token. -/
theorem reads_of_separatorAt {loc : Location} {cs sep after : List Char}
    {ts : List (Placed Token)} {gap : Scanned Unit} (h : Reads loc cs ts)
    (hskip : skip loc cs = .ok gap) (hsep : separatorAt gap.rest = some (sep, after)) :
    ∃ start us, ts = ⟨.symbol .dot, start⟩ :: us ∧ Reads (gap.loc.after sep) after us := by
  obtain ⟨-, ⟨hrest, -⟩ | ⟨c, body, t, rest, behind, us, hrest, rfl, lexeme, tail⟩⟩ :=
    reads_of_skip h hskip
  · rw [hrest] at hsep
    cases hsep
  · rw [hrest] at hsep
    obtain ⟨rfl, hdot, rfl⟩ | ⟨-, hnone⟩ := separatorAt_of_readLexeme lexeme
    · rw [hdot] at hsep
      cases hsep
      exact ⟨_, us, rfl, tail⟩
    · rw [hnone] at hsep
      cases hsep

/-- Where trivia leaves a character, a lexeme starts. -/
theorem reads_of_skip_cons {loc : Location} {cs body : List Char} {c : Char}
    {ts : List (Placed Token)} {gap : Scanned Unit} (h : Reads loc cs ts)
    (hskip : skip loc cs = .ok gap) (hrest : gap.rest = c :: body) :
    ∃ t rest behind us, ts = ⟨t, gap.loc⟩ :: us ∧
      Script.readLexeme gap.loc c body = ⟨some t, [], rest, behind⟩ ∧ Reads behind rest us := by
  obtain ⟨-, ⟨hnil, -⟩ | ⟨c', body', t, rest, behind, us, hcons, hts, lexeme, tail⟩⟩ :=
    reads_of_skip h hskip
  · rw [hrest] at hnil
    cases hnil
  · rw [hrest] at hcons
    cases hcons
    exact ⟨t, rest, behind, us, hts, lexeme, tail⟩

/-- Without a separator behind trivia, no chain goes on in the tokens. -/
theorem chainBehind_of_separatorAt {loc : Location} {cs : List Char} {ts : List (Placed Token)}
    {gap : Scanned Unit} (h : Reads loc cs ts) (hskip : skip loc cs = .ok gap)
    (hsep : separatorAt gap.rest = none) : chainBehind ts = ([], ts) := by
  obtain ⟨-, ⟨-, rfl⟩ | ⟨c, body, t, rest, behind, us, hrest, rfl, lexeme, tail⟩⟩ :=
    reads_of_skip h hskip
  · rfl
  · rw [hrest] at hsep
    obtain ⟨-, hdot, -⟩ | ⟨hne, -⟩ := separatorAt_of_readLexeme lexeme
    · rw [hdot] at hsep
      cases hsep
    · exact chainBehind_of_ne_dot hne _ _

/-- The scan reads the words that stand behind dots in the tokens, and goes on where the tokens
behind the chain start. A dot behind the chain that no word follows may be passed over. -/
theorem readChain_of_reads {words : List String} {loc : Location} {cs : List Char}
    {ts : List (Placed Token)} (h : Reads loc cs ts) :
    ∃ behind rest us, readChain words loc cs = .ok ⟨words ++ (chainBehind ts).1, behind, rest⟩ ∧
      Reads behind rest us ∧ us <:+ ts ∧ itemsOf us = itemsOf (chainBehind ts).2 := by
  fun_induction readChain words loc cs generalizing ts with
  | case1 words loc cs e h₁ => exact absurd h₁ (skip_ne_error h e)
  | case2 words loc cs gap h₁ h₂ =>
      have hchain : chainBehind ts = ([], ts) := chainBehind_of_separatorAt h h₁ h₂
      refine ⟨loc, cs, ts, ?_, h, List.suffix_rfl, by rw [hchain]⟩
      rw [hchain, List.append_nil]
  | case3 words loc cs gap h₁ sep after h₂ e h₃ =>
      obtain ⟨start, us, rfl, tail⟩ := reads_of_separatorAt h h₁ h₂
      exact absurd h₃ (skip_ne_error tail e)
  | case4 words loc cs gap h₁ sep after h₂ next h₃ h₄ =>
      obtain ⟨start, us, rfl, tail⟩ := reads_of_separatorAt h h₁ h₂
      obtain ⟨hnext, ⟨-, rfl⟩ | ⟨c, body, t, rest, behind, vs, hrest, -⟩⟩ := reads_of_skip tail h₃
      · rw [h₄] at hnext
        refine ⟨next.loc, [], [], ?_, hnext, List.nil_suffix, (itemsOf_symbol _ _ _).symm⟩
        show _ = Except.ok (⟨words ++ [], next.loc, []⟩ : Scanned (List String))
        rw [List.append_nil]
      · rw [h₄] at hrest
        cases hrest
  | case5 words loc cs gap h₁ sep after h₂ next h₃ c body h₄ hc word =>
      rename_i ih
      obtain ⟨start, us, rfl, tail⟩ := reads_of_separatorAt h h₁ h₂
      obtain ⟨t, rest, behind, vs, rfl, lexeme, htail⟩ := reads_of_skip_cons tail h₃ h₄
      obtain ⟨hspelling, hbehind, hrest⟩ := word_of_isNameStart lexeme hc
      rw [← hbehind, ← hrest] at htail
      obtain ⟨behind', rest', ws, hchain, hreads, hsuffix, hitems⟩ := ih htail
      rw [chainBehind_dot_word hspelling]
      refine ⟨behind', rest', ws, ?_, hreads, hsuffix.trans ⟨[_, _], rfl⟩, hitems⟩
      rw [hchain, List.append_assoc, List.singleton_append]
  | case6 words loc cs gap h₁ sep after h₂ next h₃ body h₄ hc =>
      obtain ⟨start, us, rfl, tail⟩ := reads_of_separatorAt h h₁ h₂
      obtain ⟨t, rest, behind, vs, rfl, lexeme, -⟩ := reads_of_skip_cons tail h₃ h₄
      cases lexeme
  | case7 words loc cs gap h₁ sep after h₂ next h₃ c body h₄ hc hb =>
      obtain ⟨start, us, rfl, tail⟩ := reads_of_separatorAt h h₁ h₂
      obtain ⟨t, rest, behind, vs, rfl, lexeme, -⟩ := reads_of_skip_cons tail h₃ h₄
      have hnext := (reads_of_skip tail h₃).1
      rw [h₄] at hnext
      have hspelling := spelling?_eq_none_of_not_isNameStart lexeme hc
      rw [chainBehind_dot_of_spelling? hspelling, List.append_nil]
      exact ⟨next.loc, c :: body, _, rfl, hnext, List.suffix_cons _ _, (itemsOf_symbol _ _ _).symm⟩

/-! ## Numbers -/

theorem not_of_dropWhile_eq_cons {p : Char → Bool} {cs rest : List Char} {d : Char}
    (h : cs.dropWhile p = d :: rest) : p d = false := by
  have hhead := List.head?_dropWhile_not p cs
  rw [h] at hhead
  exact hhead

/-- What could continue a number, and is not cut off with it, starts a word or is a dot. -/
theorem sticks_of_isNumberPart {loc : Location} {d : Char} {cs : List Char}
    {ts : List (Placed Token)} (h : Reads loc (d :: cs) ts) (hnumber : isNumberPart d = true)
    (hint : Script.isIntegerPart d = false) : ∃ t us, ts = t :: us ∧ t.val.sticks = true := by
  simp only [isNumberPart, Script.isIntegerPart, Char.isAlphanum, Bool.or_eq_true,
    Bool.or_eq_false_iff, beq_iff_eq] at hnumber hint
  have hd : d.isAlpha = true ∨ d = '.' := by
    rcases hnumber with ((halpha | hdigit) | hunder) | hdot
    · exact Or.inl halpha
    · rw [hint.1] at hdigit
      cases hdigit
    · rw [hunder] at hint
      cases hint.2
    · exact Or.inr hdot
  have hskip : Source.skipTrivia loc (d :: cs) = ⟨d :: cs, loc, none⟩ := by
    rcases hd with halpha | rfl
    · refine skipTrivia_cons (isBlank_of_isAlpha halpha) ?_ _ _
      rintro rfl
      cases halpha
    · rfl
  cases h with
  | nil gap =>
      rw [hskip] at gap
      cases gap
  | cons gap lexeme tail =>
      rw [hskip] at gap
      cases gap
      refine ⟨_, _, rfl, ?_⟩
      rcases hd with halpha | rfl
      · have hname := isNameStart_of_isWordStart (isWordStart_of_isAlpha halpha)
        rw [Token.sticks, (word_of_isNameStart lexeme hname).1]
        exact Bool.or_true _
      · cases lexeme
        rfl

/-- The scan of a text without lexical errors finds the items of its tokens, where no integer
stands directly before a word or a dot. -/
theorem scanFrom_of_reads {loc : Location} {cs : List Char} {ts : List (Placed Token)}
    (h : Reads loc cs ts) (spaced : Spaced ts) : scanFrom loc cs = .ok (itemsOf ts) := by
  induction hn : ts.length using Nat.strong_induction_on generalizing loc cs ts with
  | _ n ih =>
    subst hn
    cases h with
    | nil gap => rw [scanFrom_of_end gap, itemsOf_nil]
    | @cons _ _ start c body t rest behind ts gap lexeme tail =>
        have htail := ih ts.length (Nat.lt_succ_self _) tail spaced.tail rfl
        obtain ⟨s, rfl, hsymbol, rfl⟩ | ⟨rfl, htext⟩ | ⟨hdigit, ⟨n, rfl⟩, rfl, rfl⟩ |
          ⟨hword, rfl, rfl, rfl⟩ := readLexeme_cases lexeme
        · rw [scanFrom_of_symbolAt gap hsymbol htail, itemsOf_symbol]
        · obtain ⟨s, rfl, hread⟩ := readLexeme_of_text htext
          rw [scanFrom_of_readLexeme gap hread htail, itemsOf_text]
          rfl
        · have hhead : ∀ d rest, (c :: body).dropWhile Script.isIntegerPart = d :: rest →
              isNumberPart d = false := by
            intro d rest hrest
            by_contra hd
            rw [hrest] at tail
            obtain ⟨u, us, rfl, hu⟩ := sticks_of_isNumberPart tail (by simpa using hd)
              (not_of_dropWhile_eq_cons hrest)
            rw [(List.isChain_cons_cons.1 spaced).1 rfl] at hu
            cases hu
          rw [scanFrom_of_readLexeme gap (readLexeme_of_isDigit hdigit hhead) htail, itemsOf_int]
          rfl
        · obtain ⟨behind, rest, us, hchain, hreads, hsuffix, hitems⟩ := readChain_of_reads tail
          have hrest := ih us.length (Nat.lt_succ_of_le hsuffix.length_le) hreads
            (spaced.tail.suffix hsuffix) rfl
          rw [scanFrom_of_readLexeme gap (readLexeme_of_readChain hword hchain) hrest, hitems,
            itemsOf_of_spelling? (spelling?_wordToken _)]
          rfl

end ScriptHost.Guard
