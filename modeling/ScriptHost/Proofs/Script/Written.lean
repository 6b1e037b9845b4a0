import ScriptHost.Proofs.Script.Printing

/-!
# Cutting what was written

Tokens that are written down with trivia between them are cut out of the text again, each of them as
it was: what follows a token does not continue it, and what stands between two is passed over.
-/

namespace ScriptHost.Script

variable {t : Token} {ts : List Token} {loc : Location} {cs ds more gap : List Char}

/-- Trivia in front of a text changes its tokens in nothing but their places. -/
theorem reads_gap {placed : List (Placed Token)} (hgap : Guard.Gap gap)
    (h : Reads (loc.after gap) cs placed) : Reads loc (gap ++ cs) placed := by
  have hskip := Guard.skipTrivia_gap hgap loc cs
  cases h with
  | nil hend => exact .nil (hskip.trans hend)
  | cons hstart hlexeme htail => exact .cons (hskip.trans hstart) hlexeme htail

/-- In front of other text, the characters start a lexeme, and it is the token. -/
def Lexes (t : Token) (cs more : List Char) : Prop :=
  ∃ c body, cs = c :: body ∧
    (∀ loc, Source.skipTrivia loc (c :: (body ++ more)) = ⟨c :: (body ++ more), loc, none⟩) ∧
    ∀ loc, ∃ behind, readLexeme loc c (body ++ more) = ⟨some t, [], more, behind⟩

/-! ## Symbols -/

theorem symbolAt_spelling (s : Symbol) (hmore : ∀ d ∈ more.head?, Text.isBlank d = true) :
    symbolAt (s.spelling.toList ++ more) = some (s, more) := by
  have hassign : ∀ rest, more ≠ '=' :: rest := by
    rintro rest rfl
    exact absurd (hmore '=' rfl) (by decide)
  cases s with
  | plus | minus | bang | assign | less | greater =>
      simp [Symbol.spelling, symbolAt]
  | _ => rfl

/-- Only a slash in front of another slash or a star starts a comment, and only blanks are blank. -/
theorem skipTrivia_symbol (s : Symbol) (hmore : ∀ d ∈ more.head?, Text.isBlank d = true)
    (loc : Location) :
    Source.skipTrivia loc (s.spelling.toList ++ more) = ⟨s.spelling.toList ++ more, loc, none⟩ := by
  cases s with
  | slash =>
      apply Source.Trivia.skip_lexeme
      · decide
      · rintro rest - rfl
        exact absurd (hmore '/' rfl) (by decide)
      · rintro rest - rfl
        exact absurd (hmore '*' rfl) (by decide)
  | _ => exact Guard.skipTrivia_cons (by decide) (by decide) loc _

theorem lexes_symbol (s : Symbol) (hmore : ∀ d ∈ more.head?, Text.isBlank d = true) :
    Lexes (.symbol s) s.spelling.toList more := by
  have hread := symbolAt_spelling s hmore
  have hskip := skipTrivia_symbol s hmore
  have hspelling : ∃ c body, s.spelling.toList = c :: body := by
    cases s with
    | _ => exact ⟨_, _, rfl⟩
  obtain ⟨c, body, hcons⟩ := hspelling
  rw [hcons, List.cons_append] at hread hskip
  refine ⟨c, body, hcons, hskip, fun loc => ⟨loc.after s.spelling.toList, ?_⟩⟩
  rw [readLexeme, hread]

/-- What starts a word, a number or a text starts no symbol. -/
theorem symbolAt_eq_none {c : Char} (h : Guard.isPlain c = false) (cs : List Char) :
    symbolAt (c :: cs) = none := by
  cases hsymbol : symbolAt (c :: cs) with
  | none => rfl
  | some found =>
      obtain ⟨hplain, -⟩ := Guard.plain_of_symbolAt hsymbol
      cases h.symm.trans hplain

/-! ## Words -/

theorem isPlain_of_isWordStart {c : Char} (h : Text.isWordStart c = true) :
    Guard.isPlain c = false := by
  rw [Guard.isPlain, Guard.isNameStart_of_isWordStart h]
  rfl

theorem isPlain_of_isDigit {c : Char} (h : c.isDigit = true) : Guard.isPlain c = false := by
  rw [Guard.isPlain, h]
  simp

/-- What starts a word is no digit. -/
theorem isDigit_of_isWordStart {c : Char} (h : Text.isWordStart c = true) : c.isDigit = false := by
  apply Bool.eq_false_iff.2
  intro hdigit
  have hname := Guard.isNameStart_of_isDigit hdigit
  rw [Guard.isNameStart_of_isWordStart h] at hname
  cases hname

theorem lexes_word (h : Guard.IsWord cs) (hmore : ∀ d ∈ more.head?, Text.isBlank d = true) :
    Lexes (wordToken (String.ofList cs)) cs more := by
  have hend : ∀ d ∈ more.head?, Text.isWordPart d = false :=
    fun d hd => Guard.isWordPart_of_isBlank (hmore d hd)
  obtain ⟨htake, hdrop⟩ := h.span hend
  obtain ⟨c, body, rfl, hstart⟩ := h.eq_cons
  rw [List.cons_append] at htake hdrop
  refine ⟨c, body, rfl, ?_, fun loc => ⟨loc.after (c :: body), ?_⟩⟩
  · intro loc
    exact Guard.skipTrivia_of_isNameStart (Guard.isNameStart_of_isWordStart hstart) loc _
  · have hquote : c ≠ '"' := by
      rintro rfl
      exact absurd hstart (by decide)
    rw [readLexeme, symbolAt_eq_none (isPlain_of_isWordStart hstart)]
    simp only [hquote, isDigit_of_isWordStart hstart, hstart, Bool.false_eq_true, if_false, if_true,
      readWord, htake, hdrop]

theorem isWord_of_isIdentifier {name : String} (h : isIdentifier name = true) :
    Guard.IsWord name.toList ∧ wordToken name = .word name := by
  rw [isIdentifier] at h
  split at h
  · cases h
  · rename_i c cs hcons
    simp only [Bool.and_eq_true, List.all_eq_true, Option.isNone_iff_eq_none] at h
    obtain ⟨⟨hstart, hparts⟩, hkeyword⟩ := h
    constructor
    · rw [hcons]
      refine ⟨⟨c, rfl, hstart⟩, fun d hd => ?_⟩
      rcases List.mem_cons.1 hd with rfl | hd
      · exact Guard.isWordPart_of_isWordStart hstart
      · exact hparts d hd
    · rw [wordToken, hkeyword]

theorem isWord_spelling (k : Keyword) :
    Guard.IsWord k.spelling.toList ∧ wordToken k.spelling = .keyword k := by
  cases k with
  | _ => exact ⟨⟨⟨_, rfl, by decide⟩, List.all_eq_true.1 (by decide)⟩, by decide⟩

/-! ## Integers -/

theorem decimalValue_toDigits (n : Nat) : Text.decimalValue (Nat.toDigits 10 n) = n := by
  rw [Text.decimalValue, ← Nat.ofDigitChars_eq_foldl, Nat.ofDigitChars_ten_toDigits]

theorem isWordPart_of_isIntegerPart {c : Char} (h : isIntegerPart c = true) :
    Text.isWordPart c = true := by
  rcases Bool.or_eq_true_iff.1 h with hdigit | hunderscore
  · have hrange := hdigit
    simp only [Char.isDigit, Bool.and_eq_true, decide_eq_true_eq, UInt32.le_iff_toNat_le,
      ge_iff_le] at hrange
    have hascii : c.val < 128 := UInt32.lt_iff_toNat_lt.2 (Nat.lt_of_le_of_lt hrange.2 (by decide))
    simp [Text.isWordPart, Text.isNumeral, hascii, hdigit]
  · simp [Text.isWordPart, hunderscore]

theorem isIntegerPart_of_isBlank {c : Char} (h : Text.isBlank c = true) :
    isIntegerPart c = false := by
  apply Bool.eq_false_iff.2
  intro hpart
  have hword := isWordPart_of_isIntegerPart hpart
  rw [Guard.isWordPart_of_isBlank h] at hword
  cases hword

/-- A number that is not negative is written with its decimal digits. -/
theorem toList_renderInt {n : Int64} (h : 0 ≤ n.toInt) :
    (Value.renderInt n).toList = Nat.toDigits 10 n.toInt.toNat := by
  obtain ⟨m, hm⟩ := Int.eq_ofNat_of_zero_le h
  rw [Value.renderInt, hm]
  exact Nat.toList_repr

theorem wordOf?_toInt (n : Int64) : Value.wordOf? n.toInt = some n := by
  rw [Value.wordOf?, if_pos ⟨n.minValue_le_toInt, n.toInt_le⟩, Int64.ofInt_toInt]

theorem lexes_int {n : Int64} (h : 0 ≤ n.toInt) (hmore : ∀ d ∈ more.head?, Text.isBlank d = true) :
    Lexes (.int n) (Value.renderInt n).toList more := by
  have hdigits : ∀ c ∈ (Value.renderInt n).toList, c.isDigit = true := by
    intro c hc
    rw [toList_renderInt h] at hc
    exact Nat.isDigit_of_mem_toDigits (by decide) (by decide) hc
  have hvalue : Text.decimalValue (Value.renderInt n).toList = n.toInt.toNat := by
    rw [toList_renderInt h, decimalValue_toDigits]
  have hne : (Value.renderInt n).toList ≠ [] := by
    rw [toList_renderInt h]
    exact Nat.toDigits_ne_nil
  generalize (Value.renderInt n).toList = cs at hdigits hvalue hne
  obtain ⟨c, body, rfl⟩ := List.exists_cons_of_ne_nil hne
  have hdigit := hdigits c List.mem_cons_self
  have hparts : ∀ d ∈ c :: body, isIntegerPart d = true :=
    fun d hd => Bool.or_eq_true_iff.2 (Or.inl (hdigits d hd))
  obtain ⟨htake, hdrop⟩ := Guard.span_append (p := isIntegerPart) (c :: body)
    fun d hd => isIntegerPart_of_isBlank (hmore d hd)
  rw [List.takeWhile_eq_self_iff.2 hparts] at htake
  rw [List.dropWhile_eq_nil_iff.2 hparts] at hdrop
  have hfilter : (c :: body).filter (· != '_') = c :: body := by
    rw [List.filter_eq_self]
    rintro d hd
    rw [bne_iff_ne]
    rintro rfl
    exact absurd (hdigits '_' hd) (by decide)
  have hword : Value.wordOf? (Text.decimalValue ((c :: body).filter (· != '_'))) = some n := by
    rw [hfilter, hvalue, Int.toNat_of_nonneg h, wordOf?_toInt]
  refine ⟨c, body, rfl, ?_, fun loc => ⟨loc.after (c :: body), ?_⟩⟩
  · intro loc
    apply Guard.skipTrivia_cons
    · by_contra hblank
      rw [Bool.not_eq_false] at hblank
      have hpart := hparts c List.mem_cons_self
      rw [isIntegerPart_of_isBlank hblank] at hpart
      cases hpart
    · rintro rfl
      exact absurd hdigit (by decide)
  · have hquote : c ≠ '"' := by
      rintro rfl
      exact absurd hdigit (by decide)
    rw [readLexeme, symbolAt_eq_none (isPlain_of_isDigit hdigit)]
    simp only [hquote, hdigit, if_false, if_true, readInteger, ← List.cons_append, htake, hdrop,
      hword, List.nil_append]

/-! ## Texts -/

/-- Behind the opening quote, the escaped characters are read up to the closing quote. -/
theorem readText_escapes (h : Escapes cs ds) (opened : Location) (read : List Char)
    (loc : Location) (more : List Char) : ∃ behind,
      readText opened read loc (ds ++ '"' :: more) =
        ⟨some (.text (String.ofList (read.reverse ++ cs))), [], more, behind⟩ := by
  induction h generalizing read loc with
  | nil =>
      rw [List.append_nil, List.nil_append, readText]
      exact ⟨_, rfl⟩
  | @plain c cs ds hquote hfeed hbackslash h ih =>
      obtain ⟨behind, hread⟩ := ih (c :: read) (loc.next c)
      refine ⟨behind, ?_⟩
      rw [List.cons_append, readText, hread]
      · simp
      · exact hquote
      · exact hfeed
      · rintro d rest rfl
        exact absurd rfl hbackslash
      · rintro rfl
        exact absurd rfl hbackslash
  | @escaped c e cs ds he h ih =>
      obtain ⟨behind, hread⟩ := ih (c :: read) ((loc.next '\\').next e)
      refine ⟨behind, ?_⟩
      rw [List.cons_append, List.cons_append, readText, he]
      simp only [hread, List.reverse_cons, List.append_assoc, List.singleton_append]

theorem lexes_text {s : String} (h : Escapes s.toList cs) (more : List Char) :
    Lexes (.text s) ('"' :: (cs ++ ['"'])) more := by
  refine ⟨'"', cs ++ ['"'], rfl, ?_, fun loc => ?_⟩
  · intro loc
    exact Guard.skipTrivia_cons (by decide) (by decide) loc _
  · obtain ⟨behind, hread⟩ := readText_escapes h loc [] (loc.next '"') more
    refine ⟨behind, ?_⟩
    rw [List.append_assoc, List.singleton_append, readLexeme, symbolAt_eq_none (by decide)]
    simp only [if_true, hread]
    rw [List.reverse_nil, List.nil_append, String.ofList_toList]

/-! ## Tokens one behind the other -/

/-- The token can be written. -/
def Token.isWritable : Token → Bool
  | .word name => isIdentifier name
  | .int n => 0 ≤ n.toInt
  | _ => true

/-- A written token is read again in front of a blank, or at the end. -/
theorem lexes_of_spells (h : t.Spells cs) (ht : t.isWritable = true)
    (hmore : ∀ d ∈ more.head?, Text.isBlank d = true) : Lexes t cs more := by
  cases h with
  | word name =>
      obtain ⟨hword, htoken⟩ := isWord_of_isIdentifier ht
      have hlexes := lexes_word hword hmore
      rwa [String.ofList_toList, htoken] at hlexes
  | int n => exact lexes_int (of_decide_eq_true ht) hmore
  | text h => exact lexes_text h more
  | keyword k =>
      obtain ⟨hword, htoken⟩ := isWord_spelling k
      have hlexes := lexes_word hword hmore
      rwa [String.ofList_toList, htoken] at hlexes
  | symbol s => exact lexes_symbol s hmore

/-- What a text is cut into. -/
def CutInto (ts : List Token) (cs : List Char) : Prop :=
  ∀ loc, ∃ placed, Reads loc cs placed ∧ placed.map (·.val) = ts

theorem CutInto.cons (hmore : CutInto ts more) (h : Lexes t cs more) :
    CutInto (t :: ts) (cs ++ more) := by
  intro loc
  obtain ⟨c, body, rfl, hskip, hread⟩ := h
  obtain ⟨behind, hlexeme⟩ := hread loc
  obtain ⟨placed, hreads, hvals⟩ := hmore behind
  refine ⟨⟨t, loc⟩ :: placed, .cons (hskip loc) hlexeme hreads, ?_⟩
  rw [List.map_cons, hvals]

theorem CutInto.behind_gap (h : CutInto ts cs) (hgap : Guard.Gap gap) :
    CutInto ts (gap ++ cs) := by
  intro loc
  obtain ⟨placed, hreads, hvals⟩ := h (loc.after gap)
  exact ⟨placed, reads_gap hgap hreads, hvals⟩

/-- Written tokens are cut out of the text as they were. -/
theorem cutInto_of_writes (h : Writes ts cs) (hts : ∀ t ∈ ts, t.isWritable = true) :
    CutInto ts cs := by
  have hend : CutInto [] [] := fun loc => ⟨[], .nil rfl, rfl⟩
  induction h with
  | nil => exact hend
  | @single t cs h =>
      have hnone : ∀ d ∈ ([] : List Char).head?, Text.isBlank d = true := by
        rintro d ⟨⟩
      have hlexes : Lexes t cs [] := lexes_of_spells h (hts t List.mem_cons_self) hnone
      have hcut : CutInto [t] (cs ++ []) := hend.cons hlexes
      rwa [List.append_nil] at hcut
  | @cons t u ts c cs gap rest h hc hgap hrest ih =>
      have hblank : ∀ d ∈ (c :: (gap ++ rest)).head?, Text.isBlank d = true := by
        rintro d ⟨⟩
        exact hc
      have hlexes := lexes_of_spells h (hts t List.mem_cons_self) hblank
      have hcut : CutInto (u :: ts) rest := ih fun t ht => hts t (List.mem_cons_of_mem _ ht)
      have hbehind : CutInto (u :: ts) (c :: gap ++ rest) := hcut.behind_gap (.blank hc hgap)
      exact hbehind.cons hlexes

theorem lex_of_writes {source : String} (h : Writes ts source.toList)
    (hts : ∀ t ∈ ts, t.isWritable = true) :
    ∃ placed finish, lex source = .ok (placed, finish) ∧ placed.map (·.val) = ts := by
  obtain ⟨placed, hreads, hvals⟩ := cutInto_of_writes h hts .first
  obtain ⟨finish, hlex⟩ := lex_of_reads hreads
  exact ⟨placed, finish, hlex, hvals⟩

end ScriptHost.Script
