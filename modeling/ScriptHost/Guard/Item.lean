import ScriptHost.Source.Escape
import ScriptHost.Source.Trivia
import ScriptHost.Text.Numeral
import ScriptHost.Text.Split

/-!
# Items of a source text

The names and texts that a source mentions, with their places. Names are chains of words;
blanks and comments inside a chain are dropped, and its separators are all alike. What
cannot be read for certain is an error, so that a check of the items can refuse it.
-/

namespace ScriptHost.Guard

inductive Item where
  /-- A chain of words, none of which holds a dot. -/
  | name (words : List String)
  | text (value : String)
deriving DecidableEq, Repr

inductive ScanError where
  | unclosedComment
  | unclosedText
  | unclosedCharacter
  | escapeInName
  | unicodeEscape
  | unknownEscape
deriving DecidableEq, Repr

def ScanError.reason : ScanError → String
  | unclosedComment => "unterminated comment"
  | unclosedText => "unterminated string literal"
  | unclosedCharacter => "unterminated character literal"
  | escapeInName => "escape sequence in identifier"
  | unicodeEscape => "unicode escape in string literal"
  | unknownEscape => "unknown escape sequence"

/-- What was read, with the text behind it and its place. -/
structure Scanned (α : Type) where
  val : α
  loc : Location
  rest : List Char
deriving Repr

abbrev Scan (α : Type) := Except (Placed ScanError) (Scanned α)

/-- Skip trivia; a comment that is never closed is an error at its opening. -/
def skip (loc : Location) (cs : List Char) : Scan Unit :=
  let gap := Source.skipTrivia loc cs
  match gap.unclosed with
  | some opened => .error ⟨.unclosedComment, opened⟩
  | none => .ok ⟨(), gap.loc, gap.rest⟩

theorem skip_length_le {loc : Location} {cs : List Char} {s : Scanned Unit}
    (h : skip loc cs = .ok s) : s.rest.length ≤ cs.length := by
  unfold skip at h
  dsimp only at h
  split at h
  · cases h
  · cases h; exact Source.skipTrivia_length_le _ _

/-- A character that may start a word of a name. -/
def isNameStart (c : Char) : Bool := Text.isWordStart c || c == '@'

/-- Read a word; a sign in front of it that marks it as literal is dropped. -/
def readWord (loc : Location) : List Char → Scanned String
  | '@' :: cs =>
    let word := cs.takeWhile Text.isWordPart
    ⟨String.ofList word, (loc.next '@').after word, cs.dropWhile Text.isWordPart⟩
  | cs =>
    let word := cs.takeWhile Text.isWordPart
    ⟨String.ofList word, loc.after word, cs.dropWhile Text.isWordPart⟩

theorem readWord_length_le (loc : Location) (cs : List Char) :
    (readWord loc cs).rest.length ≤ cs.length := by
  unfold readWord
  split
  · exact Nat.le_succ_of_le (Text.length_dropWhile_le _ _)
  · exact Text.length_dropWhile_le _ _

theorem readWord_length_lt (loc : Location) (c : Char) (cs : List Char)
    (h : isNameStart c = true) : (readWord loc (c :: cs)).rest.length ≤ cs.length := by
  unfold readWord
  split
  · rename_i heq; cases heq; exact Text.length_dropWhile_le _ _
  · rename_i hne
    have hp : Text.isWordPart c = true := by
      simp only [isNameStart, Text.isWordStart, Text.isWordPart, Bool.or_eq_true] at h ⊢
      rcases h with (h | h) | h
      · simp [h]
      · simp [h]
      · exact absurd (by rw [beq_iff_eq.1 h]) (hne cs)
    dsimp only
    rw [List.dropWhile_cons_of_pos hp]
    exact Text.length_dropWhile_le _ _

/-- The separator of a chain at the start of a text, and the text behind it. -/
def separatorAt : List Char → Option (List Char × List Char)
  | '.' :: cs => some (['.'], cs)
  | ':' :: ':' :: cs => some ([':', ':'], cs)
  | '?' :: '.' :: cs => some (['?', '.'], cs)
  | _ => none

theorem separatorAt_length_lt {cs sep rest : List Char}
    (h : separatorAt cs = some (sep, rest)) : rest.length < cs.length := by
  unfold separatorAt at h
  split at h <;> cases h <;> grind

/-- Read the words that follow those in `words`. Without a further separator the chain ends
before the trivia; a separator that no word follows belongs to it. -/
def readChain (words : List String) (loc : Location) (cs : List Char) : Scan (List String) :=
  match _h₁ : skip loc cs with
  | .error e => .error e
  | .ok gap =>
    match _h₂ : separatorAt gap.rest with
    | none => .ok ⟨words, loc, cs⟩
    | some (sep, after) =>
      match _h₃ : skip (gap.loc.after sep) after with
      | .error e => .error e
      | .ok next =>
        match _h₄ : next.rest with
        | [] => .ok ⟨words, next.loc, []⟩
        | c :: body =>
          if isNameStart c then
            let word := readWord next.loc (c :: body)
            readChain (words ++ [word.val]) word.loc word.rest
          else if c = '\\' then .error ⟨.escapeInName, next.loc⟩
          else .ok ⟨words, next.loc, c :: body⟩
termination_by cs.length
decreasing_by
  have h1 := skip_length_le _h₁
  have h2 := separatorAt_length_lt _h₂
  have h3 := skip_length_le _h₃
  have h4 := readWord_length_le next.loc (c :: body)
  have h5 : next.rest.length = (c :: body).length := by rw [_h₄]
  omega

/-- Read the inside of a text literal up to its closing quote. -/
def readText (opened : Location) (read : List Char) : Location → List Char → Scan String
  | loc, '"' :: cs => .ok ⟨String.ofList read.reverse, loc.next '"', cs⟩
  | _, '\n' :: _ => .error ⟨.unclosedText, opened⟩
  | loc, '\\' :: c :: cs =>
    match Source.unescape c with
    | some e => readText opened (e :: read) ((loc.next '\\').next c) cs
    | none =>
      if c = 'u' ∨ c = 'U' ∨ c = 'x' then .error ⟨.unicodeEscape, opened⟩
      else .error ⟨.unknownEscape, opened⟩
  | _, ['\\'] => .error ⟨.unclosedText, opened⟩
  | loc, c :: cs => readText opened (c :: read) (loc.next c) cs
  | _, [] => .error ⟨.unclosedText, opened⟩

/-- Read the inside of a literal without escapes, in which a quote is written twice. -/
def readVerbatim (opened : Location) (read : List Char) : Location → List Char → Scan String
  | loc, '"' :: '"' :: cs => readVerbatim opened ('"' :: read) ((loc.next '"').next '"') cs
  | loc, '"' :: cs => .ok ⟨String.ofList read.reverse, loc.next '"', cs⟩
  | loc, c :: cs => readVerbatim opened (c :: read) (loc.next c) cs
  | _, [] => .error ⟨.unclosedText, opened⟩

/-- Pass over the inside of a character literal. -/
def skipCharacter (opened : Location) : Location → List Char → Scan Unit
  | loc, '\\' :: c :: cs => skipCharacter opened ((loc.next '\\').next c) cs
  | loc, '\'' :: cs => .ok ⟨(), loc.next '\'', cs⟩
  | _, '\n' :: _ => .error ⟨.unclosedCharacter, opened⟩
  | loc, c :: cs => skipCharacter opened (loc.next c) cs
  | _, [] => .error ⟨.unclosedCharacter, opened⟩

/-- A character that continues a number, whose exact form does not matter. -/
def isNumberPart (c : Char) : Bool := c.isAlphanum || c == '_' || c == '.'

/-- The item read, if the lexeme is one. -/
def Scanned.item {α : Type} (s : Scanned α) (f : α → Option Item) : Scanned (Option Item) :=
  { s with val := f s.val }

/-- The name that a chain of words makes; a sign with no word behind it makes none. -/
def nameItem (words : List String) : Option Item :=
  if words = [""] then none else some (.name words)

/-- Read the text literal behind its opening quote. -/
def textLexeme (loc : Location) (cs : List Char) : Scan (Option Item) :=
  (readText loc [] (loc.next '"') cs).map (·.item (some ∘ .text))

/-- Read the literal without escapes behind its opening quote. -/
def verbatimLexeme (loc : Location) (cs : List Char) : Scan (Option Item) :=
  (readVerbatim loc [] (loc.next '"') cs).map (·.item (some ∘ .text))

/-- Read the chain of words that starts with the character `c`. -/
def nameLexeme (loc : Location) (c : Char) (cs : List Char) : Scan (Option Item) :=
  let word := readWord loc (c :: cs)
  (readChain [word.val] word.loc word.rest).map (·.item nameItem)

/-- Read the lexeme that starts with the character `c`. -/
def readLexeme (loc : Location) (c : Char) (cs : List Char) : Scan (Option Item) :=
  match c, cs with
  | '@', '"' :: body => verbatimLexeme (loc.next c) body
  | '$', '"' :: body => textLexeme (loc.next c) body
  | '$', '@' :: '"' :: body => verbatimLexeme ((loc.next c).next '@') body
  | '@', '$' :: '"' :: body => verbatimLexeme ((loc.next c).next '$') body
  | '"', body => textLexeme loc body
  | '\'', body => (skipCharacter loc (loc.next c) body).map (·.item fun _ => none)
  | '\\', _ => .error ⟨.escapeInName, loc⟩
  | c, cs =>
    if isNameStart c then nameLexeme loc c cs
    else if c.isDigit then
      .ok ⟨none, loc.after ((c :: cs).takeWhile isNumberPart), (c :: cs).dropWhile isNumberPart⟩
    else .ok ⟨none, loc.next c, cs⟩

theorem readChain_length_le {words : List String} {loc : Location} {cs : List Char}
    {s : Scanned (List String)} (h : readChain words loc cs = .ok s) :
    s.rest.length ≤ cs.length := by
  fun_induction readChain words loc cs with
  | case1 => cases h
  | case2 => cases h; exact Nat.le_refl _
  | case3 => cases h
  | case4 => cases h; exact Nat.zero_le _
  | case5 words loc cs gap h₁ sep after h₂ next h₃ c body h₄ hc word ih =>
    have h1 := skip_length_le h₁
    have h2 := separatorAt_length_lt h₂
    have h3 := skip_length_le h₃
    have h4 : word.rest.length ≤ (c :: body).length := readWord_length_le _ _
    have h5 : next.rest.length = (c :: body).length := by rw [h₄]
    have := ih h
    omega
  | case6 => cases h
  | case7 words loc cs gap h₁ sep after h₂ next h₃ c body h₄ hc hb =>
    cases h
    have h1 := skip_length_le h₁
    have h2 := separatorAt_length_lt h₂
    have h3 := skip_length_le h₃
    have h5 : next.rest.length = (c :: body).length := by rw [h₄]
    dsimp only
    omega

theorem readText_length_le {opened : Location} {read : List Char} {loc : Location}
    {cs : List Char} {s : Scanned String} (h : readText opened read loc cs = .ok s) :
    s.rest.length ≤ cs.length := by
  fun_induction readText opened read loc cs <;> simp_all <;> grind

theorem readVerbatim_length_le {opened : Location} {read : List Char} {loc : Location}
    {cs : List Char} {s : Scanned String} (h : readVerbatim opened read loc cs = .ok s) :
    s.rest.length ≤ cs.length := by
  fun_induction readVerbatim opened read loc cs <;> simp_all <;> grind

theorem skipCharacter_length_le {opened loc : Location} {cs : List Char} {s : Scanned Unit}
    (h : skipCharacter opened loc cs = .ok s) : s.rest.length ≤ cs.length := by
  fun_induction skipCharacter opened loc cs <;> simp_all <;> grind

theorem length_of_map_item {α : Type} {scan : Scan α} {f : α → Option Item} {n : Nat}
    {s : Scanned (Option Item)} (h : scan.map (·.item f) = .ok s)
    (hs : ∀ t, scan = .ok t → t.rest.length ≤ n) : s.rest.length ≤ n := by
  cases scan with
  | error e => cases h
  | ok t => cases h; exact hs t rfl

/-- A lexeme takes at least its first character. -/
theorem readLexeme_length_le {loc : Location} {c : Char} {cs : List Char}
    {s : Scanned (Option Item)} (h : readLexeme loc c cs = .ok s) :
    s.rest.length ≤ cs.length := by
  unfold readLexeme at h
  split at h
  · exact length_of_map_item h fun t ht => Nat.le_succ_of_le (readVerbatim_length_le ht)
  · exact length_of_map_item h fun t ht => Nat.le_succ_of_le (readText_length_le ht)
  · exact length_of_map_item h fun t ht =>
      Nat.le_succ_of_le (Nat.le_succ_of_le (readVerbatim_length_le ht))
  · exact length_of_map_item h fun t ht =>
      Nat.le_succ_of_le (Nat.le_succ_of_le (readVerbatim_length_le ht))
  · exact length_of_map_item h fun t ht => readText_length_le ht
  · exact length_of_map_item h fun t ht => skipCharacter_length_le ht
  · cases h
  · split at h
    · rename_i hc
      exact length_of_map_item h fun t ht =>
        Nat.le_trans (readChain_length_le ht) (readWord_length_lt _ _ _ hc)
    · split at h
      · rename_i hd
        have hp : isNumberPart c = true := by
          simp only [isNumberPart, Char.isAlphanum, Bool.or_eq_true]
          exact Or.inl (Or.inl (Or.inr hd))
        cases h
        dsimp only
        rw [List.dropWhile_cons_of_pos hp]
        exact Text.length_dropWhile_le _ _
      · cases h; exact Nat.le_refl _

/-- The items of the text `cs` that starts at `loc`. -/
def scanFrom (loc : Location) (cs : List Char) :
    Except (Placed ScanError) (List (Placed Item)) :=
  match _h₁ : skip loc cs with
  | .error e => .error e
  | .ok gap =>
    match _h₂ : gap.rest with
    | [] => .ok []
    | c :: body =>
      match _h₃ : readLexeme gap.loc c body with
      | .error e => .error e
      | .ok lexeme =>
        match scanFrom lexeme.loc lexeme.rest with
        | .error e => .error e
        | .ok items => .ok ((lexeme.val.map (Placed.mk · gap.loc)).toList ++ items)
termination_by cs.length
decreasing_by
  have h1 := skip_length_le _h₁
  have h2 : gap.rest.length = body.length + 1 := by rw [_h₂]; rfl
  have h3 := readLexeme_length_le _h₃
  omega

/-- The items of a source text, in order. -/
def scan (source : String) : Except (Placed ScanError) (List (Placed Item)) :=
  scanFrom Location.first source.toList

end ScriptHost.Guard
