import ScriptHost.Proofs.Guard.Lockstep
import ScriptHost.Proofs.Guard.Mentions
import ScriptHost.Proofs.Script.Readers

/-!
# The guard sees every name and text of a program

Each reader of statements takes a phrase: no integer in it stands before a word or a dot, and
its items include all that the syntax tree mentions. So a text that lexes and parses is
scanned without error, into the items of its tokens.
-/

namespace ScriptHost.Guard
open Script (Token Input Reader Expr Stmt mentionsAll)

/-- The tokens that a reader takes make a phrase that shows what the result mentions. -/
def Covers {α : Type} (p : Reader α) (mentions : α → List Item) : Prop :=
  ∀ ⦃i a j⦄, p i = .ok a j → ∃ ts, i.tokens = ts ++ j.tokens ∧ Phrase ts (mentions a)

/-! ## Paths -/

/-- The tokens of a complete chain of members. -/
theorem chainBehind_of_memberChain {ts rest : List (Placed Token)} {words : List String}
    (h : Reader.memberChain ts = (words, rest, true)) :
    ∃ chain, ts = chain ++ rest ∧ chainBehind chain = (words, []) ∧
      (∀ t ∈ chain, t.val.isInt = false) ∧ ∀ t ∈ chain.getLast?, t.val ≠ .symbol .dot := by
  fun_induction Reader.memberChain ts generalizing words rest with
  | case1 dot w loc ts words' rest' complete hchain ih =>
      cases h
      obtain ⟨chain, rfl, hwords, hint, hlast⟩ := ih hchain
      refine ⟨⟨.symbol .dot, dot⟩ :: ⟨.word w, loc⟩ :: chain, rfl, ?_, ?_, ?_⟩
      · rw [@chainBehind_dot_word _ w rfl, hwords]
      · rintro t (_ | ⟨_, _ | ⟨_, ht⟩⟩)
        · rfl
        · rfl
        · exact hint t ht
      · cases chain with
        | nil =>
            rintro _ ⟨⟩
            exact Token.noConfusion
        | cons u us =>
            rw [List.getLast?_cons_cons, List.getLast?_cons_cons]
            exact hlast
  | case2 => cases h
  | case3 ts =>
      cases h
      exact ⟨[], rfl, rfl, by simp, by simp⟩

theorem covers_path : Covers Reader.path fun p => [p.item] := by
  intro i p j h
  obtain ⟨ts, htokens, hchain⟩ := Reader.tokens_of_path h
  obtain ⟨chain, rfl, hwords, hint, hlast⟩ := chainBehind_of_memberChain hchain
  exact ⟨⟨.word p.head, i.loc⟩ :: chain, htokens, Phrase.path hwords hint hlast p.head i.loc⟩

/-! ## Expressions -/

theorem symbol_of_ofToken? {t : Token} {op : Script.BinaryOp}
    (h : Script.BinaryOp.ofToken? t = some op) : ∃ s, t = .symbol s ∧ s ≠ .dot := by
  unfold Script.BinaryOp.ofToken? at h
  split at h <;> first | exact ⟨_, rfl, Script.Symbol.noConfusion⟩ | cases h

/-- Operators extend the phrase of their left operand. -/
theorem phrase_of_operators {operand : Nat → Reader Expr}
    (hoperand : ∀ floor, Covers (operand floor) Expr.mentions) {floor limit : Nat}
    {left expr : Expr} {i j : Input} (h : Reader.operators operand floor limit left i = .ok expr j)
    {front : List (Placed Token)} (hleft : Phrase front left.mentions) :
    ∃ ts, i.tokens = ts ++ j.tokens ∧ Phrase (front ++ ts) expr.mentions := by
  induction limit generalizing left i front with
  | zero =>
      cases h
      exact ⟨[], rfl, by rwa [List.append_nil]⟩
  | succ limit ih =>
      simp only [Reader.operators, Computation.bind_eq_ok_iff, Reader.peek_eq_ok_iff] at h
      obtain ⟨next, _, ⟨hpeek, rfl⟩, h⟩ := h
      cases hop : next.bind Script.BinaryOp.ofToken? with
      | none =>
          rw [hop] at h
          cases h
          exact ⟨[], rfl, by rwa [List.append_nil]⟩
      | some op =>
          rw [hop] at h
          dsimp only at h
          split at h
          · cases h
            exact ⟨[], rfl, by rwa [List.append_nil]⟩
          · obtain ⟨t, rfl, ht⟩ := Option.bind_eq_some_iff.1 hop
            obtain ⟨s, rfl, hs⟩ := symbol_of_ofToken? ht
            have htokens := Input.tokens_of_peek hpeek
            simp only [Computation.bind_eq_ok_iff, Reader.here_eq_ok_iff,
              Reader.advance_eq_ok_iff] at h
            obtain ⟨loc, _, ⟨rfl, rfl⟩, _, _, rfl, right, behind, hright, h⟩ := h
            obtain ⟨us, hus, hphrase⟩ := hoperand _ hright
            have hfront := hleft.before_symbol hs ((Phrase.symbol hs i.loc).behind rfl hphrase)
            obtain ⟨vs, hvs, hvphrase⟩ := ih h hfront
            refine ⟨⟨.symbol s, i.loc⟩ :: us ++ vs, ?_, ?_⟩
            · rw [htokens, hus, hvs]
              simp only [List.cons_append, List.append_assoc]
            · rwa [← List.append_assoc]

/-- Further arguments extend the phrase of what is in front of them. -/
theorem phrase_of_moreArguments {argument : Reader Expr} (hargument : Covers argument Expr.mentions)
    {limit : Nat} {args : List Expr} {i j : Input}
    (h : Reader.moreArguments argument limit i = .ok args j) {front : List (Placed Token)}
    {ms : List Item} (hfront : Phrase front ms) :
    ∃ ts, i.tokens = ts ++ j.tokens ∧ Phrase (front ++ ts) (ms ++ mentionsAll args) := by
  induction limit generalizing args i front ms with
  | zero =>
      cases h
      exact ⟨[], rfl, by rwa [List.append_nil, mentionsAll, List.append_nil]⟩
  | succ limit ih =>
      simp only [Reader.moreArguments, Computation.bind_eq_ok_iff] at h
      obtain ⟨taken, behind, haccept, h⟩ := h
      rcases Reader.tokens_of_accept haccept with ⟨rfl, htokens⟩ | ⟨rfl, rfl⟩
      · simp only [if_true, Computation.bind_eq_ok_iff, Computation.pure_eq_ok_iff] at h
        obtain ⟨first, next, hfirst, others, _, hothers, rfl, rfl⟩ := h
        obtain ⟨us, hus, hphrase⟩ := hargument hfirst
        have hcomma : Script.Symbol.comma ≠ .dot := Script.Symbol.noConfusion
        have hextended :=
          hfront.before_symbol hcomma ((Phrase.symbol hcomma i.loc).behind rfl hphrase)
        obtain ⟨vs, hvs, hvphrase⟩ := ih hothers hextended
        refine ⟨⟨.symbol .comma, i.loc⟩ :: us ++ vs, ?_, ?_⟩
        · rw [htokens, hus, hvs]
          simp only [List.cons_append, List.append_assoc]
        · rw [← List.append_assoc, mentionsAll, ← List.append_assoc]
          exact hvphrase
      · cases h
        exact ⟨[], rfl, by rwa [List.append_nil, mentionsAll, List.append_nil]⟩

/-- The arguments of a call, with the parenthesis in front of them. -/
theorem phrase_of_arguments {argument : Reader Expr} (hargument : Covers argument Expr.mentions)
    {args : List Expr} {i j : Input} (h : Reader.arguments argument i = .ok args j)
    (loc : Location) :
    ∃ ts, i.tokens = ts ++ j.tokens ∧
      Phrase (⟨.symbol .openParen, loc⟩ :: ts) (mentionsAll args) := by
  have hopen := Phrase.symbol (s := .openParen) Script.Symbol.noConfusion loc
  simp only [Reader.arguments, Computation.bind_eq_ok_iff, Reader.peek_eq_ok_iff] at h
  obtain ⟨next, _, ⟨hpeek, rfl⟩, h⟩ := h
  split at h
  · cases h
    exact ⟨[], rfl, hopen⟩
  · simp only [Computation.bind_eq_ok_iff, Computation.pure_eq_ok_iff] at h
    obtain ⟨first, behind, hfirst, n, _, hremaining, others, _, hothers, rfl, rfl⟩ := h
    obtain rfl := Reader.remaining_eq_ok hremaining
    obtain ⟨us, hus, hphrase⟩ := hargument hfirst
    obtain ⟨vs, hvs, hvphrase⟩ := phrase_of_moreArguments hargument hothers (hopen.behind rfl hphrase)
    refine ⟨us ++ vs, ?_, ?_⟩
    · rw [hus, hvs, List.append_assoc]
    · rw [mentionsAll]
      exact hvphrase

/-- A literal's token shows the text in it. -/
theorem phrase_of_ofToken? {t : Token} {value : Value} (h : Script.Value.ofToken? t = some value)
    (loc loc' : Location) : Phrase [⟨t, loc⟩] (Expr.literal value loc').mentions := by
  cases t with
  | int n =>
      cases h
      exact Phrase.single Token.noConfusion (List.nil_sublist _)
  | text s =>
      cases h
      exact Phrase.text s loc
  | keyword k => cases k <;> cases h <;> exact Phrase.keyword _ loc
  | word | symbol => cases h

theorem covers_primary {argument inner : Reader Expr} (hargument : Covers argument Expr.mentions)
    (hinner : Covers inner Expr.mentions) : Covers (Reader.primary argument inner) Expr.mentions := by
  intro i expr j h
  simp only [Reader.primary, Computation.bind_eq_ok_iff, Reader.here_eq_ok_iff,
    Reader.peek_eq_ok_iff] at h
  obtain ⟨loc, _, ⟨rfl, rfl⟩, next, _, ⟨hpeek, rfl⟩, h⟩ := h
  have hclose : Script.Symbol.closeParen ≠ .dot := Script.Symbol.noConfusion
  cases hvalue : next.bind Script.Value.ofToken? with
  | some value =>
      rw [hvalue] at h
      simp only [Computation.bind_eq_ok_iff, Reader.advance_eq_ok_iff, Computation.pure_eq_ok_iff]
        at h
      obtain ⟨_, _, rfl, rfl, rfl⟩ := h
      obtain ⟨t, rfl, ht⟩ := Option.bind_eq_some_iff.1 hvalue
      exact ⟨[⟨t, i.loc⟩], Input.tokens_of_peek hpeek, phrase_of_ofToken? ht i.loc i.loc⟩
  | none =>
      rw [hvalue] at h
      dsimp only at h
      split at h
      · simp only [Computation.bind_eq_ok_iff, Reader.advance_eq_ok_iff,
          Computation.pure_eq_ok_iff] at h
        obtain ⟨_, _, rfl, inside, behind, hinside, _, _, hexpect, rfl, rfl⟩ := h
        obtain ⟨us, hus, hphrase⟩ := hinner hinside
        have hopen := Phrase.symbol (s := .openParen) Script.Symbol.noConfusion i.loc
        refine ⟨⟨.symbol .openParen, i.loc⟩ :: us ++ [⟨.symbol .closeParen, behind.loc⟩], ?_, ?_⟩
        · rw [Input.tokens_of_peek hpeek, hus, Reader.tokens_of_expect hexpect]
          simp only [List.cons_append, List.append_assoc, List.nil_append]
        · exact (hopen.behind rfl hphrase).before_end hclose behind.loc
      · simp only [Computation.bind_eq_ok_iff] at h
        obtain ⟨target, called, htarget, taken, behind, haccept, h⟩ := h
        obtain ⟨us, hus, hpath⟩ := covers_path htarget
        rcases Reader.tokens_of_accept haccept with ⟨rfl, htokens⟩ | ⟨rfl, rfl⟩
        · simp only [if_true, Computation.bind_eq_ok_iff, Computation.pure_eq_ok_iff] at h
          obtain ⟨args, closing, hargs, _, _, hexpect, rfl, rfl⟩ := h
          obtain ⟨vs, hvs, hphrase⟩ := phrase_of_arguments hargument hargs called.loc
          refine ⟨us ++ (⟨.symbol .openParen, called.loc⟩ :: vs) ++
            [⟨.symbol .closeParen, closing.loc⟩], ?_, ?_⟩
          · rw [hus, htokens, hvs, Reader.tokens_of_expect hexpect]
            simp only [List.cons_append, List.append_assoc, List.nil_append]
          · exact (hpath.before_symbol Script.Symbol.noConfusion hphrase).before_end hclose closing.loc
        · cases h
          exact ⟨us, hus, hpath⟩
      · exact (Reader.fail_eq_ok_iff.1 h).elim

/-- An operand behind a prefix that is no dot and no integer. -/
theorem covers_prefixed {t : Token} {i j : Input} {expr : Expr} {p : Reader Expr}
    (hpeek : i.peek = some t) (ht : Phrase [⟨t, i.loc⟩] []) (hint : t.isInt = false)
    (hp : Covers p Expr.mentions) (h : p (Input.mk i.tokens.tail i.finish) = .ok expr j) :
    ∃ ts, i.tokens = ts ++ j.tokens ∧ Phrase ts expr.mentions := by
  obtain ⟨us, hus, hphrase⟩ := hp h
  refine ⟨⟨t, i.loc⟩ :: us, ?_, ht.behind hint hphrase⟩
  rw [Input.tokens_of_peek hpeek, hus]
  rfl

theorem covers_fail {α : Type} (e : Script.SyntaxError) (mentions : α → List Item) :
    Covers (Reader.fail e) mentions := by
  intro i a j h
  exact (Reader.fail_eq_ok_iff.1 h).elim

/-- Expressions of every nesting that is allowed. -/
theorem covers_binary_unary (room : Nat) :
    (∀ floor, Covers (Reader.binary room floor) Expr.mentions) ∧
      Covers (Reader.unary room) Expr.mentions := by
  induction room using Nat.strong_induction_on with
  | _ room ih =>
    cases room with
    | zero =>
        constructor
        · intro floor i expr j h
          rw [Reader.binary] at h
          exact (Reader.fail_eq_ok_iff.1 h).elim
        · intro i expr j h
          rw [Reader.unary] at h
          exact (Reader.fail_eq_ok_iff.1 h).elim
    | succ room =>
        obtain ⟨hbinary, hunary⟩ := ih room (Nat.lt_succ_self room)
        constructor
        · intro floor i expr j h
          rw [Reader.binary] at h
          simp only [Computation.bind_eq_ok_iff] at h
          obtain ⟨left, behind, hleft, n, _, hremaining, h⟩ := h
          obtain rfl := Reader.remaining_eq_ok hremaining
          obtain ⟨us, hus, hphrase⟩ := hunary hleft
          obtain ⟨vs, hvs, hvphrase⟩ := phrase_of_operators hbinary h hphrase
          exact ⟨us ++ vs, by rw [hus, hvs, List.append_assoc], hvphrase⟩
        · intro i expr j h
          rw [Reader.unary.eq_def] at h
          simp only [Computation.bind_eq_ok_iff, Reader.here_eq_ok_iff, Reader.peek_eq_ok_iff] at h
          obtain ⟨loc, _, ⟨rfl, rfl⟩, next, _, ⟨hpeek, rfl⟩, h⟩ := h
          split at h
          · simp only [Computation.bind_eq_ok_iff, Reader.advance_eq_ok_iff,
              Computation.pure_eq_ok_iff] at h
            obtain ⟨_, _, rfl, operand, _, hoperand, rfl, rfl⟩ := h
            have hminus := Phrase.symbol (s := .minus) Script.Symbol.noConfusion i.loc
            obtain ⟨us, hus, hphrase⟩ := covers_prefixed hpeek hminus rfl hunary hoperand
            exact ⟨us, hus, hphrase⟩
          · simp only [Computation.bind_eq_ok_iff, Reader.advance_eq_ok_iff,
              Computation.pure_eq_ok_iff] at h
            obtain ⟨_, _, rfl, operand, _, hoperand, rfl, rfl⟩ := h
            have hbang := Phrase.symbol (s := .bang) Script.Symbol.noConfusion i.loc
            obtain ⟨us, hus, hphrase⟩ := covers_prefixed hpeek hbang rfl hunary hoperand
            exact ⟨us, hus, hphrase⟩
          · simp only [Computation.bind_eq_ok_iff, Reader.advance_eq_ok_iff,
              Computation.pure_eq_ok_iff] at h
            obtain ⟨_, _, rfl, operand, _, hoperand, rfl, rfl⟩ := h
            have hawait := Phrase.keyword .await i.loc
            obtain ⟨us, hus, hphrase⟩ := covers_prefixed hpeek hawait rfl hunary hoperand
            exact ⟨us, hus, hphrase⟩
          · cases room with
            | zero => exact covers_primary (hbinary 0) (covers_fail _ _) h
            | succ less =>
                have hless := ih less (Nat.lt_succ_of_lt (Nat.lt_succ_self less))
                exact covers_primary (hbinary 0) (hless.1 0) h

theorem covers_expression : Covers Reader.expression Expr.mentions :=
  (covers_binary_unary Reader.maxNesting).1 0

/-! ## Statements -/

/-- Between two inputs stands a phrase, closed by its semicolon or by the end of the text. -/
def Takes (i j : Input) (ms : List Item) : Prop :=
  ∃ ts, i.tokens = ts ++ j.tokens ∧ Phrase ts ms ∧
    (j.tokens = [] ∨ ∀ t ∈ ts.getLast?, t.val.isInt = false)

theorem takes_of_semicolon {i j : Input} {us : List (Placed Token)} {loc : Location}
    {ms : List Item} (htokens : i.tokens = us ++ ⟨.symbol .semicolon, loc⟩ :: j.tokens)
    (hphrase : Phrase us ms) : Takes i j ms := by
  refine ⟨us ++ [⟨.symbol .semicolon, loc⟩], ?_, ?_, Or.inr ?_⟩
  · rw [htokens, List.append_assoc]
    rfl
  · exact hphrase.before_end Script.Symbol.noConfusion loc
  · rw [List.getLast?_concat]
    rintro _ ⟨⟩
    rfl

theorem takes_of_evaluation {i j : Input} {stmt : Stmt} (h : Reader.evaluation i = .ok stmt j) :
    Takes i j stmt.mentions := by
  simp only [Reader.evaluation, Computation.bind_eq_ok_iff] at h
  obtain ⟨expr, ending, hexpr, taken, behind, haccept, h⟩ := h
  obtain ⟨us, hus, hphrase⟩ := covers_expression hexpr
  rcases Reader.tokens_of_accept haccept with ⟨rfl, htokens⟩ | ⟨rfl, rfl⟩
  · cases h
    rw [htokens] at hus
    exact takes_of_semicolon hus hphrase
  · simp only [Bool.false_eq_true, if_false, Computation.bind_eq_ok_iff, Reader.peek_eq_ok_iff] at h
    obtain ⟨next, _, ⟨hpeek, rfl⟩, h⟩ := h
    split at h
    · rename_i hnone
      cases h
      exact ⟨us, hus, hphrase, Or.inl (Input.tokens_of_peek_eq_none (hpeek.trans hnone))⟩
    · exact (Reader.fail_eq_ok_iff.1 h).elim

/-- A word, an assignment sign and an expression. -/
theorem phrase_of_assignment {s : Script.Symbol} (hs : s ≠ .dot) (name : String)
    {us : List (Placed Token)} {expr : Expr} (hphrase : Phrase us expr.mentions)
    (loc loc' : Location) :
    Phrase (⟨.word name, loc⟩ :: ⟨.symbol s, loc'⟩ :: us) (.name [name] :: expr.mentions) :=
  (Phrase.word name loc).behind rfl ((Phrase.symbol hs loc').behind rfl hphrase)

theorem symbol_of_assignOp? {i : Input} {op : Script.AssignOp} (h : Reader.assignOp? i = some op) :
    ∃ t s loc rest, i.tokens = t :: ⟨.symbol s, loc⟩ :: rest ∧ s ≠ .dot := by
  unfold Reader.assignOp? at h
  split at h
  · exact ⟨_, _, _, _, ‹_›, Script.Symbol.noConfusion⟩
  · exact ⟨_, _, _, _, ‹_›, Script.Symbol.noConfusion⟩
  · exact ⟨_, _, _, _, ‹_›, Script.Symbol.noConfusion⟩
  · cases h

theorem takes_of_using {i behind j : Input} {names : Script.Path} {r : Unit}
    (hpeek : i.peek = some (.keyword .usingNames))
    (hnames : Reader.path (Input.mk i.tokens.tail i.finish) = .ok names behind)
    (hsemicolon : Reader.semicolon behind = .ok r j) : Takes i j [names.item] := by
  obtain ⟨us, hus, hphrase⟩ := covers_path hnames
  have htokens : i.tokens = (⟨.keyword .usingNames, i.loc⟩ :: us) ++
      ⟨.symbol .semicolon, behind.loc⟩ :: j.tokens := by
    rw [Input.tokens_of_peek hpeek, hus, Reader.tokens_of_expect hsemicolon]
    rfl
  exact takes_of_semicolon htokens ((Phrase.keyword .usingNames i.loc).behind rfl hphrase)

theorem takes_of_declaration {i named assigned behind j : Input} {name : String}
    {init : Expr} {r r' : Unit} (hpeek : i.peek = some (.keyword .var))
    (hname : Reader.word (Input.mk i.tokens.tail i.finish) = .ok name named)
    (hassign : Reader.expect (.symbol .assign) .initializerExpected named = .ok r assigned)
    (hinit : Reader.expression assigned = .ok init behind)
    (hsemicolon : Reader.semicolon behind = .ok r' j) :
    Takes i j (.name [name] :: init.mentions) := by
  obtain ⟨us, hus, hphrase⟩ := covers_expression hinit
  have hassignment := phrase_of_assignment (s := .assign) Script.Symbol.noConfusion name hphrase
    (Input.mk i.tokens.tail i.finish).loc named.loc
  have htokens : i.tokens = (⟨.keyword .var, i.loc⟩ ::
      ⟨.word name, (Input.mk i.tokens.tail i.finish).loc⟩ :: ⟨.symbol .assign, named.loc⟩ :: us) ++
        ⟨.symbol .semicolon, behind.loc⟩ :: j.tokens := by
    rw [Input.tokens_of_peek hpeek, Reader.tokens_of_word hname, Reader.tokens_of_expect hassign,
      hus, Reader.tokens_of_expect hsemicolon]
    rfl
  exact takes_of_semicolon htokens ((Phrase.keyword .var i.loc).behind rfl hassignment)

theorem takes_of_assignment {i behind j : Input} {name : String} {op : Script.AssignOp}
    {value : Expr} {r : Unit} (hpeek : i.peek = some (.word name))
    (hop : Reader.assignOp? i = some op)
    (hvalue : Reader.expression (Input.mk i.tokens.tail.tail i.finish) = .ok value behind)
    (hsemicolon : Reader.semicolon behind = .ok r j) :
    Takes i j (.name [name] :: value.mentions) := by
  obtain ⟨us, hus, hphrase⟩ := covers_expression hvalue
  obtain ⟨t, s, loc, rest, htail, hs⟩ := symbol_of_assignOp? hop
  have hfirst := Input.tokens_of_peek hpeek
  have htokens : i.tokens = (⟨.word name, i.loc⟩ :: ⟨.symbol s, loc⟩ :: us) ++
      ⟨.symbol .semicolon, behind.loc⟩ :: j.tokens := by
    rw [htail] at hfirst hus ⊢
    rw [Reader.tokens_of_expect hsemicolon] at hus
    cases hfirst
    exact congrArg (⟨.word name, i.loc⟩ :: ⟨.symbol s, loc⟩ :: ·) hus
  exact takes_of_semicolon htokens (phrase_of_assignment hs name hphrase i.loc loc)

theorem takes_of_throw {i fresh named opened closed behind j : Input} {exception : Script.Path}
    {ms : List Item} {vs : List (Placed Token)} {r₁ r₂ r₃ r₄ : Unit}
    (hpeek : i.peek = some (.keyword .throw))
    (hnew : Reader.expect (.keyword .new) .newExpected (Input.mk i.tokens.tail i.finish) =
      .ok r₁ fresh)
    (hexception : Reader.path fresh = .ok exception named)
    (hopen : Reader.expect (.symbol .openParen) .openParenExpected named = .ok r₂ opened)
    (hmessage : opened.tokens = vs ++ closed.tokens)
    (hphrase : Phrase (⟨.symbol .openParen, named.loc⟩ :: vs) ms)
    (hclose : Reader.expect (.symbol .closeParen) .closeParenExpected closed = .ok r₃ behind)
    (hsemicolon : Reader.semicolon behind = .ok r₄ j) : Takes i j (exception.item :: ms) := by
  obtain ⟨us, hus, hpath⟩ := covers_path hexception
  have hbody := (hpath.before_symbol Script.Symbol.noConfusion hphrase).before_end
    (s := .closeParen) Script.Symbol.noConfusion closed.loc
  have hnewBody := (Phrase.keyword .new (Input.mk i.tokens.tail i.finish).loc).behind rfl hbody
  have htokens : i.tokens = (⟨.keyword .throw, i.loc⟩ ::
      ⟨.keyword .new, (Input.mk i.tokens.tail i.finish).loc⟩ ::
        (us ++ ⟨.symbol .openParen, named.loc⟩ :: vs ++ [⟨.symbol .closeParen, closed.loc⟩])) ++
      ⟨.symbol .semicolon, behind.loc⟩ :: j.tokens := by
    refine (Input.tokens_of_peek hpeek).trans ?_
    rw [Reader.tokens_of_expect hnew, hus, Reader.tokens_of_expect hopen, hmessage,
      Reader.tokens_of_expect hclose, Reader.tokens_of_expect hsemicolon]
    simp only [List.cons_append, List.append_assoc, List.nil_append]
  exact takes_of_semicolon htokens ((Phrase.keyword .throw i.loc).behind rfl hnewBody)

/-- A statement takes a phrase that shows what it mentions. -/
theorem takes_of_statement {i j : Input} {stmt : Stmt} (h : Reader.statement i = .ok stmt j) :
    Takes i j stmt.mentions := by
  simp only [Reader.statement, Computation.bind_eq_ok_iff, Reader.here_eq_ok_iff,
    Reader.peek_eq_ok_iff] at h
  obtain ⟨loc, _, ⟨rfl, rfl⟩, next, _, ⟨hpeek, rfl⟩, h⟩ := h
  split at h
  · simp only [Computation.bind_eq_ok_iff, Reader.advance_eq_ok_iff, Computation.pure_eq_ok_iff] at h
    obtain ⟨_, _, rfl, names, behind, hnames, _, _, hsemicolon, rfl, rfl⟩ := h
    exact takes_of_using hpeek hnames hsemicolon
  · simp only [Computation.bind_eq_ok_iff, Reader.advance_eq_ok_iff, Computation.pure_eq_ok_iff] at h
    obtain ⟨_, _, rfl, name, named, hname, _, assigned, hassign, init, behind, hinit, _, _,
      hsemicolon, rfl, rfl⟩ := h
    exact takes_of_declaration hpeek hname hassign hinit hsemicolon
  · simp only [Computation.bind_eq_ok_iff, Reader.advance_eq_ok_iff, Reader.peek_eq_ok_iff] at h
    obtain ⟨_, _, rfl, _, fresh, hnew, exception, named, hexception, _, opened, hopen, _, _,
      ⟨-, rfl⟩, h⟩ := h
    have hparen := Phrase.symbol (s := .openParen) Script.Symbol.noConfusion named.loc
    split at h
    · simp only [Computation.bind_eq_ok_iff, Computation.pure_eq_ok_iff] at h
      obtain ⟨_, _, ⟨rfl, rfl⟩, _, _, hclose, _, _, hsemicolon, rfl, rfl⟩ := h
      exact takes_of_throw hpeek hnew hexception hopen rfl hparen hclose hsemicolon
    · simp only [Computation.bind_eq_ok_iff, Computation.map_eq_ok_iff,
        Computation.pure_eq_ok_iff] at h
      obtain ⟨_, _, ⟨expr, hexpr, rfl⟩, _, _, hclose, _, _, hsemicolon, rfl, rfl⟩ := h
      obtain ⟨us, hus, hphrase⟩ := covers_expression hexpr
      exact takes_of_throw hpeek hnew hexception hopen hus (hparen.behind rfl hphrase) hclose
        hsemicolon
  · simp only [Computation.bind_eq_ok_iff, Computation.get_eq_ok_iff] at h
    obtain ⟨_, _, ⟨rfl, rfl⟩, h⟩ := h
    cases hop : Reader.assignOp? i with
    | none =>
        rw [hop] at h
        exact takes_of_evaluation h
    | some op =>
        rw [hop] at h
        simp only [Computation.bind_eq_ok_iff, Reader.advance_eq_ok_iff,
          Computation.pure_eq_ok_iff] at h
        obtain ⟨_, _, rfl, _, _, rfl, value, behind, hvalue, _, _, hsemicolon, rfl, rfl⟩ := h
        exact takes_of_assignment hpeek hop hvalue hsemicolon
  · exact takes_of_evaluation h

/-! ## Programs -/

/-- Statements read without an error cover all tokens and mention only items of theirs. -/
theorem covers_of_parseFrom {limit : Nat} {i : Input} (hlimit : i.tokens.length ≤ limit)
    (h : (Script.parseFrom limit i).errors = []) :
    Spaced i.tokens ∧ (∀ t ∈ i.tokens.head?, t.val ≠ .symbol .dot) ∧
      ((Script.parseFrom limit i).statements.flatMap Stmt.mentions).Sublist
        ((itemsOf i.tokens).map (·.val)) := by
  fun_induction Script.parseFrom limit i with
  | case1 i =>
      have htokens := List.length_eq_zero_iff.1 (Nat.le_zero.1 hlimit)
      rw [htokens]
      exact ⟨List.isChain_nil, by simp, List.nil_sublist _⟩
  | case2 limit i htokens =>
      rw [htokens]
      exact ⟨List.isChain_nil, by simp, List.nil_sublist _⟩
  | case3 limit i t ts htokens hsemicolon ih =>
      rw [htokens] at hlimit ⊢
      obtain ⟨t, loc⟩ := t
      cases hsemicolon
      obtain ⟨hspaced, -, hcovers⟩ := ih (Nat.le_of_succ_le_succ hlimit) h
      refine ⟨?_, ?_, ?_⟩
      · apply hspaced.cons
        rintro u - ⟨⟩
      · rintro _ ⟨⟩
        exact ne_of_beq_false rfl
      · rw [itemsOf_symbol]
        exact hcovers
  | case4 limit i t ts htokens hsemicolon stmt rest hstmt tail ih =>
      obtain ⟨us, hus, hphrase, hend⟩ := takes_of_statement hstmt
      have hfewer : rest.tokens.length ≤ limit := by
        rw [hus, List.length_append] at hlimit
        have := List.length_pos_iff.2 hphrase.nonempty
        omega
      obtain ⟨hspaced, hhead, hcovers⟩ := ih hfewer h
      rw [hus]
      refine ⟨List.isChain_append.2 ⟨hphrase.spaced, hspaced, ?_⟩, ?_, ?_⟩
      · intro u hu v hv hint
        rcases hend with hnil | hlast
        · rw [hnil] at hv
          cases hv
        · exact absurd (hint.symm.trans (hlast u hu)) Bool.noConfusion
      · rw [List.head?_append_of_ne_nil _ hphrase.nonempty]
        exact hphrase.head
      · rw [itemsOf_append hphrase.last hhead, List.map_append, List.flatMap_cons]
        exact hphrase.covers.append hcovers
  | case5 => cases h

/-- A text that lexes and parses is scanned without error into the items of its tokens, and
each name and text of its program is among them, in the order of the program. -/
theorem scan_of_parse {source : String} {tokens : List (Placed Token)} {finish : Location}
    {stmts : List Stmt} (hlex : Script.lex source = .ok (tokens, finish))
    (hparse : Script.parse tokens finish = .ok stmts) :
    scan source = .ok (itemsOf tokens) ∧
      (stmts.flatMap Stmt.mentions).Sublist ((itemsOf tokens).map (·.val)) := by
  unfold Script.parse at hparse
  dsimp only at hparse
  split at hparse
  · rename_i herrors
    cases hparse
    obtain ⟨hspaced, -, hcovers⟩ :=
      @covers_of_parseFrom _ ⟨tokens, finish⟩ (Nat.le_refl _) (List.isEmpty_iff.1 herrors)
    exact ⟨scanFrom_of_reads (Script.reads_of_lex_eq_ok hlex) hspaced, hcovers⟩
  · cases hparse

/-- A call target with a comment inside it, a number and an escaped quote. -/
theorem scan_of_parse_call :
    scan "Console ./* */ Write(1 + \"a\\\"\")" =
      .ok [⟨.name ["Console", "Write"], ⟨1, 1⟩⟩, ⟨.text "a\"", ⟨1, 26⟩⟩] := by
  have hlex : Script.lex "Console ./* */ Write(1 + \"a\\\"\")" =
      .ok ([⟨.word "Console", ⟨1, 1⟩⟩, ⟨.symbol .dot, ⟨1, 9⟩⟩, ⟨.word "Write", ⟨1, 16⟩⟩,
        ⟨.symbol .openParen, ⟨1, 21⟩⟩, ⟨.int 1, ⟨1, 22⟩⟩, ⟨.symbol .plus, ⟨1, 24⟩⟩,
        ⟨.text "a\"", ⟨1, 26⟩⟩, ⟨.symbol .closeParen, ⟨1, 31⟩⟩], ⟨1, 32⟩) := by
    decide +kernel
  have hparse : Script.parse
      [⟨.word "Console", ⟨1, 1⟩⟩, ⟨.symbol .dot, ⟨1, 9⟩⟩, ⟨.word "Write", ⟨1, 16⟩⟩,
        ⟨.symbol .openParen, ⟨1, 21⟩⟩, ⟨.int 1, ⟨1, 22⟩⟩, ⟨.symbol .plus, ⟨1, 24⟩⟩,
        ⟨.text "a\"", ⟨1, 26⟩⟩, ⟨.symbol .closeParen, ⟨1, 31⟩⟩] ⟨1, 32⟩ =
      .ok [.eval (.call ⟨"Console", ["Write"]⟩
        [.binary .add (.literal (.int 1) ⟨1, 22⟩) (.literal (.text "a\"") ⟨1, 26⟩) ⟨1, 24⟩]
        ⟨1, 1⟩) true] := rfl
  have hscan := (scan_of_parse hlex hparse).1
  simpa [itemsOf_of_spelling?, chainBehind, Token.spelling?] using hscan

end ScriptHost.Guard
