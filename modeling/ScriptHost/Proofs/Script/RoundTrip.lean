import ScriptHost.Proofs.Script.Rereading
import ScriptHost.Proofs.Script.Written

/-!
# Printed scripts are read again

A list of statements that is printed, however it is spaced and commented, is cut into the tokens of
its statements and read again as it was, up to places.
-/

namespace ScriptHost.Script

/-! ## The tokens of printed expressions -/

/-- The token makes an assignment of a statement that starts with a word. -/
def Token.assigns : Token → Bool
  | .symbol .assign | .symbol .plusAssign | .symbol .minusAssign => true
  | _ => false

/-- The token can be written, and stand in an expression. -/
structure Token.Inner (t : Token) : Prop where
  writable : t.isWritable = true
  assigns : t.assigns = false

theorem inner_symbol {s : Symbol} (h : Token.assigns (.symbol s) = false) :
    Token.Inner (.symbol s) := ⟨rfl, h⟩

theorem inner_keyword (k : Keyword) : Token.Inner (.keyword k) := ⟨rfl, rfl⟩

theorem inner_path {p : Path} (h : p.isPrintable = true) : ∀ t ∈ p.tokens, t.Inner := by
  obtain ⟨hhead, hmembers⟩ := Bool.and_eq_true_iff.1 h
  rw [Path.tokens, List.forall_mem_cons, List.forall_mem_flatMap]
  refine ⟨⟨hhead, rfl⟩, ?_⟩
  intro w hw
  rw [List.forall_mem_cons, List.forall_mem_singleton]
  exact ⟨inner_symbol rfl, List.all_eq_true.1 hmembers w hw, rfl⟩

theorem inner_enclosed {floor precedence : Nat} {ts : List Token} (h : ∀ t ∈ ts, t.Inner) :
    ∀ t ∈ enclosed floor precedence ts, t.Inner := by
  rw [enclosed]
  split
  · rw [List.forall_mem_cons, List.forall_mem_append, List.forall_mem_singleton]
    exact ⟨inner_symbol rfl, h, inner_symbol rfl⟩
  · exact h

theorem inner_separated {tss : List (List Token)} (h : ∀ ts ∈ tss, ∀ t ∈ ts, t.Inner) :
    ∀ t ∈ separated tss, t.Inner := by
  cases tss with
  | nil => exact List.forall_mem_nil _
  | cons ts tss =>
      obtain ⟨hfirst, hmore⟩ := List.forall_mem_cons.1 h
      rw [separated, List.forall_mem_append, List.forall_mem_flatMap]
      refine ⟨hfirst, fun us hus => ?_⟩
      rw [List.forall_mem_cons]
      exact ⟨inner_symbol rfl, hmore us hus⟩

mutual

theorem inner_tokens : ∀ e : Expr, e.isPrintable = true → ∀ t ∈ e.tokens, t.Inner
  | .literal value _, h => by
      rw [Expr.tokens, List.forall_mem_singleton]
      cases value with
      | bool b => cases b <;> exact inner_keyword _
      | int n => exact ⟨h, rfl⟩
      | _ => exact ⟨rfl, rfl⟩
  | .name path _, h => inner_path h
  | .unary op operand _, h => by
      rw [Expr.tokens, List.forall_mem_cons]
      refine ⟨inner_symbol ?_, inner_enclosed (inner_tokens operand h)⟩
      cases op <;> rfl
  | .binary op left right _, h => by
      obtain ⟨hleft, hright⟩ := Bool.and_eq_true_iff.1 h
      rw [Expr.tokens, List.forall_mem_append, List.forall_mem_cons]
      refine ⟨inner_enclosed (inner_tokens left hleft), inner_symbol ?_,
        inner_enclosed (inner_tokens right hright)⟩
      cases op <;> rfl
  | .call target args _, h => by
      obtain ⟨htarget, hargs⟩ := Bool.and_eq_true_iff.1 h
      rw [Expr.tokens, List.forall_mem_append, List.forall_mem_cons, List.forall_mem_append,
        List.forall_mem_singleton]
      exact ⟨inner_path htarget, inner_symbol rfl,
        inner_separated (inner_tokensOfAll args hargs), inner_symbol rfl⟩
  | .await task _, h => by
      rw [Expr.tokens, List.forall_mem_cons]
      exact ⟨inner_keyword _, inner_enclosed (inner_tokens task h)⟩

theorem inner_tokensOfAll : ∀ es : List Expr, areAllPrintable es = true →
    ∀ ts ∈ tokensOfAll es, ∀ t ∈ ts, t.Inner
  | [], _ => List.forall_mem_nil _
  | e :: es, h => by
      obtain ⟨he, hes⟩ := Bool.and_eq_true_iff.1 h
      rw [tokensOfAll, List.forall_mem_cons]
      exact ⟨inner_tokens e he, inner_tokensOfAll es hes⟩

end

/-- The tokens of a printed statement can be written. -/
theorem isWritable_tokens {s : Stmt} (h : s.isPrintable = true) :
    ∀ t ∈ s.tokens, t.isWritable = true := by
  have hpath : ∀ {p : Path}, p.isPrintable = true → ∀ t ∈ p.tokens, t.isWritable = true :=
    fun hp t ht => (inner_path hp t ht).writable
  have hexpr : ∀ {e : Expr}, e.isPrintable = true → ∀ t ∈ e.tokens, t.isWritable = true :=
    fun he t ht => (inner_tokens _ he t ht).writable
  cases s with
  | usingNames names loc =>
      rw [Stmt.tokens, List.forall_mem_cons, List.forall_mem_append, List.forall_mem_singleton]
      exact ⟨rfl, hpath h, rfl⟩
  | declare name init loc =>
      obtain ⟨hname, hinit⟩ := Bool.and_eq_true_iff.1 h
      simp only [Stmt.tokens, List.forall_mem_cons, List.forall_mem_append]
      exact ⟨rfl, hname, rfl, hexpr hinit, rfl, List.forall_mem_nil _⟩
  | assign name op value loc =>
      obtain ⟨hname, hvalue⟩ := Bool.and_eq_true_iff.1 h
      simp only [Stmt.tokens, List.forall_mem_cons, List.forall_mem_append]
      exact ⟨hname, rfl, hexpr hvalue, rfl, List.forall_mem_nil _⟩
  | throw exception message loc =>
      obtain ⟨hexception, hmessage⟩ := Bool.and_eq_true_iff.1 h
      simp only [Stmt.tokens, List.forall_mem_cons, List.forall_mem_append]
      refine ⟨rfl, rfl, hpath hexception, rfl, ?_, rfl, rfl, List.forall_mem_nil _⟩
      cases message with
      | none => exact List.forall_mem_nil _
      | some message => exact hexpr hmessage
  | eval expr trailing =>
      rw [Stmt.tokens, List.forall_mem_append]
      refine ⟨hexpr h, ?_⟩
      cases trailing with
      | true => exact List.forall_mem_nil _
      | false => exact List.forall_mem_singleton.2 rfl

/-! ## Statements -/

theorem takes_expression {e : Expr} (h : e.height ≤ 60) :
    Takes Reader.expression e.tokens (·.unplaced = e.unplaced) (Stops 0) :=
  (rereads e).tokens (by omega : 4 * e.height + 1 ≤ 255)

section

variable {next : Option Token → Prop} {loc : Location}

theorem takes_usingNames (names : Path) : Takes Reader.statement
    (Stmt.usingNames names loc).tokens (·.unplaced = .usingNames names .first) next := by
  apply Takes.here
  intro loc
  apply Takes.peek_cons
  apply Takes.advance_bind
  apply (Takes.path names).bind_cons (by decide)
  rintro _ rfl
  exact Takes.expect_bind _ (.pure rfl)

theorem takes_declare (name : String) {init : Expr} (h : init.height ≤ 60) :
    Takes Reader.statement (Stmt.declare name init loc).tokens
      (·.unplaced = .declare name init.unplaced .first) next := by
  apply Takes.here
  intro loc
  apply Takes.peek_cons
  apply Takes.advance_bind
  show Takes _ ([.word name] ++ .symbol .assign :: _) _ _
  apply (Takes.word name fun _ => True).bind fun _ _ => trivial
  rintro _ rfl
  apply Takes.expect_bind
  apply (takes_expression h).bind_cons (stops_symbol 0 (Or.inr (Or.inr rfl)))
  intro init' hinit
  apply Takes.expect_bind
  apply Takes.pure
  rw [Stmt.unplaced, hinit]

theorem takes_throw (exception : Path) {message : Option Expr}
    (h : ∀ e ∈ message, e.height ≤ 60) :
    Takes Reader.statement (Stmt.throw exception message loc).tokens
      (·.unplaced = .throw exception (message.map Expr.unplaced) .first) next := by
  apply Takes.here
  intro loc
  apply Takes.peek_cons
  apply Takes.advance_bind
  apply Takes.expect_bind
  apply (Takes.path exception).bind_cons (by decide)
  rintro exception rfl
  apply Takes.expect_bind
  have hend : ∀ message' : Option Expr,
      message'.map Expr.unplaced = message.map Expr.unplaced →
      Takes (do
        Reader.expect (.symbol .closeParen) .closeParenExpected
        Reader.semicolon
        return Stmt.throw exception message' loc)
        [.symbol .closeParen, .symbol .semicolon]
        (·.unplaced = .throw exception (message.map Expr.unplaced) .first) next := by
    intro message' hmessage
    apply Takes.expect_bind
    apply Takes.expect_bind
    apply Takes.pure
    rw [Stmt.unplaced, hmessage]
  cases message with
  | none =>
      apply Takes.peek_cons
      rw [if_pos rfl]
      exact hend none rfl
  | some message =>
      obtain ⟨t, ht, hstart⟩ := message.head?_tokens
      have hopen : some t ≠ some (.symbol .closeParen) := by
        rintro ⟨⟩
        cases hstart
      obtain ⟨ts, hts⟩ := List.head?_eq_some_iff.1 ht
      have hread := takes_expression (h message rfl)
      rw [Option.map_some, Option.getD_some]
      rw [hts] at hread ⊢
      apply Takes.peek_cons
      rw [if_neg hopen]
      have hmessage : Takes (some <$> Reader.expression) (t :: ts)
          (·.map Expr.unplaced = some message.unplaced) (Stops 0) :=
        hread.map fun _ he => congrArg some he
      exact hmessage.bind_cons (stops_symbol 0 (Or.inr (Or.inl rfl))) hend

/-- What stands second makes no assignment. -/
theorem assignOp?_eq_none {i : Input}
    (h : ∀ t u us, i.tokens = t :: u :: us → u.val.assigns = false) :
    Reader.assignOp? i = none := by
  obtain ⟨tokens, finish⟩ := i
  rw [Reader.assignOp?.eq_def]
  split
  · rename_i heq
    cases h _ _ _ heq
  · rename_i heq
    cases h _ _ _ heq
  · rename_i heq
    cases h _ _ _ heq
  · rfl

theorem takes_assign (name : String) (op : AssignOp) {value : Expr} (h : value.height ≤ 60) :
    Takes Reader.statement (Stmt.assign name op value loc).tokens
      (·.unplaced = .assign name op value.unplaced .first) next := by
  apply Takes.here
  intro loc
  apply Takes.peek_cons
  have hread : Takes (do
      Reader.advance
      Reader.advance
      let value' ← Reader.expression
      Reader.semicolon
      return Stmt.assign name op value' loc)
      (Stmt.assign name op value loc).tokens
      (·.unplaced = .assign name op value.unplaced .first) next := by
    apply Takes.advance_bind
    apply Takes.advance_bind
    apply (takes_expression h).bind_cons (stops_symbol 0 (Or.inr (Or.inr rfl)))
    intro value' hvalue
    apply Takes.expect_bind
    apply Takes.pure
    rw [Stmt.unplaced, hvalue]
  apply Takes.get
  intro front rest finish hfront hpeek
  have hop : Reader.assignOp? ⟨front ++ rest, finish⟩ = some op := by
    obtain ⟨⟨t, _⟩, front, rfl, ht, hfront⟩ := List.map_eq_cons_iff.1 hfront
    obtain ⟨⟨u, _⟩, front, rfl, hu, -⟩ := List.map_eq_cons_iff.1 hfront
    cases ht
    cases hu
    cases op with
    | _ => rfl
  rw [hop]
  exact hread front rest finish hfront hpeek

/-- What can be next behind a statement: nothing but the end of the text if it has no semicolon. -/
def Behind (s : Stmt) (x : Option Token) : Prop := ∀ e, s = .eval e true → x = none

theorem takes_evaluation {e : Expr} (h : e.height ≤ 60) (trailing : Bool) :
    Takes Reader.evaluation (Stmt.eval e trailing).tokens
      (·.unplaced = .eval e.unplaced trailing) (Behind (.eval e trailing)) := by
  cases trailing with
  | false =>
      apply (takes_expression h).bind_cons (stops_symbol 0 (Or.inr (Or.inr rfl)))
      intro e' he'
      apply (Takes.accept .semicolon fun _ => True).bind_nil (fun _ _ => trivial)
      rintro _ rfl
      apply Takes.pure
      rw [Stmt.unplaced, he']
  | true =>
      apply (takes_expression h).bind
      · intro x hx
        rw [hx e rfl]
        exact stops_none 0
      · intro e' he'
        apply (Takes.accept_none .semicolon).bind_nil
        · intro x hx
          rw [hx e rfl]
          decide
        · rintro _ rfl
          apply Takes.peek
          intro x hx
          cases hx e rfl
          apply Takes.pure
          rw [Stmt.unplaced, he']

/-- An expression statement starts as its expression does. -/
theorem exists_eval_tokens (e : Expr) (trailing : Bool) :
    ∃ t ts, (Stmt.eval e trailing).tokens = t :: ts ∧ t.isStart = true := by
  obtain ⟨t, ht, hstart⟩ := head?_append (if trailing then [] else [.symbol .semicolon])
    e.head?_tokens
  obtain ⟨ts, hts⟩ := List.head?_eq_some_iff.1 ht
  exact ⟨t, ts, hts, hstart⟩

/-- An expression statement starts like none of the others. -/
theorem takes_eval {e : Expr} (hprintable : e.isPrintable = true) (h : e.height ≤ 60)
    (trailing : Bool) : Takes Reader.statement (Stmt.eval e trailing).tokens
      (·.unplaced = .eval e.unplaced trailing) (Behind (.eval e trailing)) := by
  have hread := takes_evaluation h trailing
  have hassigns : ∀ t ∈ (Stmt.eval e trailing).tokens, t.assigns = false := by
    rw [Stmt.tokens, List.forall_mem_append]
    refine ⟨fun t ht => (inner_tokens e hprintable t ht).assigns, ?_⟩
    cases trailing with
    | true => exact List.forall_mem_nil _
    | false => exact List.forall_mem_singleton.2 rfl
  obtain ⟨t, ts, htokens, hstart⟩ := exists_eval_tokens e trailing
  rw [htokens] at hread hassigns ⊢
  apply Takes.here
  intro loc
  apply Takes.peek_cons
  cases t with
  | int | text => exact hread
  | keyword k =>
      cases k with
      | truth | falsity | nothing | await => exact hread
      | var | usingNames | throw | new => cases hstart
  | symbol s => exact hread
  | word w =>
      -- Only what stands second tells an expression from an assignment.
      apply Takes.get
      intro front rest finish hfront hpeek
      rw [assignOp?_eq_none]
      · exact hread front rest finish hfront hpeek
      · intro first second behind heq
        obtain ⟨word, front, rfl, -, hfront⟩ := List.map_eq_cons_iff.1 hfront
        have hsecond : ts.head?.or (Input.peek ⟨rest, finish⟩) = some second.val := by
          rw [← peek_append hfront, show front ++ rest = second :: behind from
            (List.cons.inj heq).2]
          rfl
        cases ts with
        | cons u us =>
            cases hsecond
            exact hassigns _ (List.mem_cons_of_mem _ List.mem_cons_self)
        | nil =>
            cases trailing with
            | true =>
                rw [hpeek e rfl] at hsecond
                cases hsecond
            | false =>
                have hlast := congrArg List.getLast? htokens
                rw [Stmt.tokens, if_neg Bool.false_ne_true, List.getLast?_concat] at hlast
                cases hlast

theorem takes_statement {s : Stmt} (hprintable : s.isPrintable = true)
    (h : ∀ e ∈ s.exprs, e.height ≤ 60) :
    Takes Reader.statement s.tokens (·.unplaced = s.unplaced) (Behind s) := by
  cases s with
  | usingNames names loc => exact takes_usingNames names
  | declare name init loc => exact takes_declare name (h init List.mem_cons_self)
  | assign name op value loc => exact takes_assign name op (h value List.mem_cons_self)
  | throw exception message loc =>
      apply takes_throw exception
      intro e he
      exact h e (Option.mem_toList.2 he)
  | eval e trailing => exact takes_eval hprintable (h e List.mem_cons_self) trailing

end

/-! ## Lists of statements -/

/-- A statement has a first token, and it is no semicolon. -/
theorem Stmt.exists_tokens_cons (s : Stmt) :
    ∃ t ts, s.tokens = t :: ts ∧ t ≠ .symbol .semicolon := by
  cases s with
  | usingNames | declare | throw | assign => exact ⟨_, _, rfl, by rintro ⟨⟩⟩
  | eval e trailing =>
      obtain ⟨t, ts, htokens, hstart⟩ := exists_eval_tokens e trailing
      refine ⟨t, ts, htokens, ?_⟩
      rintro rfl
      cases hstart

theorem Printable.tail {s : Stmt} {ss : List Stmt} (h : Printable (s :: ss)) : Printable ss where
  printable t ht := h.printable t (List.mem_cons_of_mem s ht)
  closed t ht := by
    cases ss with
    | nil => cases ht
    | cons u ss => exact h.closed t (List.mem_cons_of_mem s ht)
  height t ht := h.height t (List.mem_cons_of_mem s ht)

/-- Statements are read one behind the other. -/
theorem parseFrom_of_tokens {ss : List Stmt} (hss : Printable ss) {placed : List (Placed Token)}
    {finish : Location} {limit : Nat} (hplaced : placed.map (·.val) = ss.flatMap Stmt.tokens)
    (hlimit : placed.length ≤ limit) :
    ∃ stmts, parseFrom limit ⟨placed, finish⟩ = ⟨stmts, []⟩ ∧
      stmts.map Stmt.unplaced = ss.map Stmt.unplaced := by
  induction ss generalizing placed limit with
  | nil =>
      cases List.map_eq_nil_iff.1 hplaced
      refine ⟨[], ?_, rfl⟩
      cases limit with
      | zero => rfl
      | succ limit => rfl
  | cons s ss ih =>
      rw [List.flatMap_cons] at hplaced
      obtain ⟨front, rest, rfl, hfront, hrest⟩ := List.map_eq_append_iff.1 hplaced
      have hbehind : Behind s (Input.peek ⟨rest, finish⟩) := by
        rintro e rfl
        cases ss with
        | nil =>
            cases List.map_eq_nil_iff.1 hrest
            rfl
        | cons u ss => exact absurd rfl (hss.closed _ List.mem_cons_self e)
      obtain ⟨stmt, hread, hstmt⟩ := takes_statement (hss.printable s List.mem_cons_self)
        (hss.height s List.mem_cons_self) front rest finish hfront hbehind
      obtain ⟨t, ts, htokens, hsemicolon⟩ := s.exists_tokens_cons
      rw [htokens] at hfront
      obtain ⟨first, front, rfl, hfirst, -⟩ := List.map_eq_cons_iff.1 hfront
      rw [List.length_append, List.length_cons] at hlimit
      obtain ⟨limit, rfl⟩ : ∃ n, limit = n + 1 := Nat.exists_eq_succ_of_ne_zero (by omega)
      have hroom : rest.length ≤ limit := by omega
      obtain ⟨stmts, hmore, hstmts⟩ := ih hss.tail hrest hroom
      refine ⟨stmt :: stmts, ?_, ?_⟩
      · rw [List.cons_append] at hread ⊢
        simp only [parseFrom, hread, hmore, if_neg (hfirst ▸ hsemicolon)]
      · rw [List.map_cons, List.map_cons, hstmt, hstmts]

/-- A list of statements can be written as a text, and each such text, however it is spaced and
commented and whatever it escapes, is cut and read without an error, into the statements that were
printed, up to their places. -/
theorem parse_printed {ss : List Stmt} (hss : Printable ss) :
    Writes (ss.flatMap Stmt.tokens) (spaced (ss.flatMap Stmt.tokens)) ∧
      ∀ source : String, Writes (ss.flatMap Stmt.tokens) source.toList →
        ∃ tokens finish stmts, lex source = .ok (tokens, finish) ∧
          parse tokens finish = .ok stmts ∧ stmts.map Stmt.unplaced = ss.map Stmt.unplaced := by
  refine ⟨writes_spaced _, ?_⟩
  intro source hwrites
  have hwritable : ∀ t ∈ ss.flatMap Stmt.tokens, t.isWritable = true := by
    rw [List.forall_mem_flatMap]
    exact fun s hs => isWritable_tokens (hss.printable s hs)
  obtain ⟨placed, finish, hlex, hplaced⟩ := lex_of_writes hwrites hwritable
  obtain ⟨stmts, hparsed, hstmts⟩ := parseFrom_of_tokens hss hplaced (Nat.le_refl _)
  refine ⟨placed, finish, stmts, hlex, ?_, hstmts⟩
  rw [parse, hparsed]
  rfl

/-- A sum that is multiplied with what a call gives for a text, and the value of it. -/
def productScript : List Stmt :=
  [.declare "a"
      (.binary .mul
        (.binary .add (.literal (.int 1) .first) (.literal (.int 2) .first) .first)
        (.unary .negate (.call ⟨"F", ["g"]⟩ [.literal (.text "\"\n") .first] .first) .first)
        .first) .first,
    .eval (.name ⟨"a", []⟩ .first) true]

/-- The sum stands in parentheses, the text is escaped, and a comment is passed over. -/
theorem parse_printed_product :
    ∃ tokens finish stmts,
      lex "var /* 1; */a = ( 1 + 2 ) * - F . g ( \"\\\"\\n\" ) ; a" = .ok (tokens, finish) ∧
        parse tokens finish = .ok stmts ∧
        stmts.map Stmt.unplaced = productScript.map Stmt.unplaced := by
  have hss : Printable productScript := by
    refine ⟨by decide +kernel, ?_, by decide⟩
    intro s hs e
    cases List.mem_singleton.1 hs
    rintro ⟨⟩
  have hgap : Guard.Gap ('/' :: '*' :: ([' ', '1', ';', ' '] ++ '*' :: '/' :: [])) :=
    .blockComment (by decide) .nil
  have hblank : Text.isBlank ' ' = true := by decide
  have htokens : ∃ t ts, productScript.flatMap Stmt.tokens = .keyword .var :: t :: ts ∧
      "var /* 1; */a = ( 1 + 2 ) * - F . g ( \"\\\"\\n\" ) ; a".toList =
        "var".toList ++ ' ' :: ("/* 1; */".toList ++ spaced (t :: ts)) :=
    ⟨.word "a", _, rfl, by decide +kernel⟩
  obtain ⟨t, ts, hprinted, hsource⟩ := htokens
  apply (parse_printed hss).2
  rw [hprinted, hsource]
  exact .cons (.keyword .var) hblank hgap (writes_spaced (t :: ts))

end ScriptHost.Script
