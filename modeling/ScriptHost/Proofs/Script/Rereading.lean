import ScriptHost.Proofs.Script.Taking

/-!
# Reading printed expressions

A printed expression is read again as it was, whatever is next behind it, as long as that does not
go on with it. On the way down to an operand the room for nesting shrinks by four at most for each
operator or call above it: two for parentheses, one for the operator in them, and one for the operand.

## Implementation notes

The operators of one chain are all read by one call of the loop, while the tree of the chain leans to
the left. An induction over trees does not follow the loop, unless what it proves of a tree also says
what is read behind it: that is the second part of what it takes to be read again.
-/

namespace ScriptHost.Script

/-- What can be next behind an operand of operators that bind as tightly as `floor` or less: neither
does it go on with a name, nor is it an operator that binds more tightly. -/
structure Stops (floor : Nat) (x : Option Token) : Prop where
  dot : x ≠ some (.symbol .dot)
  openParen : x ≠ some (.symbol .openParen)
  operator : ∀ op, x.bind BinaryOp.ofToken? = some op → op.precedence ≤ floor

theorem Stops.mono {floor floor' : Nat} {x : Option Token} (h : Stops floor x)
    (hle : floor ≤ floor') : Stops floor' x :=
  ⟨h.dot, h.openParen, fun op hop => Nat.le_trans (h.operator op hop) hle⟩

/-- Behind whole expressions. -/
theorem stops_none (floor : Nat) : Stops floor none := by
  constructor
  · exact Option.some_ne_none _ ∘ Eq.symm
  · exact Option.some_ne_none _ ∘ Eq.symm
  · rintro op ⟨⟩

theorem stops_symbol (floor : Nat) {s : Symbol} (h : s = .comma ∨ s = .closeParen ∨ s = .semicolon) :
    Stops floor (some (.symbol s)) := by
  rcases h with rfl | rfl | rfl
  all_goals
    refine ⟨by decide, by decide, ?_⟩
    rintro op ⟨⟩

theorem ofToken?_symbol (op : BinaryOp) : BinaryOp.ofToken? (.symbol op.symbol) = some op := by
  cases op with
  | _ => rfl

theorem stops_operator (op : BinaryOp) : Stops op.precedence (some (.symbol op.symbol)) := by
  refine ⟨?_, ?_, ?_⟩
  · cases op with
    | _ => decide
  · cases op with
    | _ => decide
  · intro other hother
    cases (ofToken?_symbol op).symm.trans hother
    exact Nat.le_refl _

theorem BinaryOp.precedence_pos (op : BinaryOp) : 0 < op.precedence := by
  cases op with
  | _ => decide

theorem BinaryOp.precedence_le (op : BinaryOp) : op.precedence ≤ 6 := by
  cases op with
  | _ => decide

theorem Stops.tightest {floor : Nat} {x : Option Token} (h : Stops floor x) : Stops 6 x :=
  ⟨h.dot, h.openParen, fun op _ => op.precedence_le⟩

theorem Expr.precedence_pos (e : Expr) : 0 < e.precedence := by
  cases e with
  | binary op => exact op.precedence_pos
  | _ => exact Nat.succ_pos 6

/-! ## Operators -/

section

variable {operand : Nat → Reader Expr} {floor limit : Nat} {left : Expr} {ts us : List Token}
  {ok fine : Expr → Prop} {next : Option Token → Prop}

/-- The operators end where none follows that binds more tightly. -/
theorem takes_operators_nil (hleft : ok left) :
    Takes (Reader.operators operand floor limit left) [] ok (Stops floor) := by
  cases limit with
  | zero => exact .pure hleft
  | succ limit =>
      apply Takes.peek
      intro x hx
      rw [List.head?_nil, Option.none_or]
      split
      · exact .pure hleft
      · rename_i op hop
        rw [if_pos (hx.operator op hop)]
        exact .pure hleft

/-- One more operator with its right operand. -/
theorem takes_operators_cons {op : BinaryOp} (hfloor : floor < op.precedence)
    (hoperand : Takes (operand op.precedence) ts ok (Stops op.precedence))
    (hnext : ∀ x, next x → Stops op.precedence (us.head?.or x))
    (hmore : ∀ right loc, ok right →
      Takes (Reader.operators operand floor limit (.binary op left right loc)) us fine next) :
    Takes (Reader.operators operand floor (limit + 1) left) (.symbol op.symbol :: (ts ++ us)) fine
      next := by
  apply Takes.peek_cons
  simp only [Option.bind_some, ofToken?_symbol, if_neg (Nat.not_le.2 hfloor)]
  apply Takes.here
  intro loc
  apply Takes.advance_bind
  apply hoperand.bind hnext
  intro right hright
  exact hmore right loc hright

end

/-! ## Operands -/

/-- The room that a reader of operands needs for an expression behind an operator. -/
def Expr.room (floor : Nat) (e : Expr) : Nat :=
  if e.precedence ≤ floor then 4 * e.height + 4 else 4 * e.height + 1

theorem Expr.room_le (floor : Nat) (e : Expr) : e.room floor ≤ 4 * e.height + 4 := by
  rw [room]
  split
  · exact Nat.le_refl _
  · omega

/-- Where an operand with room for it is expected, the expression is read again, and so it is where
operators may follow: then the reader of operators goes on behind it. -/
structure Rereads (e : Expr) : Prop where
  unary : ∀ {room : Nat}, e.room 6 ≤ room →
    Takes (Reader.unary room) (enclosed 6 e.precedence e.tokens) (·.unplaced = e.unplaced) (Stops 6)
  binary : ∀ {room floor q : Nat} {us : List Token} {fine : Expr → Prop}
    {next : Option Token → Prop}, floor ≤ q → q ≤ 6 → e.room q ≤ room →
    (∀ x, next x → Stops (q + 1) (us.head?.or x)) →
    (∀ e' limit, e'.unplaced = e.unplaced → us.length ≤ limit →
      Takes (Reader.operators (Reader.binary room) floor limit e') us fine next) →
    Takes (Reader.binary (room + 1) floor) (enclosed q e.precedence e.tokens ++ us) fine next

section

variable {e : Expr} {room floor q : Nat}

/-- The expression is read to its end. -/
theorem Rereads.whole (h : Rereads e) (hfloor : floor ≤ 6) (hroom : e.room floor ≤ room) :
    Takes (Reader.binary (room + 1) floor) (enclosed floor e.precedence e.tokens)
      (·.unplaced = e.unplaced) (Stops floor) := by
  rw [← List.append_nil (enclosed floor e.precedence e.tokens)]
  apply h.binary (Nat.le_refl floor) hfloor hroom
  · exact fun x hx => hx.mono (Nat.le_succ floor)
  · exact fun e' limit he' _ => takes_operators_nil he'

/-- An expression is printed without parentheses where anything may stand. -/
theorem enclosed_zero (e : Expr) : enclosed 0 e.precedence e.tokens = e.tokens :=
  if_neg (Nat.not_le.2 e.precedence_pos)

theorem Rereads.tokens (h : Rereads e) (hroom : 4 * e.height + 1 ≤ room) :
    Takes (Reader.binary (room + 1) 0) e.tokens (·.unplaced = e.unplaced) (Stops 0) := by
  have hneed : e.room 0 ≤ room := by
    rwa [Expr.room, if_neg (Nat.not_le.2 e.precedence_pos)]
  have hread := h.whole (Nat.zero_le 6) hneed
  rwa [enclosed_zero] at hread

/-- Behind what is one operand for all operators, the operators are read. -/
theorem takes_binary_of_unary (hsame : e.precedence ≤ q ↔ e.precedence ≤ 6)
    (hunary : ∀ {room : Nat}, e.room 6 ≤ room → Takes (Reader.unary room)
      (enclosed 6 e.precedence e.tokens) (·.unplaced = e.unplaced) (Stops 6))
    {us : List Token} {fine : Expr → Prop} {next : Option Token → Prop}
    (hroom : e.room q ≤ room) (hnext : ∀ x, next x → Stops (q + 1) (us.head?.or x))
    (hmore : ∀ e' limit, e'.unplaced = e.unplaced → us.length ≤ limit →
      Takes (Reader.operators (Reader.binary room) floor limit e') us fine next) :
    Takes (Reader.binary (room + 1) floor) (enclosed q e.precedence e.tokens ++ us) fine next := by
  have htokens : enclosed q e.precedence e.tokens = enclosed 6 e.precedence e.tokens := by
    simp only [enclosed, hsame]
  have hneed : e.room 6 ≤ room := by
    rw [Expr.room] at hroom ⊢
    simpa only [hsame] using hroom
  rw [htokens]
  apply (hunary hneed).bind
  · intro x hx
    exact (hnext x hx).tightest
  · intro e' he'
    apply Takes.remaining
    intro limit hlimit
    exact hmore e' limit he' hlimit

/-- An expression without a binary operator on top is one operand. -/
theorem Rereads.of_unary (hprecedence : e.precedence = 7)
    (hunary : ∀ {room : Nat}, 4 * e.height ≤ room →
      Takes (Reader.unary (room + 1)) e.tokens (·.unplaced = e.unplaced) (Stops 6)) :
    Rereads e := by
  have hbare : ∀ {q : Nat}, q ≤ 6 → ¬e.precedence ≤ q := by
    intro q hq
    omega
  have hread : ∀ {room : Nat}, e.room 6 ≤ room → Takes (Reader.unary room)
      (enclosed 6 e.precedence e.tokens) (·.unplaced = e.unplaced) (Stops 6) := by
    intro room hroom
    rw [Expr.room, if_neg (hbare (Nat.le_refl 6))] at hroom
    rw [enclosed, if_neg (hbare (Nat.le_refl 6))]
    obtain ⟨room, rfl⟩ : ∃ n, room = n + 1 := Nat.exists_eq_succ_of_ne_zero (by omega)
    exact hunary (Nat.le_of_succ_le_succ hroom)
  refine ⟨hread, ?_⟩
  intro room floor q us fine next _ hq hroom hnext hmore
  apply takes_binary_of_unary _ hread hroom hnext hmore
  exact iff_of_false (hbare hq) (hbare (Nat.le_refl 6))

end

/-! ## Literals, names and parentheses -/

/-- What reads the expression in parentheses. -/
def enclosedReader : Nat → Reader Expr
  | 0 => Reader.fail .tooDeep
  | room + 1 => Reader.binary room 0

/-- What reads an operand without an operator in front. -/
def primaryReader (room : Nat) : Reader Expr :=
  Reader.primary (Reader.binary room 0) (enclosedReader room)

section

variable {ok : Expr → Prop} {next : Option Token → Prop} {t : Token} {ts : List Token} {room : Nat}

/-- Without an operator in front, an operand is primary. -/
theorem takes_unary_of_primary (hminus : t ≠ .symbol .minus) (hbang : t ≠ .symbol .bang)
    (hawait : t ≠ .keyword .await) (h : Takes (primaryReader room) (t :: ts) ok next) :
    Takes (Reader.unary (room + 1)) (t :: ts) ok next := by
  rw [Reader.unary.eq_def]
  apply Takes.here
  intro loc
  apply Takes.peek_cons
  split
  · rename_i heq
    exact absurd (Option.some.inj heq) hminus
  · rename_i heq
    exact absurd (Option.some.inj heq) hbang
  · rename_i heq
    exact absurd (Option.some.inj heq) hawait
  · exact h

theorem ofToken?_token (value : Value) : Value.ofToken? (Value.token value) = some value := by
  cases value with
  | bool b =>
      cases b with
      | _ => rfl
  | _ => rfl

theorem rereads_literal (value : Value) (loc : Location) : Rereads (.literal value loc) := by
  apply Rereads.of_unary rfl
  intro room _
  have hread : Takes (primaryReader room) [Value.token value]
      (·.unplaced = .literal value .first) (Stops 6) := by
    apply Takes.here
    intro loc
    apply Takes.peek_cons
    rw [Option.bind_some, ofToken?_token]
    exact Takes.advance_bind (.pure rfl)
  apply takes_unary_of_primary _ _ _ hread
  all_goals
    cases value with
    | bool b => cases b <;> decide
    | _ =>
        intro h
        cases h

theorem rereads_name (path : Path) (loc : Location) : Rereads (.name path loc) := by
  apply Rereads.of_unary rfl
  intro room _
  apply takes_unary_of_primary (by rintro ⟨⟩) (by rintro ⟨⟩) (by rintro ⟨⟩)
  apply Takes.here
  intro loc
  apply Takes.peek_cons
  apply (Takes.path path).bind_nil fun _ hx => hx.dot
  rintro _ rfl
  apply (Takes.accept_none .openParen).bind_nil fun _ hx => hx.openParen
  rintro _ rfl
  exact .pure rfl

theorem rereads_unary (op : UnaryOp) {operand : Expr} (loc : Location) (h : Rereads operand) :
    Rereads (.unary op operand loc) := by
  apply Rereads.of_unary rfl
  intro room hroom
  have hneed : operand.room 6 ≤ room := by
    have := operand.room_le 6
    simp only [Expr.height] at hroom
    omega
  rw [Reader.unary.eq_def]
  apply Takes.here
  intro loc
  apply Takes.peek_cons
  cases op with
  | negate | not =>
      apply Takes.advance_bind
      apply (h.unary hneed).bind_nil fun _ hx => hx
      intro e' he'
      apply Takes.pure
      simp only [Expr.unplaced, he']

theorem rereads_await {task : Expr} (loc : Location) (h : Rereads task) :
    Rereads (.await task loc) := by
  apply Rereads.of_unary rfl
  intro room hroom
  have hneed : task.room 6 ≤ room := by
    have := task.room_le 6
    simp only [Expr.height] at hroom
    omega
  rw [Reader.unary.eq_def]
  apply Takes.here
  intro loc
  apply Takes.peek_cons
  apply Takes.advance_bind
  apply (h.unary hneed).bind_nil fun _ hx => hx
  intro e' he'
  apply Takes.pure
  simp only [Expr.unplaced, he']

/-- An expression in parentheses is an operand. -/
theorem takes_unary_enclosed (h : Takes (Reader.binary room 0) ts ok (Stops 0)) :
    Takes (Reader.unary (room + 2)) (.symbol .openParen :: (ts ++ [.symbol .closeParen])) ok
      next := by
  apply takes_unary_of_primary (by decide) (by decide) (by decide)
  apply Takes.here
  intro loc
  apply Takes.peek_cons
  apply Takes.advance_bind
  apply h.bind_cons (stops_symbol 0 (Or.inr (Or.inl rfl)))
  intro e he
  exact Takes.expect_bind _ (.pure he)

/-- An operator without parentheses: its left operand is read first, and then the operator goes on
behind it. -/
theorem takes_binary_of_operator {op : BinaryOp} {left right : Expr} {loc : Location}
    (hleft : Rereads left) (hright : Rereads right) {floor q : Nat} {us : List Token}
    (hfloor : floor ≤ q) (hq : q < op.precedence)
    (hroom : 4 * (Expr.binary op left right loc).height ≤ room)
    (hnext : ∀ x, next x → Stops (q + 1) (us.head?.or x))
    (hmore : ∀ e' limit, e'.unplaced = (Expr.binary op left right loc).unplaced →
      us.length ≤ limit →
      Takes (Reader.operators (Reader.binary (room + 1)) floor limit e') us ok next) :
    Takes (Reader.binary (room + 2) floor) ((Expr.binary op left right loc).tokens ++ us) ok
      next := by
  have hpositive := op.precedence_pos
  have htight := op.precedence_le
  have hl := left.room_le (op.precedence - 1)
  have hr := right.room_le op.precedence
  simp only [Expr.height] at hroom
  rw [Expr.tokens, List.append_assoc, List.cons_append]
  -- The call that reads the left operand goes on with the operator, and has enough turns left.
  apply hleft.binary (q := op.precedence - 1)
  · omega
  · omega
  · omega
  · intro x _
    rw [Nat.sub_add_cancel hpositive]
    exact stops_operator op
  · intro left' limit hleft' hlimit
    rw [List.length_cons, List.length_append] at hlimit
    obtain ⟨limit, rfl⟩ : ∃ n, limit = n + 1 := Nat.exists_eq_succ_of_ne_zero (by omega)
    apply takes_operators_cons (Nat.lt_of_le_of_lt hfloor hq)
    · exact hright.whole htight (by omega)
    · exact fun x hx => (hnext x hx).mono hq
    · intro right' loc' hright'
      apply hmore
      · simp only [Expr.unplaced, hleft', hright']
      · omega

theorem rereads_binary (op : BinaryOp) {left right : Expr} (loc : Location) (hleft : Rereads left)
    (hright : Rereads right) : Rereads (.binary op left right loc) := by
  have hprecedence : (Expr.binary op left right loc).precedence = op.precedence := rfl
  have hunary : ∀ {room : Nat}, (Expr.binary op left right loc).room 6 ≤ room →
      Takes (Reader.unary room)
        (enclosed 6 op.precedence (Expr.binary op left right loc).tokens)
        (·.unplaced = (Expr.binary op left right loc).unplaced) (Stops 6) := by
    intro room hroom
    rw [Expr.room, hprecedence, if_pos op.precedence_le] at hroom
    obtain ⟨room, rfl⟩ : ∃ n, room = n + 4 := Nat.exists_eq_add_of_le' (by omega)
    rw [enclosed, if_pos op.precedence_le]
    apply takes_unary_enclosed
    have hneed : 4 * (Expr.binary op left right loc).height ≤ room := by omega
    rw [← List.append_nil (Expr.tokens _)]
    apply takes_binary_of_operator hleft hright (Nat.le_refl 0) op.precedence_pos hneed
    · exact fun x hx => hx.mono (Nat.zero_le 1)
    · exact fun e' limit he' _ => takes_operators_nil he'
  refine ⟨hunary, ?_⟩
  intro room floor q us fine next hfloor hq hroom hnext hmore
  by_cases hp : op.precedence ≤ q
  · apply takes_binary_of_unary _ hunary hroom hnext hmore
    exact iff_of_true hp op.precedence_le
  · rw [Expr.room, hprecedence, if_neg hp] at hroom
    rw [hprecedence, enclosed, if_neg hp]
    obtain ⟨room, rfl⟩ : ∃ n, room = n + 1 := Nat.exists_eq_succ_of_ne_zero (by omega)
    apply takes_binary_of_operator hleft hright hfloor (Nat.lt_of_not_le hp) _ hnext hmore
    omega

end

/-! ## Calls -/

theorem height_lt_heightAbove {es : List Expr} {e : Expr} (h : e ∈ es) :
    e.height < heightAbove es := by
  induction es with
  | nil => cases h
  | cons d es ih =>
      rw [heightAbove]
      rcases List.mem_cons.1 h with rfl | h
      · exact Nat.lt_of_succ_le (Nat.le_max_left _ _)
      · exact Nat.lt_of_lt_of_le (ih h) (Nat.le_max_right _ _)

/-- The tokens that an expression can start with. -/
def Token.isStart : Token → Bool
  | .word _ | .int _ | .text _ => true
  | .keyword k => k == .truth || k == .falsity || k == .nothing || k == .await
  | .symbol s => s == .openParen || s == .minus || s == .bang

theorem head?_enclosed {floor precedence : Nat} {ts : List Token}
    (h : ∃ t ∈ ts.head?, t.isStart = true) :
    ∃ t ∈ (enclosed floor precedence ts).head?, t.isStart = true := by
  rw [enclosed]
  split
  · exact ⟨.symbol .openParen, rfl, rfl⟩
  · exact h

theorem head?_append {ts : List Token} (us : List Token) (h : ∃ t ∈ ts.head?, t.isStart = true) :
    ∃ t ∈ (ts ++ us).head?, t.isStart = true := by
  obtain ⟨t, ht, hstart⟩ := h
  refine ⟨t, ?_, hstart⟩
  rw [List.head?_append, Option.mem_def.1 ht]
  rfl

theorem Expr.head?_tokens : ∀ e : Expr, ∃ t ∈ e.tokens.head?, t.isStart = true
  | .literal value _ => by
      refine ⟨Value.token value, rfl, ?_⟩
      cases value with
      | bool b => cases b <;> rfl
      | _ => rfl
  | .name path _ | .call path _ _ => ⟨.word path.head, rfl, rfl⟩
  | .unary op _ _ => by
      refine ⟨.symbol op.symbol, rfl, ?_⟩
      cases op with
      | _ => rfl
  | .binary _ left _ _ => by
      rw [Expr.tokens]
      exact head?_append _ (head?_enclosed left.head?_tokens)
  | .await _ _ => ⟨.keyword .await, rfl, rfl⟩

section

variable {argument : Reader Expr} {args : List Expr}

/-- Behind an argument there is a comma, or the closing parenthesis. -/
theorem stops_argument {x : Option Token} (hx : x = some (.symbol .closeParen)) :
    Stops 0 (((tokensOfAll args).flatMap fun ts => .symbol .comma :: ts).head?.or x) := by
  subst hx
  cases args with
  | nil => exact stops_symbol 0 (Or.inr (Or.inl rfl))
  | cons e args => exact stops_symbol 0 (Or.inl rfl)

/-- Each argument behind the first has a comma. -/
theorem length_le_commas (args : List Expr) :
    args.length ≤ ((tokensOfAll args).flatMap fun ts => .symbol .comma :: ts).length := by
  induction args with
  | nil => exact Nat.le_refl 0
  | cons e args ih =>
      rw [tokensOfAll, List.flatMap_cons, List.length_append, List.length_cons, List.length_cons]
      omega

theorem takes_moreArguments {limit : Nat} (hargs : ∀ e ∈ args, Takes argument e.tokens
      (·.unplaced = e.unplaced) (Stops 0)) (hlimit : args.length ≤ limit) :
    Takes (Reader.moreArguments argument limit)
      ((tokensOfAll args).flatMap fun ts => .symbol .comma :: ts)
      (fun es => unplacedAll es = unplacedAll args) (· = some (.symbol .closeParen)) := by
  induction args generalizing limit with
  | nil =>
      cases limit with
      | zero => exact .pure rfl
      | succ limit =>
          apply (Takes.accept_none .comma).bind_nil
          · rintro _ rfl
            decide
          · rintro _ rfl
            exact .pure rfl
  | cons e args ih =>
      rw [List.length_cons] at hlimit
      obtain ⟨limit, rfl⟩ : ∃ n, limit = n + 1 := Nat.exists_eq_succ_of_ne_zero (by omega)
      rw [tokensOfAll, List.flatMap_cons, List.cons_append]
      apply (Takes.accept .comma fun _ => True).bind (fun _ _ => trivial)
      rintro _ rfl
      apply (hargs e List.mem_cons_self).bind fun _ hx => stops_argument hx
      intro first hfirst
      apply (ih (fun d hd => hargs d (List.mem_cons_of_mem e hd))
        (Nat.le_of_succ_le_succ hlimit)).bind_nil fun _ hx => hx
      intro others hothers
      apply Takes.pure
      rw [unplacedAll, unplacedAll, hfirst, hothers]

theorem takes_arguments (hargs : ∀ e ∈ args, Takes argument e.tokens
      (·.unplaced = e.unplaced) (Stops 0)) :
    Takes (Reader.arguments argument) (separated (tokensOfAll args))
      (fun es => unplacedAll es = unplacedAll args) (· = some (.symbol .closeParen)) := by
  apply Takes.peek
  rintro _ rfl
  cases args with
  | nil =>
      show Takes (if some (Token.symbol .closeParen) = some (.symbol .closeParen) then _ else _)
        _ _ _
      rw [if_pos rfl]
      exact .pure rfl
  | cons e args =>
      rw [tokensOfAll, separated, if_neg]
      · apply (hargs e List.mem_cons_self).bind fun _ hx => stops_argument hx
        intro first hfirst
        apply Takes.remaining
        intro limit hlimit
        apply (takes_moreArguments (fun d hd => hargs d (List.mem_cons_of_mem e hd))
          (Nat.le_trans (length_le_commas args) hlimit)).bind_nil fun _ hx => hx
        intro others hothers
        apply Takes.pure
        rw [unplacedAll, unplacedAll, hfirst, hothers]
      · obtain ⟨t, ht, hstart⟩ := head?_append _ e.head?_tokens
        rw [Option.mem_def.1 ht]
        rintro ⟨⟩
        cases hstart

end

theorem rereads_call (target : Path) {args : List Expr} (loc : Location)
    (hargs : ∀ e ∈ args, Rereads e) : Rereads (.call target args loc) := by
  apply Rereads.of_unary rfl
  intro room hroom
  have hread : ∀ e ∈ args, Takes (Reader.binary room 0) e.tokens (·.unplaced = e.unplaced)
      (Stops 0) := by
    intro e he
    have hheight := height_lt_heightAbove he
    simp only [Expr.height] at hroom
    obtain ⟨room, rfl⟩ : ∃ n, room = n + 1 := Nat.exists_eq_succ_of_ne_zero (by omega)
    exact (hargs e he).tokens (by omega)
  apply takes_unary_of_primary (by rintro ⟨⟩) (by rintro ⟨⟩) (by rintro ⟨⟩)
  apply Takes.here
  intro loc
  apply Takes.peek_cons
  apply (Takes.path target).bind_cons (by decide)
  rintro _ rfl
  apply (Takes.accept .openParen fun _ => True).bind (fun _ _ => trivial)
  rintro _ rfl
  apply (takes_arguments hread).bind_cons rfl
  intro args' hargs'
  apply Takes.expect_bind
  apply Takes.pure
  simp only [Expr.unplaced, hargs']

mutual

/-- Every printed expression is read again. -/
theorem rereads : ∀ e : Expr, Rereads e
  | .literal value loc => rereads_literal value loc
  | .name path loc => rereads_name path loc
  | .unary op operand loc => rereads_unary op loc (rereads operand)
  | .binary op left right loc => rereads_binary op loc (rereads left) (rereads right)
  | .call target args loc => rereads_call target loc (rereads_of_mem args)
  | .await task loc => rereads_await loc (rereads task)

theorem rereads_of_mem : ∀ es : List Expr, ∀ e ∈ es, Rereads e
  | [], e, he => nomatch he
  | d :: es, e, he => by
      rcases List.mem_cons.1 he with heq | he
      · exact heq ▸ rereads d
      · exact rereads_of_mem es e he

end

end ScriptHost.Script
