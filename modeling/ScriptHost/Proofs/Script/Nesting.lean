import ScriptHost.Proofs.Script.Printing
import ScriptHost.Proofs.Script.Readers

/-!
# The nesting of expressions

How deep the expressions are that are read. The readers count their own descent, and the trees
that they give do not go deeper than they did, but for one thing: operators in a row are read one
after the other on one level, and each of them stands above the operation on its left. A way down
a tree is as long as the limit allows, apart from its steps from an operation to an operation on
its left, of which there may be any number.
-/

namespace ScriptHost.Script

def Expr.isOperation : Expr → Bool
  | .binary _ _ _ _ => true
  | _ => false

mutual

/-- The number of operators and calls on the longest way down to an operand, where the step from
an operation to an operation on its left is not counted. -/
def Expr.nesting : Expr → Nat
  | .literal _ _ | .name _ _ => 0
  | .unary _ operand _ => operand.nesting + 1
  | .binary _ left right _ =>
    max (if left.isOperation then left.nesting else left.nesting + 1) (right.nesting + 1)
  | .call _ args _ => nestingAbove args
  | .await task _ => task.nesting + 1

/-- The nesting of a call of which these are the arguments. -/
def nestingAbove : List Expr → Nat
  | [] => 0
  | expr :: exprs => max (expr.nesting + 1) (nestingAbove exprs)

end

mutual

/-- The greatest number of steps from an operation to an operation on its left on a way down. -/
def Expr.leftSteps : Expr → Nat
  | .literal _ _ | .name _ _ => 0
  | .unary _ operand _ => operand.leftSteps
  | .binary _ left right _ =>
    max (if left.isOperation then left.leftSteps + 1 else left.leftSteps) right.leftSteps
  | .call _ args _ => leftStepsBelow args
  | .await task _ => task.leftSteps

def leftStepsBelow : List Expr → Nat
  | [] => 0
  | expr :: exprs => max expr.leftSteps (leftStepsBelow exprs)

end

mutual

/-- A way down consists of the steps that are counted and of those to the left. -/
theorem Expr.height_le : ∀ e : Expr, e.height ≤ e.nesting + e.leftSteps
  | .literal _ _ | .name _ _ => Nat.zero_le _
  | .unary _ operand _ => by
      have hoperand := operand.height_le
      rw [Expr.height, Expr.nesting, Expr.leftSteps]
      omega
  | .binary _ left right _ => by
      have hleft := left.height_le
      have hright := right.height_le
      rw [Expr.height, Expr.nesting, Expr.leftSteps]
      split <;> omega
  | .call _ args _ => heightAbove_le args
  | .await task _ => by
      have htask := task.height_le
      rw [Expr.height, Expr.nesting, Expr.leftSteps]
      omega

theorem heightAbove_le : ∀ es : List Expr, heightAbove es ≤ nestingAbove es + leftStepsBelow es
  | [] => Nat.zero_le _
  | e :: es => by
      have hfirst := e.height_le
      have hothers := heightAbove_le es
      rw [heightAbove, nestingAbove, leftStepsBelow]
      omega

end

/-- Each expression that the reader gives is nested less deeply than the bound. -/
def Bounded (p : Reader Expr) (bound : Nat) : Prop :=
  ∀ {i e j}, p i = .ok e j → e.nesting < bound

namespace Reader

variable {i j : Input} {e : Expr} {p argument inner : Reader Expr} {bound : Nat}

theorem bounded_fail (error : SyntaxError) (bound : Nat) : Bounded (fail error) bound := by
  intro i e j h
  exact (fail_eq_ok_iff.1 h).elim

theorem nestingAbove_moreArguments (hargument : Bounded argument bound) {limit : Nat}
    {args : List Expr} (h : moreArguments argument limit i = .ok args j) :
    nestingAbove args ≤ bound := by
  induction limit generalizing i args with
  | zero =>
      cases h
      exact Nat.zero_le _
  | succ limit ih =>
      simp only [moreArguments, Computation.bind_eq_ok_iff] at h
      obtain ⟨taken, behind, -, h⟩ := h
      cases taken with
      | false =>
          cases h
          exact Nat.zero_le _
      | true =>
          simp only [if_true, Computation.bind_eq_ok_iff, Computation.pure_eq_ok_iff] at h
          obtain ⟨first, next, hfirst, others, _, hothers, rfl, rfl⟩ := h
          exact max_le (hargument hfirst) (ih hothers)

theorem nestingAbove_arguments (hargument : Bounded argument bound) {args : List Expr}
    (h : arguments argument i = .ok args j) : nestingAbove args ≤ bound := by
  simp only [arguments, Computation.bind_eq_ok_iff] at h
  obtain ⟨next, _, -, h⟩ := h
  split at h
  · cases h
    exact Nat.zero_le _
  · simp only [Computation.bind_eq_ok_iff, Computation.pure_eq_ok_iff] at h
    obtain ⟨first, behind, hfirst, n, _, -, others, _, hothers, rfl, rfl⟩ := h
    exact max_le (hargument hfirst) (nestingAbove_moreArguments hargument hothers)

/-- A call is nested one deeper than its arguments, and parentheses are not nested at all. -/
theorem bounded_primary (hargument : Bounded argument bound) (hinner : Bounded inner (bound + 1)) :
    Bounded (primary argument inner) (bound + 1) := by
  intro i e j h
  simp only [primary, Computation.bind_eq_ok_iff, here_eq_ok_iff, peek_eq_ok_iff] at h
  obtain ⟨loc, _, -, next, _, -, h⟩ := h
  cases hvalue : next.bind Value.ofToken? with
  | some value =>
      rw [hvalue] at h
      simp only [Computation.bind_eq_ok_iff, Computation.pure_eq_ok_iff] at h
      obtain ⟨_, _, -, rfl, -⟩ := h
      exact Nat.succ_pos bound
  | none =>
      rw [hvalue] at h
      dsimp only at h
      split at h
      · simp only [Computation.bind_eq_ok_iff, Computation.pure_eq_ok_iff] at h
        obtain ⟨_, _, -, inside, _, hinside, _, _, -, rfl, -⟩ := h
        exact hinner hinside
      · simp only [Computation.bind_eq_ok_iff] at h
        obtain ⟨target, _, -, taken, _, -, h⟩ := h
        cases taken with
        | false =>
            cases h
            exact Nat.succ_pos bound
        | true =>
            simp only [if_true, Computation.bind_eq_ok_iff, Computation.pure_eq_ok_iff] at h
            obtain ⟨args, _, hargs, _, _, -, rfl, -⟩ := h
            exact Nat.lt_succ_of_le (nestingAbove_arguments hargument hargs)
      · exact (fail_eq_ok_iff.1 h).elim

/-- A unary operator is nested one deeper than its operand. -/
theorem bounded_behind (hoperand : Bounded p bound) {make : Expr → Expr}
    (hmake : ∀ e, (make e).nesting = e.nesting + 1) :
    Bounded (do advance; return make (← p)) (bound + 1) := by
  intro i e j h
  simp only [Computation.bind_eq_ok_iff, Computation.pure_eq_ok_iff] at h
  obtain ⟨_, _, -, operand, _, hread, rfl, -⟩ := h
  rw [hmake operand]
  exact Nat.succ_lt_succ (hoperand hread)

/-- What the operators that follow make of an operand. By induction on the number of tokens: the
operation made with each operator is the left operand of the next one, one step to the left. -/
theorem bounded_operators (hoperand : ∀ floor, Bounded (binary bound floor) bound) {floor limit : Nat}
    {left : Expr} (hleft : left.nesting < bound ∨ left.isOperation = true ∧ left.nesting < bound + 1)
    (h : operators (binary bound) floor limit left i = .ok e j) : e.nesting < bound + 1 := by
  induction limit generalizing i left with
  | zero =>
      cases h
      omega
  | succ limit ih =>
      simp only [operators, Computation.bind_eq_ok_iff, peek_eq_ok_iff] at h
      obtain ⟨next, _, -, h⟩ := h
      cases hop : next.bind BinaryOp.ofToken? with
      | none =>
          rw [hop] at h
          cases h
          omega
      | some op =>
          rw [hop] at h
          dsimp only at h
          split at h
          · cases h
            omega
          · simp only [Computation.bind_eq_ok_iff] at h
            obtain ⟨loc, _, -, _, _, -, right, _, hright, h⟩ := h
            have hsmall := hoperand op.precedence hright
            refine ih (.inr ⟨rfl, ?_⟩) h
            rw [Expr.nesting]
            rcases hleft with hleft | ⟨hoperation, hleft⟩
            · split <;> omega
            · rw [if_pos hoperation]
              omega

/-- The room that is left bounds the nesting of what is read. By induction on the room: an operand
has one less than the operation, and an expression in parentheses two less. -/
theorem bounded_binary_unary (room : Nat) :
    (∀ floor, Bounded (binary room floor) room) ∧ Bounded (unary room) room := by
  induction room using Nat.strong_induction_on with
  | _ room ih =>
    cases room with
    | zero =>
        constructor
        · intro floor
          rw [binary]
          exact bounded_fail _ _
        · rw [unary]
          exact bounded_fail _ _
    | succ room =>
        obtain ⟨hbinary, hunary⟩ := ih room (Nat.lt_succ_self room)
        constructor
        · intro floor i e j h
          simp only [binary, Computation.bind_eq_ok_iff] at h
          obtain ⟨left, _, hleft, limit, _, -, h⟩ := h
          exact bounded_operators hbinary (.inl (hunary hleft)) h
        · intro i e j h
          rw [unary.eq_def] at h
          simp only [Computation.bind_eq_ok_iff] at h
          obtain ⟨loc, _, -, next, _, -, h⟩ := h
          split at h
          · exact bounded_behind hunary (fun _ => rfl) h
          · exact bounded_behind hunary (fun _ => rfl) h
          · exact bounded_behind hunary (fun _ => rfl) h
          · refine bounded_primary (hbinary 0) ?_ h
            cases room with
            | zero => exact bounded_fail _ _
            | succ less =>
                intro i e j h
                have hinside := (ih less (by omega)).1 0 h
                omega

theorem bounded_expression : Bounded expression maxNesting :=
  (bounded_binary_unary maxNesting).1 0

/-! ## Statements -/

theorem expr_of_evaluation {s : Stmt} (h : evaluation i = .ok s j) :
    ∃ e trailing, s = .eval e trailing ∧ ∃ k l, expression k = .ok e l := by
  simp only [evaluation, Computation.bind_eq_ok_iff] at h
  obtain ⟨e, behind, hread, taken, _, -, h⟩ := h
  cases taken with
  | true =>
      cases h
      exact ⟨e, false, rfl, i, behind, hread⟩
  | false =>
      simp only [Bool.false_eq_true, if_false, Computation.bind_eq_ok_iff] at h
      obtain ⟨next, _, -, h⟩ := h
      split at h
      · cases h
        exact ⟨e, true, rfl, i, behind, hread⟩
      · exact (fail_eq_ok_iff.1 h).elim

/-- The expressions of a statement are read as expressions. -/
theorem exprs_of_statement {s : Stmt} (h : statement i = .ok s j) :
    ∀ e ∈ s.exprs, ∃ k l, expression k = .ok e l := by
  have heval (h : evaluation i = .ok s j) : ∀ e ∈ s.exprs, ∃ k l, expression k = .ok e l := by
    obtain ⟨e, trailing, rfl, hread⟩ := expr_of_evaluation h
    exact List.forall_mem_singleton.2 hread
  simp only [statement, Computation.bind_eq_ok_iff, here_eq_ok_iff, peek_eq_ok_iff] at h
  obtain ⟨loc, _, ⟨rfl, rfl⟩, next, _, ⟨-, rfl⟩, h⟩ := h
  split at h
  · simp only [Computation.bind_eq_ok_iff, Computation.pure_eq_ok_iff] at h
    obtain ⟨_, _, -, names, _, -, _, _, -, rfl, -⟩ := h
    exact List.forall_mem_nil _
  · simp only [Computation.bind_eq_ok_iff, Computation.pure_eq_ok_iff] at h
    obtain ⟨_, _, -, name, _, -, _, assigned, -, init, behind, hinit, _, _, -, rfl, -⟩ := h
    exact List.forall_mem_singleton.2 ⟨assigned, behind, hinit⟩
  · simp only [Computation.bind_eq_ok_iff, peek_eq_ok_iff] at h
    obtain ⟨_, _, -, _, _, -, exception, _, -, _, opened, -, _, _, -, h⟩ := h
    split at h
    · simp only [Computation.bind_eq_ok_iff, Computation.pure_eq_ok_iff] at h
      obtain ⟨_, _, ⟨rfl, -⟩, _, _, -, _, _, -, rfl, -⟩ := h
      exact List.forall_mem_nil _
    · simp only [Computation.bind_eq_ok_iff, Computation.map_eq_ok_iff,
        Computation.pure_eq_ok_iff] at h
      obtain ⟨_, closed, ⟨message, hmessage, rfl⟩, _, _, -, _, _, -, rfl, -⟩ := h
      exact List.forall_mem_singleton.2 ⟨_, closed, hmessage⟩
  · simp only [Computation.bind_eq_ok_iff, Computation.get_eq_ok_iff] at h
    obtain ⟨_, _, ⟨rfl, rfl⟩, h⟩ := h
    cases hop : assignOp? i with
    | none =>
        rw [hop] at h
        exact heval h
    | some op =>
        rw [hop] at h
        simp only [Computation.bind_eq_ok_iff, Computation.pure_eq_ok_iff] at h
        obtain ⟨_, _, -, _, assigned, -, value, behind, hvalue, _, _, -, rfl, -⟩ := h
        exact List.forall_mem_singleton.2 ⟨assigned, behind, hvalue⟩
  · exact heval h

end Reader

theorem statement_of_parseFrom {limit : Nat} {i : Input} :
    ∀ s ∈ (parseFrom limit i).statements, ∃ k l, Reader.statement k = .ok s l := by
  fun_induction parseFrom limit i with
  | case1 | case2 => exact List.forall_mem_nil _
  | case3 limit i t ts htokens hsemicolon ih => exact ih
  | case4 limit i t ts htokens hsemicolon stmt rest hstmt tail ih =>
      exact List.forall_mem_cons.2 ⟨⟨i, rest, hstmt⟩, ih⟩
  | case5 limit i t ts htokens hsemicolon error rest herror tail ih => exact ih

/-- The expressions that are read are nested less deeply than the limit, where the step from an
operation to an operation on its left is not counted, and they are higher by at most the number
of such steps. -/
theorem nesting_of_parse {tokens : List (Placed Token)} {finish : Location} {stmts : List Stmt}
    (h : parse tokens finish = .ok stmts) :
    ∀ s ∈ stmts, ∀ e ∈ s.exprs,
      e.nesting < Reader.maxNesting ∧ e.height < Reader.maxNesting + e.leftSteps := by
  intro s hs e he
  have hread : ∃ k l, Reader.statement k = .ok s l := by
    rw [parse] at h
    split at h
    · cases h
      exact statement_of_parseFrom s hs
    · cases h
  obtain ⟨i, j, hstatement⟩ := hread
  obtain ⟨k, l, hexpression⟩ := Reader.exprs_of_statement hstatement e he
  have hnesting := Reader.bounded_expression hexpression
  exact ⟨hnesting, Nat.lt_of_le_of_lt e.height_le (Nat.add_lt_add_right hnesting _)⟩

/-- The expression `1+2-3*4`. -/
def sampleSum : Expr :=
  .binary .sub
    (.binary .add (.literal (.int 1) ⟨1, 1⟩) (.literal (.int 2) ⟨1, 3⟩) ⟨1, 2⟩)
    (.binary .mul (.literal (.int 3) ⟨1, 5⟩) (.literal (.int 4) ⟨1, 7⟩) ⟨1, 6⟩) ⟨1, 4⟩

theorem nesting_of_parse_sum :
    parse [⟨.int 1, ⟨1, 1⟩⟩, ⟨.symbol .plus, ⟨1, 2⟩⟩, ⟨.int 2, ⟨1, 3⟩⟩, ⟨.symbol .minus, ⟨1, 4⟩⟩,
          ⟨.int 3, ⟨1, 5⟩⟩, ⟨.symbol .star, ⟨1, 6⟩⟩, ⟨.int 4, ⟨1, 7⟩⟩] ⟨1, 8⟩ =
        .ok [.eval sampleSum true] ∧
      sampleSum.nesting < Reader.maxNesting ∧
        sampleSum.height < Reader.maxNesting + sampleSum.leftSteps := by
  have hparse : parse [⟨.int 1, ⟨1, 1⟩⟩, ⟨.symbol .plus, ⟨1, 2⟩⟩, ⟨.int 2, ⟨1, 3⟩⟩,
      ⟨.symbol .minus, ⟨1, 4⟩⟩, ⟨.int 3, ⟨1, 5⟩⟩, ⟨.symbol .star, ⟨1, 6⟩⟩, ⟨.int 4, ⟨1, 7⟩⟩]
      ⟨1, 8⟩ = .ok [.eval sampleSum true] := rfl
  exact ⟨hparse, nesting_of_parse hparse _ (.head _) _ (.head _)⟩

/-! ## Long sums -/

/-- As many tokens as it takes to add so many ones. -/
def addedOnes : Nat → List (Placed Token)
  | 0 => []
  | n + 1 => ⟨.symbol .plus, .first⟩ :: ⟨.int 1, .first⟩ :: addedOnes n

/-- An operand with so many ones added to it. -/
def Expr.addOnes (left : Expr) : Nat → Expr
  | 0 => left
  | n + 1 => (Expr.binary .add left (.literal (.int 1) .first) .first).addOnes n

theorem Expr.height_addOnes (left : Expr) (n : Nat) : (left.addOnes n).height = left.height + n := by
  induction n generalizing left with
  | zero => rfl
  | succ n ih =>
      rw [addOnes, ih, Expr.height, Expr.height]
      omega

theorem Reader.binary_one (n : Nat) (finish : Location) :
    binary 255 5 ⟨⟨.int 1, .first⟩ :: addedOnes n, finish⟩ =
      .ok (.literal (.int 1) .first) ⟨addedOnes n, finish⟩ := by
  cases n <;> rfl

/-- The operators of a sum are read on one level, whatever their number. -/
theorem Reader.operators_addedOnes {n limit : Nat} (hlimit : n ≤ limit) (left : Expr)
    (finish : Location) :
    operators (binary 255) 0 limit left ⟨addedOnes n, finish⟩ =
      .ok (left.addOnes n) ⟨[], finish⟩ := by
  induction n generalizing limit left with
  | zero => cases limit <;> rfl
  | succ n ih =>
      cases limit with
      | zero => exact absurd hlimit (Nat.not_succ_le_zero n)
      | succ limit =>
          have hright := Computation.bind_of_ok (binary_one n finish) fun right =>
            operators (binary 255) 0 limit (.binary .add left right .first)
          exact hright.trans (ih (Nat.le_of_succ_le_succ hlimit) _)

theorem length_addedOnes (n : Nat) : n ≤ (addedOnes n).length := by
  induction n with
  | zero => exact Nat.le_refl 0
  | succ n ih =>
      rw [addedOnes, List.length_cons, List.length_cons]
      omega

theorem Reader.expression_addedOnes (n : Nat) (finish : Location) :
    expression ⟨⟨.int 1, .first⟩ :: addedOnes n, finish⟩ =
      .ok ((Expr.literal (.int 1) .first).addOnes n) ⟨[], finish⟩ :=
  operators_addedOnes (length_addedOnes n) (.literal (.int 1) .first) finish

/-- A sum of ones is read, whatever its length, and it is as high as it is long. -/
theorem parse_addedOnes (n : Nat) (finish : Location) :
    parse (⟨.int 1, .first⟩ :: addedOnes n) finish =
      .ok [.eval ((Expr.literal (.int 1) .first).addOnes n) true] := by
  have hstatement : Reader.statement ⟨⟨.int 1, .first⟩ :: addedOnes n, finish⟩ =
      .ok (.eval ((Expr.literal (.int 1) .first).addOnes n) true) ⟨[], finish⟩ :=
    Computation.bind_of_ok (Reader.expression_addedOnes n finish) _
  rw [parse, List.length_cons, parseFrom]
  simp only [reduceCtorEq, if_false, hstatement]
  cases (addedOnes n).length <;> rfl

/-- A sum that is higher than the limit for the nesting. -/
theorem not_height_le_of_parse :
    ¬ ∀ (tokens : List (Placed Token)) (finish : Location) (stmts : List Stmt),
      parse tokens finish = .ok stmts →
        ∀ s ∈ stmts, ∀ e ∈ s.exprs, e.height ≤ Reader.maxNesting := by
  intro h
  have hheight := h _ _ _ (parse_addedOnes 257 .first) _ (.head _) _ (.head _)
  rw [Expr.height_addOnes] at hheight
  exact absurd hheight (by decide)

end ScriptHost.Script
