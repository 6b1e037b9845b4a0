import ScriptHost.Proofs.Computation
import ScriptHost.Script.Parsing

/-!
# Reading segment by segment

Semicolons divide a text into segments, and each segment is read by itself: what stands behind its
semicolon is of no account. A reader stops in front of the semicolon or fails there, and after an
error reading goes on behind it. So a text has the statements and the errors of its segments, one
after the other.

## Implementation notes

The limits on the number of operators and arguments are taken from the number of tokens left, which
does depend on what follows. For this reason two readers are compared, which may have different
limits, as long as both are at least the number of tokens in front of the semicolon.
-/

namespace ScriptHost.Script

/-! ## Input in front of a semicolon -/

/-- The token that stands first where a semicolon follows `front`. -/
def leading (front : List (Placed Token)) : Token :=
  (front.head?.map (·.val)).getD (.symbol .semicolon)

/-- The place of the token that stands first. -/
def leadingLoc (front : List (Placed Token)) (close : Location) : Location :=
  (front.head?.map (·.loc)).getD close

/-- No semicolon is among the tokens. -/
def IsPlain (front : List (Placed Token)) : Prop := ∀ t ∈ front, t.val ≠ .symbol .semicolon

theorem IsPlain.suffix {front back : List (Placed Token)} (h : IsPlain front)
    (hsuffix : back <:+ front) : IsPlain back :=
  fun t ht => h t (hsuffix.subset ht)

/-- Some tokens and a semicolon in front of other input. -/
def Input.before (front : List (Placed Token)) (close : Location) (behind : Input) : Input :=
  ⟨front ++ ⟨.symbol .semicolon, close⟩ :: behind.tokens, behind.finish⟩

section

variable (front : List (Placed Token)) (close : Location) (behind : Input)

theorem Input.synchronize_before {front : List (Placed Token)} (h : IsPlain front) :
    (before front close behind).synchronize = behind := by
  suffices hafter : afterSemicolon (before front close behind).tokens = behind.tokens by
    rw [synchronize, hafter]
    rfl
  induction front with
  | nil => exact if_pos rfl
  | cons t front ih =>
      obtain ⟨ht, hfront⟩ := List.forall_mem_cons.1 h
      exact (if_neg ht).trans (ih hfront)

namespace Reader

theorem here_before : here (.before front close behind) =
    .ok (leadingLoc front close) (.before front close behind) := by
  cases front <;> rfl

theorem peek_before : peek (.before front close behind) =
    .ok (some (leading front)) (.before front close behind) := by
  cases front <;> rfl

theorem fail_before {α : Type} (e : SyntaxError) :
    (fail e : Reader α) (.before front close behind) =
      .error ⟨e, leadingLoc front close⟩ (.before front close behind) := by
  cases front <;> rfl

theorem accept_before_of_ne {s : Symbol} (h : leading front ≠ .symbol s) :
    accept s (.before front close behind) = .ok false (.before front close behind) := by
  have hne : ¬some (leading front) = some (.symbol s) := fun heq => h (Option.some.inj heq)
  rw [accept, Computation.bind_of_ok (peek_before front close behind), if_neg hne]
  rfl

theorem accept_before_cons {t : Placed Token} {s : Symbol} (h : t.val = .symbol s) :
    accept s (.before (t :: front) close behind) = .ok true (.before front close behind) := by
  have heq : some (leading (t :: front)) = some (.symbol s) := congrArg some h
  rw [accept, Computation.bind_of_ok (peek_before (t :: front) close behind), if_pos heq]
  rfl

theorem semicolon_before_of_ne (h : leading front ≠ .symbol .semicolon) :
    semicolon (.before front close behind) =
      .error ⟨.semicolonExpected, leadingLoc front close⟩ (.before front close behind) := by
  have hne : ¬some (leading front) = some (.symbol .semicolon) := fun heq => h (Option.some.inj heq)
  rw [semicolon, expect, Computation.bind_of_ok (peek_before front close behind), if_neg hne]
  exact fail_before front close behind _

end Reader

end

/-! ## Readers that stop in front of the semicolon -/

/-- In front of a semicolon two readers give the same result or the same error and leave the same
tokens, whatever stands behind it for the one and for the other. -/
inductive Agree {α : Type} (close : Location) (b b' : Input) (p p' : Reader α)
    (front : List (Placed Token)) : Prop
  | ok {a : α} {back : List (Placed Token)} (suffix : back <:+ front)
      (first : p (.before front close b) = .ok a (.before back close b))
      (second : p' (.before front close b') = .ok a (.before back close b'))
  | error {e : Placed SyntaxError} {back : List (Placed Token)} (suffix : back <:+ front)
      (first : p (.before front close b) = .error e (.before back close b))
      (second : p' (.before front close b') = .error e (.before back close b'))

/-- The reader agrees with itself, whatever stands in front of the semicolon. -/
def Steady {α : Type} (close : Location) (b b' : Input) (p : Reader α) : Prop :=
  ∀ front, Agree close b b' p p front

variable {α β : Type} {close : Location} {b b' : Input} {front back : List (Placed Token)}

namespace Agree

variable {p p' : Reader α} {f f' : α → Reader β}

/-- The readers may come to different results first, if what they do with them agrees. -/
theorem step {a a' : α} (suffix : back <:+ front)
    (first : p (.before front close b) = .ok a (.before back close b))
    (second : p' (.before front close b') = .ok a' (.before back close b'))
    (h : Agree close b b' (f a) (f' a') back) :
    Agree close b b' (p >>= f) (p' >>= f') front := by
  have hfirst := Computation.bind_of_ok first f
  have hsecond := Computation.bind_of_ok second f'
  cases h with
  | ok shorter hthen hthen' =>
      exact .ok (shorter.trans suffix) (hfirst.trans hthen) (hsecond.trans hthen')
  | error shorter hthen hthen' =>
      exact .error (shorter.trans suffix) (hfirst.trans hthen) (hsecond.trans hthen')

theorem bind (h : Agree close b b' p p' front)
    (hf : ∀ a back, back <:+ front → Agree close b b' (f a) (f' a) back) :
    Agree close b b' (p >>= f) (p' >>= f') front := by
  cases h with
  | @ok a back suffix first second => exact step suffix first second (hf a back suffix)
  | error suffix first second =>
      exact .error suffix (Computation.bind_of_error first f) (Computation.bind_of_error second f')

theorem pure (a : α) : Agree close b b' (Pure.pure a) (Pure.pure a) front :=
  .ok List.suffix_rfl rfl rfl

theorem fail (e : SyntaxError) :
    Agree close b b' (Reader.fail e : Reader α) (Reader.fail e) front :=
  .error List.suffix_rfl (Reader.fail_before front close b e) (Reader.fail_before front close b' e)

theorem here {f f' : Location → Reader β}
    (h : ∀ loc, Agree close b b' (f loc) (f' loc) front) :
    Agree close b b' (Reader.here >>= f) (Reader.here >>= f') front :=
  step List.suffix_rfl (Reader.here_before front close b) (Reader.here_before front close b') (h _)

theorem peek {f f' : Option Token → Reader β}
    (h : Agree close b b' (f (some (leading front))) (f' (some (leading front))) front) :
    Agree close b b' (Reader.peek >>= f) (Reader.peek >>= f') front :=
  step List.suffix_rfl (Reader.peek_before front close b) (Reader.peek_before front close b') h

theorem advance {t : Placed Token} {f f' : Unit → Reader β}
    (h : Agree close b b' (f ()) (f' ()) back) :
    Agree close b b' (Reader.advance >>= f) (Reader.advance >>= f') (t :: back) :=
  step (List.suffix_cons t back) rfl rfl h

/-- The number of tokens left is at least the number of those in front of the semicolon. -/
theorem remaining {f f' : Nat → Reader β} (h : ∀ n n', front.length ≤ n → front.length ≤ n' →
    Agree close b b' (f n) (f' n') front) :
    Agree close b b' (Reader.remaining >>= f) (Reader.remaining >>= f') front := by
  have hlength (b : Input) : front.length ≤ (Input.before front close b).tokens.length := by
    rw [Input.before, List.length_append]
    exact Nat.le_add_right _ _
  exact step List.suffix_rfl rfl rfl (h _ _ (hlength b) (hlength b'))

theorem get {f f' : Input → Reader β}
    (h : Agree close b b' (f (.before front close b)) (f' (.before front close b')) front) :
    Agree close b b' (MonadState.get >>= f) (MonadState.get >>= f') front :=
  step List.suffix_rfl rfl rfl h

/-- A symbol other than the semicolon is taken only from in front of it. -/
theorem accept {s : Symbol} (hs : s ≠ .semicolon) {f f' : Bool → Reader β}
    (htaken : ∀ t back, front = t :: back → Agree close b b' (f true) (f' true) back)
    (hleft : Agree close b b' (f false) (f' false) front) :
    Agree close b b' (Reader.accept s >>= f) (Reader.accept s >>= f') front := by
  by_cases hleading : leading front = .symbol s
  · cases front with
    | nil => exact absurd (Token.symbol.inj hleading).symm hs
    | cons t back =>
        exact step (List.suffix_cons t back) (Reader.accept_before_cons back close b hleading)
          (Reader.accept_before_cons back close b' hleading) (htaken t back rfl)
  · exact step List.suffix_rfl (Reader.accept_before_of_ne front close b hleading)
      (Reader.accept_before_of_ne front close b' hleading) hleft

theorem expect {t : Token} (ht : t ≠ .symbol .semicolon) (e : SyntaxError) :
    Agree close b b' (Reader.expect t e) (Reader.expect t e) front := by
  apply peek
  split
  · rename_i heq
    cases front with
    | nil => exact absurd (Option.some.inj heq).symm ht
    | cons u back => exact .ok (List.suffix_cons u back) rfl rfl
  · exact fail e

theorem word : Agree close b b' Reader.word Reader.word front := by
  apply peek
  cases front with
  | nil => exact fail _
  | cons t back =>
      obtain ⟨t, loc⟩ := t
      cases t with
      | word w => exact advance (pure w)
      | _ => exact fail _

end Agree

/-- The members of a path end in front of the semicolon at the latest. -/
theorem memberChain_before (front : List (Placed Token)) (close : Location) :
    ∃ members back complete, back <:+ front ∧ ∀ rest,
      Reader.memberChain (front ++ ⟨.symbol .semicolon, close⟩ :: rest) =
        (members, back ++ ⟨.symbol .semicolon, close⟩ :: rest, complete) := by
  induction front using Reader.memberChain.induct with
  | case1 dotLoc w wordLoc ts _ _ _ _ ih =>
      obtain ⟨members, back, complete, hsuffix, hchain⟩ := ih
      refine ⟨w :: members, back, complete, ?_, ?_⟩
      · exact hsuffix.trans ((List.suffix_cons _ _).trans (List.suffix_cons _ _))
      · intro rest
        rw [List.cons_append, List.cons_append, Reader.memberChain, hchain]
  | case2 dotLoc ts hword =>
      refine ⟨[], ts, false, List.suffix_cons _ _, ?_⟩
      intro rest
      cases ts with
      | nil => rfl
      | cons t ts =>
          obtain ⟨t, loc⟩ := t
          cases t with
          | word w => exact absurd rfl (hword w loc ts)
          | _ => rfl
  | case3 ts hdotWord hdot =>
      refine ⟨[], ts, true, List.suffix_rfl, ?_⟩
      intro rest
      cases ts with
      | nil => rfl
      | cons t ts =>
          obtain ⟨t, loc⟩ := t
          cases t with
          | symbol s =>
              cases s with
              | dot => exact absurd rfl (hdot loc ts)
              | _ => rfl
          | _ => rfl

theorem Agree.path : Agree close b b' Reader.path Reader.path front := by
  apply word.bind
  intro head back _
  obtain ⟨members, rest, complete, hsuffix, hchain⟩ := memberChain_before back close
  apply get
  dsimp only [Input.before]
  rw [hchain, hchain]
  refine step hsuffix rfl rfl ?_
  cases complete with
  | true => exact pure _
  | false => exact fail _

/-! ## Expressions -/

namespace Reader

theorem operators_before_nil (operand : Nat → Reader Expr) (floor limit : Nat) (left : Expr) :
    operators operand floor limit left (.before [] close b) = .ok left (.before [] close b) := by
  cases limit <;> rfl

theorem moreArguments_before_nil (argument : Reader Expr) (limit : Nat) :
    moreArguments argument limit (.before [] close b) = .ok [] (.before [] close b) := by
  cases limit <;> rfl

/-- Two limits make no difference if both are large enough. By induction on the one: each operator
is a token. -/
theorem agree_operators {operand : Nat → Reader Expr}
    (hoperand : ∀ floor, Steady close b b' (operand floor)) (floor : Nat) {limit limit' : Nat}
    (left : Expr) (hlimit : front.length ≤ limit) (hlimit' : front.length ≤ limit') :
    Agree close b b' (operators operand floor limit left) (operators operand floor limit' left)
      front := by
  induction limit generalizing limit' left front with
  | zero =>
      cases List.length_eq_zero_iff.1 (Nat.le_zero.1 hlimit)
      exact .ok List.suffix_rfl (operators_before_nil operand floor 0 left)
        (operators_before_nil operand floor limit' left)
  | succ limit ih =>
      cases front with
      | nil =>
          exact .ok List.suffix_rfl (operators_before_nil operand floor (limit + 1) left)
            (operators_before_nil operand floor limit' left)
      | cons t front =>
          cases limit' with
          | zero => exact absurd hlimit' (Nat.not_succ_le_zero _)
          | succ limit' =>
              apply Agree.peek
              split
              · exact .pure left
              · rename_i op _
                split
                · exact .pure left
                · apply Agree.here
                  intro loc
                  apply Agree.advance
                  apply (hoperand op.precedence front).bind
                  intro right back hback
                  have hlength := hback.length_le
                  rw [List.length_cons] at hlimit hlimit'
                  exact ih _ (by omega) (by omega)

theorem agree_moreArguments {argument : Reader Expr} (hargument : Steady close b b' argument)
    {limit limit' : Nat} (hlimit : front.length ≤ limit) (hlimit' : front.length ≤ limit') :
    Agree close b b' (moreArguments argument limit) (moreArguments argument limit') front := by
  induction limit generalizing limit' front with
  | zero =>
      cases List.length_eq_zero_iff.1 (Nat.le_zero.1 hlimit)
      exact .ok List.suffix_rfl (moreArguments_before_nil argument 0)
        (moreArguments_before_nil argument limit')
  | succ limit ih =>
      cases front with
      | nil =>
          exact .ok List.suffix_rfl (moreArguments_before_nil argument (limit + 1))
            (moreArguments_before_nil argument limit')
      | cons t front =>
          cases limit' with
          | zero => exact absurd hlimit' (Nat.not_succ_le_zero _)
          | succ limit' =>
              refine Agree.accept (by decide) ?_ ?_
              · rintro _ _ ⟨⟩
                apply (hargument front).bind
                intro first back hback
                have hlength := hback.length_le
                rw [List.length_cons] at hlimit hlimit'
                have hothers : Agree close b b' (moreArguments argument limit)
                    (moreArguments argument limit') back := ih (by omega) (by omega)
                apply hothers.bind
                intro others _ _
                exact .pure _
              · exact .pure []

theorem steady_arguments {argument : Reader Expr} (hargument : Steady close b b' argument) :
    Steady close b b' (arguments argument) := by
  intro front
  apply Agree.peek
  split
  · exact .pure []
  · apply (hargument front).bind
    intro first back _
    apply Agree.remaining
    intro n n' hn hn'
    apply (agree_moreArguments hargument hn hn').bind
    intro others _ _
    exact .pure _

theorem steady_primary {argument inner : Reader Expr} (hargument : Steady close b b' argument)
    (hinner : Steady close b b' inner) : Steady close b b' (primary argument inner) := by
  intro front
  apply Agree.here
  intro loc
  apply Agree.peek
  cases front with
  | nil => exact .fail _
  | cons t front =>
      split
      · exact .advance (.pure _)
      · split
        · apply Agree.advance
          apply (hinner front).bind
          intro expr back _
          exact .bind (.expect (by decide) _) fun _ _ _ => .pure expr
        · apply Agree.path.bind
          intro target back _
          refine Agree.accept (by decide) ?_ ?_
          · rintro _ back rfl
            apply (steady_arguments hargument back).bind
            intro args _ _
            exact .bind (.expect (by decide) _) fun _ _ _ => .pure _
          · exact .pure _
        · exact .fail _

theorem steady_inner {room : Nat} (h : ∀ less < room, Steady close b b' (binary less 0)) :
    Steady close b b' (match room with | 0 => fail .tooDeep | less + 1 => binary less 0) := by
  cases room with
  | zero => exact fun _ => .fail _
  | succ less => exact h less (Nat.lt_succ_self less)

/-- By induction on the room: what is in parentheses has less of it. -/
theorem steady_binary_unary (room : Nat) :
    (∀ floor, Steady close b b' (binary room floor)) ∧ Steady close b b' (unary room) := by
  induction room using Nat.strongRecOn with
  | ind room ih =>
    cases room with
    | zero =>
        constructor
        · intro floor front
          rw [binary]
          exact .fail _
        · intro front
          rw [unary]
          exact .fail _
    | succ room =>
        obtain ⟨hbinary, hunary⟩ := ih room (Nat.lt_succ_self room)
        have hbehind (make : Expr → Expr) (front : List (Placed Token)) :
            Agree close b b' (do return make (← unary room)) (do return make (← unary room)) front :=
          (hunary front).bind fun operand _ _ => .pure (make operand)
        have hinner := steady_inner fun less hless => (ih less (Nat.lt_succ_of_lt hless)).1 0
        constructor
        · intro floor front
          rw [binary]
          apply (hunary front).bind
          intro left back _
          apply Agree.remaining
          intro n n' hn hn'
          exact agree_operators hbinary floor left hn hn'
        · intro front
          rw [unary.eq_def]
          apply Agree.here
          intro loc
          apply Agree.peek
          cases front with
          | nil => exact steady_primary (hbinary 0) hinner []
          | cons t front =>
              split
              · exact .advance (hbehind (.unary .negate · loc) front)
              · exact .advance (hbehind (.unary .not · loc) front)
              · exact .advance (hbehind (.await · loc) front)
              · exact steady_primary (hbinary 0) hinner (t :: front)

theorem steady_expression : Steady close b b' expression :=
  (steady_binary_unary maxNesting).1 0

end Reader

/-! ## Statements -/

/-- The readers take the tokens and the semicolon behind them and give the same result, or both fail
with the same error, in front of the semicolon. -/
inductive Closes {α : Type} (close : Location) (b b' : Input) (p p' : Reader α)
    (front : List (Placed Token)) : Prop
  | ok {a : α} (first : p (.before front close b) = .ok a b)
      (second : p' (.before front close b') = .ok a b')
  | error {e : Placed SyntaxError} {back : List (Placed Token)} (suffix : back <:+ front)
      (first : p (.before front close b) = .error e (.before back close b))
      (second : p' (.before front close b') = .error e (.before back close b'))

namespace Closes

variable {p p' : Reader α} {f f' : α → Reader β}

theorem step {a : α} (suffix : back <:+ front)
    (first : p (.before front close b) = .ok a (.before back close b))
    (second : p' (.before front close b') = .ok a (.before back close b'))
    (h : Closes close b b' (f a) (f' a) back) :
    Closes close b b' (p >>= f) (p' >>= f') front := by
  have hfirst := Computation.bind_of_ok first f
  have hsecond := Computation.bind_of_ok second f'
  cases h with
  | ok hthen hthen' => exact .ok (hfirst.trans hthen) (hsecond.trans hthen')
  | error shorter hthen hthen' =>
      exact .error (shorter.trans suffix) (hfirst.trans hthen) (hsecond.trans hthen')

theorem bind (hplain : IsPlain front) (h : Agree close b b' p p' front)
    (hf : ∀ a back, IsPlain back → Closes close b b' (f a) (f' a) back) :
    Closes close b b' (p >>= f) (p' >>= f') front := by
  cases h with
  | @ok a back suffix first second =>
      exact step suffix first second (hf a back (hplain.suffix suffix))
  | error suffix first second =>
      exact .error suffix (Computation.bind_of_error first f) (Computation.bind_of_error second f')

theorem here {f f' : Location → Reader β}
    (h : ∀ loc, Closes close b b' (f loc) (f' loc) front) :
    Closes close b b' (Reader.here >>= f) (Reader.here >>= f') front :=
  step List.suffix_rfl (Reader.here_before front close b) (Reader.here_before front close b') (h _)

theorem peek {f f' : Option Token → Reader β}
    (h : Closes close b b' (f (some (leading front))) (f' (some (leading front))) front) :
    Closes close b b' (Reader.peek >>= f) (Reader.peek >>= f') front :=
  step List.suffix_rfl (Reader.peek_before front close b) (Reader.peek_before front close b') h

theorem advance {t : Placed Token} {f f' : Unit → Reader β}
    (h : Closes close b b' (f ()) (f' ()) back) :
    Closes close b b' (Reader.advance >>= f) (Reader.advance >>= f') (t :: back) :=
  step (List.suffix_cons t back) rfl rfl h

theorem fail (e : SyntaxError) :
    Closes close b b' (Reader.fail e : Reader α) (Reader.fail e) front :=
  .error List.suffix_rfl (Reader.fail_before front close b e) (Reader.fail_before front close b' e)

/-- The semicolon is taken where nothing is left in front of it. -/
theorem semicolon (hplain : IsPlain front) (a : α) :
    Closes close b b' (Reader.semicolon >>= fun _ => pure a) (Reader.semicolon >>= fun _ => pure a)
      front := by
  cases front with
  | nil => exact .ok rfl rfl
  | cons t front =>
      have hfirst (behind : Input) := Reader.semicolon_before_of_ne (t :: front) close behind
        (hplain t List.mem_cons_self)
      exact .error List.suffix_rfl (Computation.bind_of_error (hfirst b) _)
        (Computation.bind_of_error (hfirst b') _)

theorem get {f f' : Input → Reader β}
    (h : Closes close b b' (f (.before front close b)) (f' (.before front close b')) front) :
    Closes close b b' (MonadState.get >>= f) (MonadState.get >>= f') front := by
  cases h with
  | ok first second => exact .ok first second
  | error suffix first second => exact .error suffix first second

end Closes

namespace Reader

theorem closes_evaluation (hplain : IsPlain front) :
    Closes close b b' evaluation evaluation front := by
  apply Closes.bind hplain (steady_expression front)
  intro expr back hback
  cases back with
  | nil => exact .ok rfl rfl
  | cons t back =>
      have hne := hback t List.mem_cons_self
      refine .step List.suffix_rfl (accept_before_of_ne (t :: back) close b hne)
        (accept_before_of_ne (t :: back) close b' hne) ?_
      exact .peek (.fail _)

/-- Of what is behind a word only the tokens in front of the semicolon tell of an assignment. -/
theorem assignOp?_before (t : Placed Token) (front : List (Placed Token)) (close : Location)
    (behind : Input) :
    assignOp? (.before (t :: front) close behind) = assignOp? ⟨t :: front, close⟩ := by
  cases front with
  | nil => rfl
  | cons u front =>
      obtain ⟨u, loc⟩ := u
      cases u with
      | symbol s => cases s <;> rfl
      | _ => rfl

theorem closes_statement (hplain : IsPlain front) :
    Closes close b b' statement statement front := by
  apply Closes.here
  intro loc
  apply Closes.peek
  cases front with
  | nil => exact closes_evaluation hplain
  | cons t front =>
      have hfront := hplain.suffix (List.suffix_cons t front)
      split
      · apply Closes.advance
        apply Closes.bind hfront .path
        intro names back hback
        exact .semicolon hback _
      · apply Closes.advance
        apply Closes.bind hfront .word
        intro name back hback
        apply Closes.bind hback (.expect (by decide) _)
        intro _ back hback
        apply Closes.bind hback (steady_expression back)
        intro init back hback
        exact .semicolon hback _
      · apply Closes.advance
        apply Closes.bind hfront (.expect (by decide) _)
        intro _ back hback
        apply Closes.bind hback .path
        intro exception back hback
        apply Closes.bind hback (.expect (by decide) _)
        intro _ back hback
        apply Closes.peek
        have hend (message : Option Expr) (back : List (Placed Token)) (hback : IsPlain back) :
            Closes close b b'
              (do expect (.symbol .closeParen) .closeParenExpected
                  semicolon
                  return Stmt.throw exception message loc)
              (do expect (.symbol .closeParen) .closeParenExpected
                  semicolon
                  return Stmt.throw exception message loc) back := by
          apply Closes.bind hback (.expect (by decide) _)
          intro _ back hback
          exact .semicolon hback _
        split
        · exact hend none back hback
        · have hexpression : Steady close b b' expression := steady_expression
          have hmessage := (hexpression back).bind fun message _ _ => Agree.pure (some message)
          exact .bind hback hmessage hend
      · apply Closes.get
        rw [assignOp?_before, assignOp?_before]
        cases front with
        | nil => exact closes_evaluation hplain
        | cons u front =>
            split
            · apply Closes.advance
              apply Closes.advance
              have hbehind := hfront.suffix (List.suffix_cons u front)
              apply Closes.bind hbehind (steady_expression front)
              intro value back hback
              exact .semicolon hback _
            · exact closes_evaluation hplain
      · exact closes_evaluation hplain

end Reader

/-! ## Segments -/

/-- The tokens in front of a semicolon, and its place. -/
structure Segment where
  tokens : List (Placed Token)
  close : Location

/-- The tokens with the semicolon behind them. -/
def Segment.closed (s : Segment) : List (Placed Token) :=
  s.tokens ++ [⟨.symbol .semicolon, s.close⟩]

namespace Parsed

/-- What is read of two parts of a text. -/
def append (first second : Parsed) : Parsed :=
  ⟨first.statements ++ second.statements, first.errors ++ second.errors⟩

/-- One statement, one error, or nothing. -/
inductive IsSingle : Parsed → Prop
  | empty : IsSingle ⟨[], []⟩
  | statement (stmt : Stmt) : IsSingle ⟨[stmt], []⟩
  | error (e : Placed SyntaxError) : IsSingle ⟨[], [e]⟩

theorem IsSingle.errors_eq_singleton {p : Parsed} (h : p.IsSingle) (herrors : p.errors ≠ []) :
    ∃ e, p.errors = [e] := by
  cases h with
  | error e => exact ⟨e, rfl⟩
  | _ => exact absurd rfl herrors

end Parsed

theorem parseFrom_nil (limit : Nat) (finish : Location) :
    parseFrom limit ⟨[], finish⟩ = ⟨[], []⟩ := by
  cases limit <;> rfl

section

variable {t : Placed Token} {behind : Input}

theorem parseFrom_of_ok (ht : t.val ≠ .symbol .semicolon) {stmt : Stmt} {rest : Input}
    (h : Reader.statement (.before (t :: front) close behind) = .ok stmt rest) (limit : Nat) :
    parseFrom (limit + 1) (.before (t :: front) close behind) =
      .append ⟨[stmt], []⟩ (parseFrom limit rest) := by
  rw [Input.before] at h ⊢
  simp only [parseFrom, List.cons_append] at h ⊢
  rw [if_neg ht, h]
  rfl

theorem parseFrom_of_error (ht : t.val ≠ .symbol .semicolon) {e : Placed SyntaxError} {rest : Input}
    (h : Reader.statement (.before (t :: front) close behind) = .error e rest) (limit : Nat) :
    parseFrom (limit + 1) (.before (t :: front) close behind) =
      .append ⟨[], [e]⟩ (parseFrom limit rest.synchronize) := by
  rw [Input.before] at h ⊢
  simp only [parseFrom, List.cons_append] at h ⊢
  rw [if_neg ht, h]
  rfl

end

theorem isSingle_parseFrom (hplain : IsPlain front) (close finish : Location) (limit : Nat) :
    (parseFrom (limit + 1) (.before front close ⟨[], finish⟩)).IsSingle := by
  cases front with
  | nil =>
      have hempty : parseFrom (limit + 1) (.before [] close ⟨[], finish⟩) = ⟨[], []⟩ :=
        parseFrom_nil limit finish
      rw [hempty]
      exact .empty
  | cons t front =>
      have ht : t.val ≠ .symbol .semicolon := hplain t List.mem_cons_self
      have hcloses : Closes close ⟨[], finish⟩ ⟨[], finish⟩ Reader.statement Reader.statement
          (t :: front) := Reader.closes_statement hplain
      cases hcloses with
      | @ok stmt first _ =>
          rw [parseFrom_of_ok ht first, parseFrom_nil]
          exact .statement stmt
      | @error e back suffix first _ =>
          rw [parseFrom_of_error ht first, Input.synchronize_before _ _ (hplain.suffix suffix),
            parseFrom_nil]
          exact .error e

/-- The segment at the front is read as it is alone, and then what stands behind it. -/
theorem parseFrom_before (hplain : IsPlain front) (close : Location) (behind : Input)
    (finish : Location) (limit n : Nat) :
    parseFrom (limit + 1) (.before front close behind) =
      (parseFrom (n + 1) (.before front close ⟨[], finish⟩)).append (parseFrom limit behind) := by
  cases front with
  | nil =>
      have hempty : parseFrom (n + 1) (.before [] close ⟨[], finish⟩) = ⟨[], []⟩ :=
        parseFrom_nil n finish
      rw [hempty]
      rfl
  | cons t front =>
      have ht : t.val ≠ .symbol .semicolon := hplain t List.mem_cons_self
      have hcloses : Closes close ⟨[], finish⟩ behind Reader.statement Reader.statement
          (t :: front) := Reader.closes_statement hplain
      cases hcloses with
      | @ok stmt first second =>
          rw [parseFrom_of_ok ht first, parseFrom_of_ok ht second, parseFrom_nil]
          rfl
      | @error e back suffix first second =>
          have hback := hplain.suffix suffix
          rw [parseFrom_of_error ht first, parseFrom_of_error ht second,
            Input.synchronize_before _ _ hback, Input.synchronize_before _ _ hback, parseFrom_nil]
          rfl

/-- What is read of a segment alone. -/
def Segment.alone (s : Segment) (finish : Location) : Parsed :=
  parseFrom s.closed.length ⟨s.closed, finish⟩

theorem Segment.alone_eq (s : Segment) (finish : Location) :
    s.alone finish = parseFrom (s.tokens.length + 1) (.before s.tokens s.close ⟨[], finish⟩) := by
  rw [alone, closed, List.length_append]
  rfl

theorem parseFrom_segments {segments : List Segment} (h : ∀ s ∈ segments, IsPlain s.tokens)
    (finish : Location) (ends : Segment → Location) {limit : Nat}
    (hlimit : segments.length ≤ limit) :
    parseFrom limit ⟨segments.flatMap Segment.closed, finish⟩ =
      ⟨segments.flatMap fun s => (s.alone (ends s)).statements,
        segments.flatMap fun s => (s.alone (ends s)).errors⟩ := by
  induction segments generalizing limit with
  | nil => exact parseFrom_nil limit finish
  | cons s segments ih =>
      obtain ⟨hs, hsegments⟩ := List.forall_mem_cons.1 h
      cases limit with
      | zero => exact absurd hlimit (Nat.not_succ_le_zero _)
      | succ limit =>
          have hinput : (⟨(s :: segments).flatMap Segment.closed, finish⟩ : Input) =
              .before s.tokens s.close ⟨segments.flatMap Segment.closed, finish⟩ := by
            rw [List.flatMap_cons, Segment.closed, List.append_assoc]
            rfl
          rw [hinput, parseFrom_before hs s.close _ (ends s) limit s.tokens.length,
            ih hsegments (Nat.le_of_succ_le_succ hlimit), ← Segment.alone_eq]
          rfl

theorem length_le_flatMap_closed (segments : List Segment) :
    segments.length ≤ (segments.flatMap Segment.closed).length := by
  induction segments with
  | nil => exact Nat.le_refl 0
  | cons s segments ih =>
      rw [List.flatMap_cons, List.length_append, Segment.closed, List.length_append,
        List.length_cons, List.length_singleton]
      omega

/-! ## Texts -/

/-- The statements of a text that is read without errors. -/
def readStatements : Except (List (Placed SyntaxError)) (List Stmt) → List Stmt
  | .ok stmts => stmts
  | .error _ => []

/-- The errors that are met in a text. -/
def readErrors : Except (List (Placed SyntaxError)) (List Stmt) → List (Placed SyntaxError)
  | .ok _ => []
  | .error es => es

section

variable {tokens : List (Placed Token)} {finish : Location} {stmts : List Stmt} {parsed : Parsed}

theorem parse_eq_ok_iff (h : parseFrom tokens.length ⟨tokens, finish⟩ = parsed) :
    parse tokens finish = .ok stmts ↔ parsed.errors = [] ∧ parsed.statements = stmts := by
  rw [parse, h]
  obtain ⟨statements, errors⟩ := parsed
  cases errors with
  | nil => simp
  | cons e errors => simp

theorem parse_eq_error_iff (h : parseFrom tokens.length ⟨tokens, finish⟩ = parsed)
    {es : List (Placed SyntaxError)} :
    parse tokens finish = .error es ↔ parsed.errors = es ∧ es ≠ [] := by
  rw [parse, h]
  obtain ⟨statements, errors⟩ := parsed
  cases errors with
  | nil => simp
  | cons e errors =>
      simp only [List.isEmpty_cons, Bool.false_eq_true, if_false, Except.error.injEq]
      constructor
      · rintro rfl
        exact ⟨rfl, List.cons_ne_nil e errors⟩
      · exact And.left

theorem readErrors_parse (h : parseFrom tokens.length ⟨tokens, finish⟩ = parsed) :
    readErrors (parse tokens finish) = parsed.errors := by
  rw [parse, h]
  obtain ⟨statements, errors⟩ := parsed
  cases errors with
  | nil => rfl
  | cons e errors => rfl

theorem readStatements_parse (h : parseFrom tokens.length ⟨tokens, finish⟩ = parsed)
    (hsingle : parsed.IsSingle) : readStatements (parse tokens finish) = parsed.statements := by
  rw [parse, h]
  cases hsingle <;> rfl

end

/-- A text whose segments are closed by semicolons is read without errors just if each segment is,
when read alone; it has the statements of the segments, or else their errors, in order, and a
segment has one error at most. -/
theorem parse_segments {segments : List Segment} (h : ∀ s ∈ segments, IsPlain s.tokens)
    (finish : Location) (ends : Segment → Location) :
    let whole := parse (segments.flatMap Segment.closed) finish
    let alone := fun s : Segment => parse s.closed (ends s)
    ((∃ stmts, whole = .ok stmts) ↔ ∀ s ∈ segments, ∃ stmts, alone s = .ok stmts) ∧
      (∀ stmts, whole = .ok stmts → stmts = segments.flatMap fun s => readStatements (alone s)) ∧
      (∀ es, whole = .error es → es = segments.flatMap fun s => readErrors (alone s)) ∧
      ∀ s ∈ segments, ∀ es, alone s = .error es → ∃ e, es = [e] := by
  have hwhole := parseFrom_segments h finish ends (length_le_flatMap_closed segments)
  have hsingle (s : Segment) (hs : s ∈ segments) : (s.alone (ends s)).IsSingle := by
    rw [Segment.alone_eq]
    exact isSingle_parseFrom (h s hs) s.close (ends s) s.tokens.length
  have halone (s : Segment) :
      parseFrom s.closed.length ⟨s.closed, ends s⟩ = s.alone (ends s) := rfl
  dsimp only
  refine ⟨?_, ?_, ?_, ?_⟩
  · simp only [parse_eq_ok_iff hwhole, parse_eq_ok_iff (halone _), exists_and_left, exists_eq',
      and_true, List.flatMap_eq_nil_iff]
  · intro stmts hstmts
    rw [← ((parse_eq_ok_iff hwhole).1 hstmts).2, List.flatMap_def, List.flatMap_def]
    refine congrArg List.flatten (List.map_congr_left fun s hs => ?_)
    exact (readStatements_parse (halone s) (hsingle s hs)).symm
  · intro es hes
    simp only [readErrors_parse (halone _)]
    exact ((parse_eq_error_iff hwhole).1 hes).1.symm
  · intro s hs es hes
    obtain ⟨rfl, hne⟩ := (parse_eq_error_iff (halone s)).1 hes
    exact (hsingle s hs).errors_eq_singleton hne

/-- The text `-); ; f(1); 2+;`, in which the first and the last segment are in error. -/
def sampleSegments : List Segment :=
  [⟨[⟨.symbol .minus, ⟨1, 1⟩⟩, ⟨.symbol .closeParen, ⟨1, 2⟩⟩], ⟨1, 3⟩⟩,
    ⟨[], ⟨1, 5⟩⟩,
    ⟨[⟨.word "f", ⟨1, 7⟩⟩, ⟨.symbol .openParen, ⟨1, 8⟩⟩, ⟨.int 1, ⟨1, 9⟩⟩,
      ⟨.symbol .closeParen, ⟨1, 10⟩⟩], ⟨1, 11⟩⟩,
    ⟨[⟨.int 2, ⟨1, 13⟩⟩, ⟨.symbol .plus, ⟨1, 14⟩⟩], ⟨1, 15⟩⟩]

theorem parse_segments_recovered :
    (∀ s ∈ sampleSegments, IsPlain s.tokens) ∧
      parse (sampleSegments.flatMap Segment.closed) ⟨1, 16⟩ =
        .error [⟨.invalidTerm (some (.symbol .closeParen)), ⟨1, 2⟩⟩,
          ⟨.invalidTerm (some (.symbol .semicolon)), ⟨1, 15⟩⟩] ∧
      [⟨.invalidTerm (some (.symbol .closeParen)), ⟨1, 2⟩⟩,
          ⟨.invalidTerm (some (.symbol .semicolon)), ⟨1, 15⟩⟩] =
        sampleSegments.flatMap fun s => readErrors (parse s.closed s.close) := by
  have hplain : ∀ s ∈ sampleSegments, IsPlain s.tokens := by
    unfold IsPlain
    decide
  have hparse : parse (sampleSegments.flatMap Segment.closed) ⟨1, 16⟩ =
      .error [⟨.invalidTerm (some (.symbol .closeParen)), ⟨1, 2⟩⟩,
        ⟨.invalidTerm (some (.symbol .semicolon)), ⟨1, 15⟩⟩] := rfl
  exact ⟨hplain, hparse, (parse_segments hplain ⟨1, 16⟩ Segment.close).2.2.1 _ hparse⟩

end ScriptHost.Script
