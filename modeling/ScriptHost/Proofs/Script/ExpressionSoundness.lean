import ScriptHost.Proofs.Script.Safety

/-!
# Expressions of a checked script

An expression that the check finds nothing wrong with evaluates safely, on every assignment
of values that agrees with the types it was checked against, and gives a value of its type.
-/

namespace ScriptHost.Script

/-! ## Accepted findings -/

/-- None of the findings is an error. -/
def Accepted (findings : List (Placed Finding)) : Prop :=
  ∀ f ∈ findings, f.val.severity ≠ .error

theorem accepted_append {a b : List (Placed Finding)} :
    Accepted (a ++ b) ↔ Accepted a ∧ Accepted b := by
  unfold Accepted
  constructor
  · intro h
    exact ⟨fun f hf => h f (List.mem_append_left b hf), fun f hf => h f (List.mem_append_right a hf)⟩
  · rintro ⟨ha, hb⟩ f hf
    rcases List.mem_append.1 hf with hf | hf
    · exact ha f hf
    · exact hb f hf

theorem not_accepted_cons {f : Placed Finding} {fs : List (Placed Finding)}
    (h : f.val.severity = .error) : ¬Accepted (f :: fs) :=
  fun hf => hf f List.mem_cons_self h

/-! ## Operators -/

/-- The types that an expression without errors can have. -/
def Ty.isKnown : Ty → Bool
  | object | invalid => false
  | _ => true

theorem Ty.isKnown_of_isStorable {ty : Ty} (h : ty.isStorable = true) : ty.isKnown = true := by
  cases ty <;> first | rfl | cases h

theorem Ty.hasValue_of_isStorable {ty : Ty} (h : ty.isStorable = true) : ty.hasValue = true := by
  cases ty <;> first | rfl | cases h

theorem checkedInt_safe (n : Int) : Safe (Eval.ofExcept (checkedInt n)) (HasType · .int) := by
  unfold checkedInt
  split
  · exact .pure (.int _)
  · exact .throw (by decide)

/-- What an operator takes and gives: one case for each way in which the check allows it. -/
inductive BinaryOp.Allowed : BinaryOp → Ty → Ty → Ty → Prop
  | sum : Allowed .add .int .int .int
  | textLeft {right : Ty} (h : right.hasValue = true) : Allowed .add .string right .string
  | textRight {left : Ty} (h : left.hasValue = true) : Allowed .add left .string .string
  | sub : Allowed .sub .int .int .int
  | mul : Allowed .mul .int .int .int
  | div : Allowed .div .int .int .int
  | rem : Allowed .rem .int .int .int
  | lt : Allowed .lt .int .int .bool
  | le : Allowed .le .int .int .bool
  | gt : Allowed .gt .int .int .bool
  | ge : Allowed .ge .int .int .bool
  | eq {left right : Ty} (hl : left.hasValue = true) (hr : right.hasValue = true) :
      Allowed .eq left right .bool
  | ne {left right : Ty} (hl : left.hasValue = true) (hr : right.hasValue = true) :
      Allowed .ne left right .bool
  | and : Allowed .and .bool .bool .bool
  | or : Allowed .or .bool .bool .bool

namespace BinaryOp

variable {op : BinaryOp} {left right ty : Ty} {a b : Value}

theorem allowed_of_resultType (h : op.resultType left right = some ty) :
    op.Allowed left right ty := by
  unfold resultType at h
  split at h
  · split at h
    · rename_i hints
      cases h
      rw [hints.1, hints.2]
      exact .sum
    · split at h
      · rename_i htext
        cases h
        rcases htext with ⟨rfl, hright⟩ | ⟨rfl, hleft⟩
        · exact .textLeft hright
        · exact .textRight hleft
      · cases h
  case h_10 =>
    split at h
    · rename_i hboth
      cases h
      exact .eq hboth.1 hboth.2.1
    · cases h
  case h_11 =>
    split at h
    · rename_i hboth
      cases h
      exact .ne hboth.1 hboth.2.1
    · cases h
  all_goals cases h
  all_goals constructor

theorem Allowed.operands_hasValue (h : op.Allowed left right ty) :
    left.hasValue = true ∧ right.hasValue = true := by
  cases h with
  | textLeft h => exact ⟨rfl, h⟩
  | textRight h => exact ⟨h, rfl⟩
  | eq hl hr | ne hl hr => exact ⟨hl, hr⟩
  | _ => exact ⟨rfl, rfl⟩

theorem Allowed.isStorable (h : op.Allowed left right ty) : ty.isStorable = true := by
  cases h <;> rfl

/-- A text is joined with any value; the result is a text. -/
theorem add_of_text (h : HasType a .string ∨ HasType b .string) :
    ∃ s, BinaryOp.add.apply a b = .ok (.text s) := by
  rcases h with h | h
  · cases h <;> exact ⟨_, rfl⟩
  · cases h <;> cases a <;> exact ⟨_, rfl⟩

/-- On operands of the types it was judged on an operator gives a value of the judged type, or
it overflows or divides by zero. -/
theorem Allowed.apply_safe (h : op.Allowed left right ty) (hand : op ≠ .and) (hor : op ≠ .or)
    (ha : HasType a left) (hb : HasType b right) :
    Safe (Eval.ofExcept (op.apply a b)) (HasType · ty) := by
  cases h with
  | sum =>
      cases ha; cases hb
      exact checkedInt_safe _
  | textLeft _ =>
      obtain ⟨s, hs⟩ := add_of_text (Or.inl ha)
      rw [hs]
      exact .pure (.text s)
  | textRight _ =>
      obtain ⟨s, hs⟩ := add_of_text (Or.inr hb)
      rw [hs]
      exact .pure (.text s)
  | sub | mul =>
      cases ha; cases hb
      exact checkedInt_safe _
  | div =>
      cases ha; cases hb
      unfold apply
      dsimp only
      split
      · exact .throw (by decide)
      · exact checkedInt_safe _
  | rem =>
      cases ha; cases hb
      unfold apply
      dsimp only
      split
      · exact .throw (by decide)
      · split
        · exact .throw (by decide)
        · exact checkedInt_safe _
  | lt | le | gt | ge =>
      cases ha; cases hb
      exact .pure (.bool _)
  | eq | ne => exact .pure (.bool _)
  | and => exact absurd rfl hand
  | or => exact absurd rfl hor

end BinaryOp

/-! ## Names and calls -/

/-- The types that names are judged by are those of well typed variables. -/
structure Agrees (types : Table Ty) (bindings : Table Binding) : Prop where
  types : ∀ name, types.get? name = (bindings.get? name).map (·.ty)
  wellTyped : ∀ name b, bindings.get? name = some b → b.WellTyped

/-- A name with a type stands for a variable of that type. -/
theorem Agrees.lookup {types : Table Ty} {bindings : Table Binding} (agrees : Agrees types bindings)
    {name : String} {ty : Ty} (h : types.get? name = some ty) :
    ∃ b, Script.lookup bindings name = .ok b ∧ b.ty = ty ∧ b.WellTyped := by
  rw [agrees.types] at h
  obtain ⟨b, hb, hty⟩ := Option.map_eq_some_iff.1 h
  refine ⟨b, ?_, hty, agrees.wellTyped name b hb⟩
  unfold Script.lookup
  rw [hb]

/-- An expression whose judgement can be relied on: the type is one that expressions have,
and evaluation is safe. The value counts only where the type has one; only a delay is a task. -/
structure Sound (types : Table Ty) (bindings : Table Binding) (expr : Expr) : Prop where
  known : (judge types expr).ty.isKnown = true
  delay : (judge types expr).ty = .task → ∃ ms loc, expr = .call Builtin.delay.path [ms] loc ∧
    Safe (Eval.int (eval bindings ms)) fun _ => True
  safe : (∀ task loc, expr ≠ .await task loc) → Safe (eval bindings expr) fun value =>
    (judge types expr).ty.hasValue = true → HasType value (judge types expr).ty

section

variable {types : Table Ty} {bindings : Table Binding}

/-- Waiting gives no value, even where something is wrong with it. -/
theorem judgeAwait_ty (awaited : Ty) (loc : Location) :
    (judgeAwait awaited loc).ty = .void ∨ (judgeAwait awaited loc).ty = .invalid := by
  cases awaited with
  | task => exact Or.inl rfl
  | _ => exact Or.inr rfl

/-- The value of a sound expression whose type has one. -/
theorem Sound.value {expr : Expr} (h : Sound types bindings expr)
    (hvalue : (judge types expr).ty.hasValue = true) :
    Safe (eval bindings expr) (HasType · (judge types expr).ty) := by
  refine (h.safe ?_).mono fun value hty => hty hvalue
  rintro task loc rfl
  have hknown := h.known
  have hvoid : (judge types (.await task loc)).ty = .void ∨
      (judge types (.await task loc)).ty = .invalid := judgeAwait_ty _ loc
  rcases hvoid with hty | hty
  · rw [hty] at hvalue
    cases hvalue
  · rw [hty] at hknown
    cases hknown

theorem Sound.of_value {expr : Expr} {ty : Ty} (hty : (judge types expr).ty = ty)
    (hknown : ty.isKnown = true) (hvalue : ty.hasValue = true)
    (hsafe : Safe (eval bindings expr) (HasType · ty)) : Sound types bindings expr where
  known := by rwa [hty]
  delay := by
    intro htask
    rw [← hty, htask] at hvalue
    cases hvalue
  safe := by
    intro _
    rw [hty]
    exact hsafe.mono fun value hvalue _ => hvalue

theorem lengthOf_safe {value : Value} (h : HasType value .string) :
    Safe (Eval.ofExcept (lengthOf value)) (HasType · .int) := by
  cases h with
  | text s => exact .pure (.int _)
  | nullText => exact .throw (by decide)

theorem sound_of_name (agrees : Agrees types bindings) {path : Path} {loc : Location}
    (h : Accepted (judge types (.name path loc)).findings) :
    Sound types bindings (.name path loc) := by
  have hname : judge types (.name path loc) = judgeName types path loc := by rw [judge]
  have heval : eval bindings (.name path loc) = Eval.ofExcept (evalName bindings path) := by
    rw [eval]
  suffices hsafe : (judgeName types path loc).ty.isStorable = true ∧
      Safe (Eval.ofExcept (evalName bindings path)) (HasType · (judgeName types path loc).ty) by
    rw [← heval] at hsafe
    exact .of_value (congrArg (·.ty) hname) (Ty.isKnown_of_isStorable hsafe.1)
      (Ty.hasValue_of_isStorable hsafe.1) hsafe.2
  rw [hname] at h
  unfold judgeName at h ⊢
  unfold evalName
  cases hty : types.get? path.head with
  | none =>
      rw [hty] at h
      dsimp only at h
      split at h <;> exact absurd h (not_accepted_cons rfl)
  | some ty =>
      rw [hty] at h
      obtain ⟨b, hlookup, rfl, hb⟩ := agrees.lookup hty
      dsimp only at h ⊢
      rw [hlookup]
      split
      · exact ⟨hb.storable, .pure hb.valued⟩
      · rename_i hmembers
        rw [if_neg hmembers] at h
        split
        · rename_i hlength
          rw [if_pos hlength.2]
          have htext := hb.valued
          rw [hlength.1] at htext
          exact ⟨rfl, lengthOf_safe htext⟩
        · rename_i hother
          rw [if_neg hother] at h
          have hvalid : b.ty ≠ .invalid := by
            intro hinvalid
            have hstorable := hb.storable
            rw [hinvalid] at hstorable
            cases hstorable
          rw [if_neg hvalid] at h
          exact absurd h (not_accepted_cons rfl)

theorem not_accepted_judgeUnknownCall {target : Path} {loc : Location} :
    ¬Accepted (judgeUnknownCall types target loc).findings := by
  unfold judgeUnknownCall
  split
  · exact not_accepted_cons rfl
  · split
    · exact not_accepted_cons rfl
    · split <;> exact not_accepted_cons rfl

/-- An argument that is taken for a whole number is judged as one. -/
theorem Sound.judge_eq_int {expr : Expr} (h : Sound types bindings expr)
    (htakes : takesArgument .int (judge types expr).ty = true) : (judge types expr).ty = .int := by
  have hknown := h.known
  generalize (judge types expr).ty = ty at htakes hknown
  cases ty <;> first
    | rfl
    | exact absurd htakes (by decide)
    | exact absurd hknown (by decide)

/-- An argument that is taken for a whole number gives one. -/
theorem Sound.int {expr : Expr} (h : Sound types bindings expr)
    (htakes : takesArgument .int (judge types expr).ty = true) :
    Safe (Eval.int (eval bindings expr)) fun _ => True := by
  have hty := h.judge_eq_int htakes
  apply Safe.int
  have hvalue := h.value (by rw [hty]; rfl)
  rwa [hty] at hvalue

/-- An argument that is taken for a parameter of every type has a value. -/
theorem Sound.object {expr : Expr} (h : Sound types bindings expr)
    (htakes : takesArgument .object (judge types expr).ty = true) :
    Safe (eval bindings expr) fun _ => True := by
  have hvalue : (judge types expr).ty.hasValue = true := by
    generalize (judge types expr).ty = ty at htakes
    cases ty <;> first | rfl | cases htakes
  exact (h.value hvalue).mono fun _ _ => trivial

theorem accepted_argument {parameter : Ty} {argument : Placed Ty} {position : Nat}
    {parameters : List Ty} {arguments : List (Placed Ty)}
    (h : Accepted (judgeArguments position (parameter :: parameters) (argument :: arguments))) :
    takesArgument parameter argument.val = true ∧
      Accepted (judgeArguments (position + 1) parameters arguments) := by
  rw [judgeArguments, accepted_append] at h
  refine ⟨?_, h.2⟩
  by_cases htakes : takesArgument parameter argument.val = true
  · exact htakes
  · rw [if_neg htakes] at h
    exact absurd h.1 (not_accepted_cons rfl)

/-- What a call is judged on: its method has a parameter list of the length of the arguments,
which takes them. -/
theorem overload_of_accepted {target : Path} {arguments : List (Placed Ty)} {loc : Location}
    (h : Accepted (judgeCall types target arguments loc).findings) :
    ∃ method parameters, Builtin.ofPath? target = some method ∧
      method.overloads.find? (·.length == arguments.length) = some parameters ∧
      Accepted (judgeArguments 1 parameters arguments) ∧
      (judgeCall types target arguments loc).ty = method.result := by
  unfold judgeCall at h ⊢
  cases hmethod : Builtin.ofPath? target with
  | none =>
      rw [hmethod] at h
      exact absurd h not_accepted_judgeUnknownCall
  | some method =>
      rw [hmethod] at h
      dsimp only at h ⊢
      cases hfind : method.overloads.find? (·.length == arguments.length) with
      | none =>
          rw [hfind] at h
          exact absurd h (not_accepted_cons rfl)
      | some parameters =>
          rw [hfind] at h
          exact ⟨method, parameters, rfl, hfind, h, rfl⟩

/-- A call of a method on as many arguments as it takes, each of them taken, is safe. -/
theorem evalCall_safe {target : Path} {method : Builtin} {args : List Expr} {parameters : List Ty}
    (hmethod : Builtin.ofPath? target = some method)
    (hfind : method.overloads.find? (·.length == args.length) = some parameters)
    (htakes : Accepted (judgeArguments 1 parameters
      (args.map fun e => ⟨(judge types e).ty, e.loc⟩)))
    (hargs : ∀ e ∈ args, Sound types bindings e) :
    Safe (evalCall target (args.map (eval bindings))) fun value =>
      method.result.hasValue = true → HasType value method.result := by
  unfold evalCall
  rw [hmethod]
  rcases args with _ | ⟨first, _ | ⟨second, _ | ⟨third, rest⟩⟩⟩
  · cases method with
    | writeLine => exact (Safe.write _).bind fun _ _ => .pure nofun
    | write | max | min | abs | delay => cases hfind
  · have hfirst := hargs first List.mem_cons_self
    cases method with
    | writeLine =>
        cases hfind
        have harg := hfirst.object (accepted_argument htakes).1
        exact harg.bind fun value _ => (Safe.write _).bind fun _ _ =>
          (Safe.write _).bind fun _ _ => .pure nofun
    | write =>
        cases hfind
        have harg := hfirst.object (accepted_argument htakes).1
        exact harg.bind fun value _ => (Safe.write _).bind fun _ _ => .pure nofun
    | abs =>
        cases hfind
        refine (hfirst.int (accepted_argument htakes).1).bind fun n _ => ?_
        split
        · exact .throw (by decide)
        · exact .pure fun _ => .int _
    | delay =>
        cases hfind
        have hwait : Safe (discard (Eval.int (eval bindings first))) fun _ => True :=
          (hfirst.int (accepted_argument htakes).1).map fun _ _ => trivial
        exact hwait.bind fun _ _ => .pure nofun
    | max | min => cases hfind
  · have hfirst := hargs first List.mem_cons_self
    have hsecond := hargs second (List.mem_cons_of_mem _ List.mem_cons_self)
    cases method with
    | max | min =>
        cases hfind
        obtain ⟨hone, hrest⟩ := accepted_argument htakes
        refine (hfirst.int hone).bind fun a _ => ?_
        exact (hsecond.int (accepted_argument hrest).1).bind fun b _ => .pure fun _ => .int _
    | writeLine | write | abs | delay => cases hfind
  · cases method <;> cases hfind

/-! ## Expressions -/

theorem judgeAll_types (args : List Expr) :
    (judgeAll types args).1 = args.map fun e => ⟨(judge types e).ty, e.loc⟩ := by
  induction args with
  | nil => rw [judgeAll]; rfl
  | cons expr exprs ih =>
      rw [judgeAll, List.map_cons, ← ih]

theorem sound_of_literal (value : Value) (loc : Location) :
    Sound types bindings (.literal value loc) := by
  have hjudged : (judge types (.literal value loc)).ty = .ofValue value := by
    rw [judge]
    rfl
  have hvalue : HasType value (.ofValue value) := by
    cases value <;> constructor
  apply Sound.of_value hjudged
  · cases value <;> rfl
  · cases value <;> rfl
  · rw [eval]
    exact .pure hvalue

/-- The judged type of an operation on a sound operand is the type that the operator wants. -/
theorem unary_of_accepted {op : UnaryOp} {operand : Ty} {loc : Location}
    (h : Accepted (judgeUnary op operand loc).findings) (hknown : operand.isKnown = true) :
    operand = op.operandType ∧ (judgeUnary op operand loc).ty = op.operandType := by
  unfold judgeUnary at h ⊢
  split at h
  · rename_i hinvalid
    rw [hinvalid] at hknown
    cases hknown
  · rename_i hvalid
    rw [if_neg hvalid]
    split at h
    · rename_i hoperand
      rw [if_pos hoperand]
      exact ⟨hoperand, hoperand⟩
    · exact absurd h (not_accepted_cons rfl)

theorem sound_of_unary {op : UnaryOp} {operand : Expr} {loc : Location}
    (h : Accepted (judge types (.unary op operand loc)).findings)
    (hoperand : Sound types bindings operand) : Sound types bindings (.unary op operand loc) := by
  rw [judge] at h
  obtain ⟨hty, hresult⟩ := unary_of_accepted (accepted_append.1 h).2 hoperand.known
  have hjudged : (judge types (.unary op operand loc)).ty = op.operandType := by
    rw [judge]
    exact hresult
  cases op with
  | negate =>
      have hvalue := hoperand.value (by rw [hty]; rfl)
      rw [hty] at hvalue
      apply Sound.of_value hjudged rfl rfl
      rw [eval]
      exact hvalue.int.bind fun n _ => checkedInt_safe _
  | not =>
      have hvalue := hoperand.value (by rw [hty]; rfl)
      rw [hty] at hvalue
      apply Sound.of_value hjudged rfl rfl
      rw [eval]
      exact hvalue.bool.bind fun b _ => .pure (.bool _)

/-- An operation on operands of known types that is accepted is one that is allowed. -/
theorem allowed_of_accepted {op : BinaryOp} {left right : Ty} {loc : Location}
    (h : Accepted (judgeBinary op left right loc).findings) (hleft : left.isKnown = true)
    (hright : right.isKnown = true) :
    op.Allowed left right (judgeBinary op left right loc).ty := by
  unfold judgeBinary at h ⊢
  split at h
  · rename_i hinvalid
    rcases hinvalid with rfl | rfl
    · cases hleft
    · cases hright
  · rename_i hvalid
    rw [if_neg hvalid]
    cases hresult : op.resultType left right with
    | none =>
        rw [hresult] at h
        exact absurd h (not_accepted_cons rfl)
    | some ty => exact BinaryOp.allowed_of_resultType hresult

theorem sound_of_binary {op : BinaryOp} {left right : Expr} {loc : Location}
    (h : Accepted (judge types (.binary op left right loc)).findings)
    (hleft : Sound types bindings left) (hright : Sound types bindings right) :
    Sound types bindings (.binary op left right loc) := by
  rw [judge] at h
  have hallowed := allowed_of_accepted (accepted_append.1 h).2 hleft.known hright.known
  obtain ⟨hlvalue, hrvalue⟩ := hallowed.operands_hasValue
  have hl := hleft.value hlvalue
  have hr := hright.value hrvalue
  have hjudged : (judge types (.binary op left right loc)).ty =
      (judgeBinary op (judge types left).ty (judge types right).ty loc).ty := by
    rw [judge]
    rfl
  apply Sound.of_value hjudged (Ty.isKnown_of_isStorable hallowed.isStorable)
    (Ty.hasValue_of_isStorable hallowed.isStorable)
  generalize (judgeBinary op (judge types left).ty (judge types right).ty loc).ty = ty at hallowed
  generalize (judge types left).ty = lty at hallowed hl
  generalize (judge types right).ty = rty at hallowed hr
  by_cases hand : op = .and
  · subst hand
    cases hallowed
    rw [eval]
    refine hl.bool.bind fun b _ => ?_
    split
    · exact hr.bool.bind fun c _ => .pure (.bool c)
    · exact .pure (.bool false)
  · by_cases hor : op = .or
    · subst hor
      cases hallowed
      rw [eval]
      refine hl.bool.bind fun b _ => ?_
      split
      · exact .pure (.bool true)
      · exact hr.bool.bind fun c _ => .pure (.bool c)
    · rw [eval]
      · exact hl.bind fun a ha => hr.bind fun b hb => hallowed.apply_safe hand hor ha hb
      · exact hand
      · exact hor

/-- A task has one argument. -/
theorem argument_of_task {method : Builtin} {args : List Expr} {parameters : List Ty}
    (htask : method.result = .task)
    (hfind : method.overloads.find? (·.length == args.length) = some parameters) :
    ∃ ms, args = [ms] := by
  cases method with
  | delay =>
      rcases args with _ | ⟨ms, _ | ⟨second, rest⟩⟩
      · cases hfind
      · exact ⟨ms, rfl⟩
      · cases hfind
  | _ => cases htask

theorem sound_of_call {target : Path} {args : List Expr} {loc : Location}
    (h : Accepted (judge types (.call target args loc)).findings)
    (hargs : ∀ e ∈ args, Sound types bindings e) :
    Sound types bindings (.call target args loc) := by
  rw [judge] at h
  obtain ⟨method, parameters, hmethod, hfind, htakes, hty⟩ :=
    overload_of_accepted (accepted_append.1 h).2
  have hjudged : (judge types (.call target args loc)).ty = method.result := by
    rw [judge]
    exact hty
  rw [judgeAll_types, List.length_map] at hfind
  rw [judgeAll_types] at htakes
  constructor
  · rw [hjudged]
    cases method <;> rfl
  · intro htask
    rw [hjudged] at htask
    obtain ⟨ms, rfl⟩ := argument_of_task htask hfind
    have hpath := List.find?_some hmethod
    cases method <;> cases htask
    cases hfind
    refine ⟨ms, loc, ?_, (hargs ms List.mem_cons_self).int (accepted_argument htakes).1⟩
    rw [beq_iff_eq.1 hpath]
  · intro _
    rw [hjudged, eval]
    exact evalCall_safe hmethod hfind htakes hargs

theorem sound_of_await {task : Expr} {loc : Location}
    (h : Accepted (judge types (.await task loc)).findings)
    (htask : Sound types bindings task) : Sound types bindings (.await task loc) := by
  rw [judge] at h
  have hjudged : (judge types (.await task loc)).ty = (judgeAwait (judge types task).ty loc).ty := by
    rw [judge]
    rfl
  have hknown := htask.known
  constructor
  · rw [hjudged]
    generalize (judge types task).ty = awaited at h hknown
    cases awaited with
    | task => rfl
    | invalid => cases hknown
    | _ => exact absurd (accepted_append.1 h).2 (not_accepted_cons rfl)
  · intro hnever
    rw [hjudged] at hnever
    rcases judgeAwait_ty (judge types task).ty loc with hty | hty
    · cases hty.symm.trans hnever
    · cases hty.symm.trans hnever
  · intro hother
    exact absurd rfl (hother task loc)

mutual

/-- An expression that the check finds nothing wrong with is sound. -/
theorem sound_of_judge (agrees : Agrees types bindings) :
    ∀ expr, Accepted (judge types expr).findings → Sound types bindings expr
  | .literal value loc, _ => sound_of_literal value loc
  | .name path loc, h => sound_of_name agrees h
  | .unary op operand loc, h => by
      have hfindings := h
      rw [judge] at hfindings
      exact sound_of_unary h (sound_of_judge agrees operand (accepted_append.1 hfindings).1)
  | .binary op left right loc, h => by
      have hfindings := h
      rw [judge] at hfindings
      obtain ⟨hleft, hright⟩ := accepted_append.1 (accepted_append.1 hfindings).1
      exact sound_of_binary h (sound_of_judge agrees left hleft) (sound_of_judge agrees right hright)
  | .call target args loc, h => by
      have hfindings := h
      rw [judge] at hfindings
      exact sound_of_call h (sound_of_judgeAll agrees args (accepted_append.1 hfindings).1)
  | .await task loc, h => by
      have hfindings := h
      rw [judge] at hfindings
      exact sound_of_await h (sound_of_judge agrees task (accepted_append.1 hfindings).1)

theorem sound_of_judgeAll (agrees : Agrees types bindings) :
    ∀ exprs, Accepted (judgeAll types exprs).2 → ∀ e ∈ exprs, Sound types bindings e
  | [], _ => by
      rintro e ⟨⟩
  | expr :: exprs, h => by
      rw [judgeAll] at h
      obtain ⟨hfirst, hothers⟩ := accepted_append.1 h
      intro e he
      rcases List.mem_cons.1 he with heq | he
      · rw [heq]
        exact sound_of_judge agrees expr hfirst
      · exact sound_of_judgeAll agrees exprs hothers e he

end

end

end ScriptHost.Script
