import ScriptHost.Proofs.Script.ExactValues
import ScriptHost.Proofs.Script.Soundness
import ScriptHost.Proofs.Text.Sizes

/-!
# Evaluation and exact values

Evaluation with words of sixty-four bits and the exact meaning of an expression go side by side up
to the first calculation that does not give a word. There evaluation stops with the fault of that
calculation; if there is none it comes to the exact value.

## Implementation notes

A computation follows a course step by step, so there is one lemma for each operator, and the binds
of both sides are taken together. That an operand is of the wanted kind is known from the check.
A length is one of the calculations that always give a word, since no text in memory is longer than
the greatest word.
-/

namespace ScriptHost.Script

/-! ## Words -/

section

variable {n : Int}

theorem isWord_toInt (w : Int64) : Calculation.IsWord w.toInt := ⟨w.le_toInt, w.toInt_lt⟩

theorem checkedInt_of_isWord (h : Calculation.IsWord n) :
    ∃ w : Int64, checkedInt n = .ok (.int w) ∧ w.toInt = n := by
  have hmin := Int64.toInt_minValue
  have hmax : Int64.maxValue.toInt = 2 ^ 63 - 1 := by decide
  refine ⟨.ofInt n, ?_, Int64.toInt_ofInt_of_le h.1 h.2⟩
  have hin : Int64.minValue.toInt ≤ n ∧ n ≤ Int64.maxValue.toInt := by
    obtain ⟨hlow, hhigh⟩ := h
    omega
  rw [checkedInt, Value.wordOf?, if_pos hin]

theorem checkedInt_of_not_isWord (h : ¬Calculation.IsWord n) : checkedInt n = .error overflow := by
  have hmin := Int64.toInt_minValue
  have hmax : Int64.maxValue.toInt = 2 ^ 63 - 1 := by decide
  have hout : ¬(Int64.minValue.toInt ≤ n ∧ n ≤ Int64.maxValue.toInt) := by
    rintro ⟨hlow, hhigh⟩
    exact h ⟨by omega, by omega⟩
  rw [checkedInt, Value.wordOf?, if_neg hout]

end

/-! ## Computations that follow a course -/

/-- While all calculations of the course give words, the computation comes to the value that the
course comes to; else it stops with what is wrong with the first that does not. It writes
nothing. -/
structure Follows {α β : Type} (exact : α → β) (p : Eval α) (c : Course β) : Prop where
  ends : ∀ written, match c.firstWrong? with
    | none => ∃ a, c.outcome = some (exact a) ∧ p written = .ok a written
    | some step => p written = .error step.fault written

namespace Follows

variable {α β γ δ : Type} {exact : α → β} {p : Eval α} {c : Course β}

theorem pure (a : α) : Follows exact (Pure.pure a) (Pure.pure (exact a)) :=
  ⟨fun _ => ⟨a, rfl, rfl⟩⟩

/-- The values on the way may be relied on to be of a kind that is known of the computation. -/
theorem bind {exact' : γ → δ} {f : α → Eval γ} {g : β → Course δ} {wanted : α → Prop}
    (hp : Follows exact p c) (hsafe : Safe p wanted)
    (hf : ∀ a, wanted a → Follows exact' (f a) (g (exact a))) :
    Follows exact' (p >>= f) (c >>= g) := by
  refine ⟨fun written => ?_⟩
  have hfirst := hp.ends written
  cases hwrong : c.firstWrong? with
  | some step =>
      rw [hwrong] at hfirst
      have hwhole : (c >>= g).firstWrong? = some step := by
        show (c.andThen g).firstWrong? = some step
        unfold Course.andThen
        split
        · exact hwrong
        · rw [Course.firstWrong?, List.find?_append, ← Course.firstWrong?, hwrong, Option.some_or]
      rw [hwhole]
      exact Computation.bind_of_error hfirst f
  | none =>
      rw [hwrong] at hfirst
      obtain ⟨a, houtcome, hvalue⟩ := hfirst
      have hwanted : wanted a := by
        have hkind := hsafe written
        rwa [hvalue] at hkind
      have hwhole : c >>= g = ⟨c.made ++ (g (exact a)).made, (g (exact a)).outcome⟩ := by
        show c.andThen g = _
        rw [Course.andThen, houtcome]
      rw [hwhole, Computation.bind_of_ok hvalue f, Course.firstWrong?, List.find?_append,
        ← Course.firstWrong?, hwrong, Option.none_or]
      exact (hf a hwanted).ends written

/-- A calculation that gives a word. -/
theorem right {step : Calculation} {w : Int64} (hresult : step.result = some w.toInt)
    (hallowed : step.isRefused = false) :
    Follows Exact.ofValue (Pure.pure (.int w)) (.number step) := by
  have hword : step.givesWord = true := by
    rw [Calculation.givesWord, hresult, hallowed]
    exact Bool.and_true _ ▸ decide_eq_true (isWord_toInt w)
  have hnone : (Course.number step).firstWrong? = none :=
    List.find?_eq_none.2 (List.forall_mem_singleton.2 (by rw [hword]; decide))
  refine ⟨fun written => ?_⟩
  rw [hnone, Course.number, hresult]
  exact ⟨.int w, rfl, rfl⟩

/-- A calculation that goes wrong. -/
theorem wrong {step : Calculation} {fault : Fault} (h : step.givesWord = false)
    (hfault : step.fault = fault) :
    Follows Exact.ofValue (throw fault : Eval Value) (.number step) := by
  have hsome : (Course.number step).firstWrong? = some step :=
    List.find?_cons_of_pos (by rw [h]; rfl)
  refine ⟨fun written => ?_⟩
  rw [hsome, ← hfault]
  rfl

/-- A calculation of which the result is checked. -/
theorem checked {step : Calculation} {n : Int} (hresult : step.result = some n)
    (hallowed : step.isRefused = false) (hfault : step.fault = overflow) :
    Follows Exact.ofValue (Eval.ofExcept (checkedInt n)) (.number step) := by
  by_cases hword : Calculation.IsWord n
  · obtain ⟨w, hchecked, rfl⟩ := checkedInt_of_isWord hword
    rw [hchecked]
    exact right hresult hallowed
  · rw [checkedInt_of_not_isWord hword]
    refine wrong ?_ hfault
    rw [Calculation.givesWord, hresult, Option.any_some, decide_eq_false hword, Bool.false_and]

/-- Two tests that agree. -/
theorem truth {holds holds' : Prop} [Decidable holds] [Decidable holds'] (h : holds ↔ holds') :
    Follows Exact.ofValue (Pure.pure (.bool (decide holds)))
      (Pure.pure (.bool (decide holds'))) := by
  rw [decide_eq_decide.2 h]
  exact pure (Value.bool (decide holds'))

theorem int {p : Eval Value} {c : Course Exact} (h : Follows Exact.ofValue p c)
    (hsafe : Safe p (HasType · .int)) : Follows Int64.toInt (Eval.int p) c.int := by
  refine h.bind hsafe fun value hvalue => ?_
  cases hvalue with
  | int n => exact pure n

theorem bool {p : Eval Value} {c : Course Exact} (h : Follows Exact.ofValue p c)
    (hsafe : Safe p (HasType · .bool)) : Follows id (Eval.bool p) c.bool := by
  refine h.bind hsafe fun value hvalue => ?_
  cases hvalue with
  | bool b => exact pure b

end Follows

/-! ## Operators -/

theorem toInt_eq_zero_iff {w : Int64} : w.toInt = 0 ↔ w = 0 := by
  rw [← Int64.toInt_zero, Int64.toInt_inj]

/-- A text is joined with any value, as the exact one is. -/
theorem follows_joined {a b : Value} (h : HasType a .string ∨ HasType b .string) :
    Follows Exact.ofValue (Eval.ofExcept (BinaryOp.add.apply a b))
      (BinaryOp.add.exact (.ofValue a) (.ofValue b)) := by
  have hexact : BinaryOp.add.exact (.ofValue a) (.ofValue b) =
      pure (Exact.text ((Exact.ofValue a).render ++ (Exact.ofValue b).render)) := by
    rcases h with h | h
    · cases h <;> rfl
    · cases h <;> cases a <;> rfl
  have happly : BinaryOp.add.apply a b = .ok (.text (a.render ++ b.render)) := by
    rcases h with h | h
    · cases h <;> rfl
    · cases h <;> cases a <;> rfl
  rw [hexact, happly, Exact.render_ofValue, Exact.render_ofValue]
  exact .pure (Value.text (a.render ++ b.render))

theorem follows_div (a b : Int64) :
    Follows Exact.ofValue (Eval.ofExcept (BinaryOp.div.apply (.int a) (.int b)))
      (.number (.div a.toInt b.toInt)) := by
  show Follows Exact.ofValue
    (Eval.ofExcept (if b = 0 then .error divisionByZero else checkedInt (a.toInt.tdiv b.toInt))) _
  by_cases hzero : b = 0
  · subst hzero
    exact .wrong rfl rfl
  · have hdivisor : b.toInt ≠ 0 := mt toInt_eq_zero_iff.1 hzero
    rw [if_neg hzero]
    exact .checked (if_neg hdivisor) rfl (if_neg hdivisor)

/-- The one remainder that is refused is that of the least word by minus one. -/
theorem follows_rem (a b : Int64) :
    Follows Exact.ofValue (Eval.ofExcept (BinaryOp.rem.apply (.int a) (.int b)))
      (.number (.rem a.toInt b.toInt)) := by
  show Follows Exact.ofValue
    (Eval.ofExcept (if b = 0 then .error divisionByZero
      else if a = Int64.minValue ∧ b = -1 then .error overflow
      else checkedInt (a.toInt.tmod b.toInt))) _
  by_cases hzero : b = 0
  · subst hzero
    exact .wrong rfl rfl
  · have hdivisor : b.toInt ≠ 0 := mt toInt_eq_zero_iff.1 hzero
    have hleast : a.toInt = -2 ^ 63 ↔ a = Int64.minValue := by
      rw [← Int64.toInt_minValue, Int64.toInt_inj]
    have hminus : b.toInt = -1 ↔ b = -1 := by
      rw [← Int64.toInt_inj]
      rfl
    have hrefused : (Calculation.rem a.toInt b.toInt).isRefused = true ↔
        a = Int64.minValue ∧ b = -1 := by
      rw [Calculation.isRefused, Bool.and_eq_true, decide_eq_true_iff, decide_eq_true_iff, hleast,
        hminus]
    rw [if_neg hzero]
    split
    · rename_i hboth
      refine .wrong ?_ (if_neg hdivisor)
      rw [Calculation.givesWord, hrefused.2 hboth, Bool.not_true, Bool.and_false]
    · rename_i hneither
      exact .checked (if_neg hdivisor) (Bool.eq_false_iff.2 (mt hrefused.1 hneither))
        (if_neg hdivisor)

/-- On values of the types it was judged on an operator follows the exact one. -/
theorem BinaryOp.Allowed.follows {op : BinaryOp} {left right ty : Ty} {a b : Value}
    (h : op.Allowed left right ty) (hand : op ≠ .and) (hor : op ≠ .or) (ha : HasType a left)
    (hb : HasType b right) :
    Follows Exact.ofValue (Eval.ofExcept (op.apply a b))
      (op.exact (.ofValue a) (.ofValue b)) := by
  cases h with
  | sum | sub | mul =>
      cases ha; cases hb
      exact .checked rfl rfl rfl
  | textLeft _ => exact follows_joined (.inl ha)
  | textRight _ => exact follows_joined (.inr hb)
  | div =>
      cases ha; cases hb
      exact follows_div _ _
  | rem =>
      cases ha; cases hb
      exact follows_rem _ _
  | lt | gt =>
      cases ha; cases hb
      exact .truth Int64.lt_iff_toInt_lt
  | le | ge =>
      cases ha; cases hb
      exact .truth Int64.le_iff_toInt_le
  | eq => exact .truth Exact.ofValue_inj.symm
  | ne => exact .truth (not_congr Exact.ofValue_inj.symm)
  | and => exact absurd rfl hand
  | or => exact absurd rfl hor

theorem BinaryOp.Allowed.operands_bool {op : BinaryOp} {left right ty : Ty}
    (h : op.Allowed left right ty) (hop : op = .and ∨ op = .or) : left = .bool ∧ right = .bool := by
  rcases hop with rfl | rfl <;> (cases h; exact ⟨rfl, rfl⟩)

/-! ## Names and calls -/

/-- The texts that variables hold are such as a machine can hold: none has as many bytes as there
are words that are not negative. -/
def FitsMemory (bindings : Table Binding) : Prop :=
  ∀ name b s, bindings.get? name = some b → b.value = .text s → s.utf8ByteSize < 2 ^ 63

theorem wideUnits_eq_unitCount (s : String) : wideUnits s = Text.unitCount s := by
  rw [wideUnits, Text.unitCount]
  induction s.toList with
  | nil => rfl
  | cons c cs ih =>
      rw [List.map_cons, List.sum_cons, ih, Text.unitsOf, Text.charUnits]
      rfl

theorem follows_length {value : Value} (h : HasType value .string)
    (hfits : ∀ s, value = .text s → s.utf8ByteSize < 2 ^ 63) :
    Follows Exact.ofValue (Eval.ofExcept (lengthOf value)) (meaningOfLength value) := by
  cases h with
  | text s =>
      have hsize := Nat.lt_of_le_of_lt (Text.unitCount_le_utf8ByteSize s) (hfits s rfl)
      have hlength : (wideUnits s : Int) = (Int64.ofNat (Text.unitCount s)).toInt := by
        rw [Int64.toInt_ofNat_of_lt hsize, wideUnits_eq_unitCount]
      have hresult : (Calculation.length (some s)).result =
          some (Int64.ofNat (Text.unitCount s)).toInt := congrArg some hlength
      rw [lengthOf, meaningOfLength, Eval.ofExcept]
      exact .right hresult rfl
  | nullText => exact .wrong rfl rfl

section

variable {types : Table Ty} {bindings : Table Binding}

theorem follows_name (agrees : Agrees types bindings) (hfits : FitsMemory bindings) {path : Path}
    {loc : Location} (h : Accepted (judgeName types path loc).findings) :
    Follows Exact.ofValue (Eval.ofExcept (evalName bindings path))
      (meaningOfName bindings path) := by
  cases hty : types.get? path.head with
  | none =>
      rw [judgeName, hty] at h
      dsimp only at h
      split at h <;> exact absurd h (not_accepted_cons rfl)
  | some ty =>
      obtain ⟨b, hb, rfl⟩ := Option.map_eq_some_iff.1 ((agrees.types path.head).symm.trans hty)
      have hwell := agrees.wellTyped path.head b hb
      rw [judgeName, hty] at h
      rw [evalName, meaningOfName, hb, lookup, hb]
      dsimp only at h ⊢
      by_cases hmembers : path.members = []
      · rw [if_pos (List.isEmpty_iff.2 hmembers), if_pos hmembers]
        exact .pure b.value
      · rw [if_neg (mt List.isEmpty_iff.1 hmembers)] at h ⊢
        rw [if_neg hmembers]
        have hlength : b.ty = .string ∧ path.members = ["Length"] := by
          by_contra hother
          have hvalid : b.ty ≠ .invalid := by
            intro hinvalid
            cases hinvalid ▸ hwell.storable
          rw [if_neg hother, if_neg hvalid] at h
          exact not_accepted_cons rfl h
        have htext := hwell.valued
        rw [hlength.1] at htext
        rw [if_pos hlength.2, if_pos hlength.2]
        exact follows_length htext fun s hs => hfits path.head b s hb hs

/-- An expression that the check can be relied on for, and that is evaluated as it is meant
wherever it has a value. -/
structure Meant (types : Table Ty) (bindings : Table Binding) (e : Expr) : Prop where
  sound : Sound types bindings e
  follows : (judge types e).ty.hasValue = true →
    Follows Exact.ofValue (eval bindings e) (meaning bindings e)

namespace Meant

variable {e : Expr}

/-- What goes on with a whole number. -/
theorem int_bind (h : Meant types bindings e) (hty : (judge types e).ty = .int)
    {f : Int64 → Eval Value} {g : Int → Course Exact}
    (hf : ∀ a, Follows Exact.ofValue (f a) (g a.toInt)) :
    Follows Exact.ofValue (Eval.int (eval bindings e) >>= f) ((meaning bindings e).int >>= g) := by
  have hvalue : (judge types e).ty.hasValue = true := by rw [hty]; rfl
  have htyped := h.sound.value hvalue
  rw [hty] at htyped
  exact ((h.follows hvalue).int htyped).bind htyped.int fun a _ => hf a

/-- What goes on with a truth value. -/
theorem bool_bind (h : Meant types bindings e) (hty : (judge types e).ty = .bool)
    {f : Bool → Eval Value} {g : Bool → Course Exact}
    (hf : ∀ b, Follows Exact.ofValue (f b) (g b)) :
    Follows Exact.ofValue (Eval.bool (eval bindings e) >>= f)
      ((meaning bindings e).bool >>= g) := by
  have hvalue : (judge types e).ty.hasValue = true := by rw [hty]; rfl
  have htyped := h.sound.value hvalue
  rw [hty] at htyped
  exact ((h.follows hvalue).bool htyped).bind htyped.bool fun b _ => hf b

end Meant

/-- The greater and the lesser of two words are those of their numbers. -/
theorem toInt_ite_le (a b : Int64) :
    max a.toInt b.toInt = (if a ≤ b then b else a).toInt ∧
      min a.toInt b.toInt = (if a ≤ b then a else b).toInt := by
  by_cases hle : a ≤ b
  · have hint := Int64.le_iff_toInt_le.1 hle
    rw [if_pos hle, if_pos hle]
    exact ⟨max_eq_right hint, min_eq_left hint⟩
  · have hint := le_of_lt (not_le.1 (mt Int64.le_iff_toInt_le.2 hle))
    rw [if_neg hle, if_neg hle]
    exact ⟨max_eq_left hint, min_eq_right hint⟩

/-- Only the least word has no absolute value. -/
theorem follows_abs (a : Int64) :
    Follows Exact.ofValue
      (if a = Int64.minValue then throw noAbsoluteValue
        else return .int (if a < 0 then -a else a) : Eval Value)
      (.number (.abs a.toInt)) := by
  by_cases hleast : a = Int64.minValue
  · rw [if_pos hleast, hleast]
    exact .wrong (by decide) rfl
  · have hresult : (Calculation.abs a.toInt).result = some (if a < 0 then -a else a).toInt := by
      apply congrArg some
      have hlow := a.le_toInt
      have hhigh := a.toInt_lt
      have hnot : a.toInt ≠ -2 ^ 63 := by
        rw [← Int64.toInt_minValue]
        exact mt Int64.toInt_inj.1 hleast
      by_cases hneg : a < 0
      · have hsign : a.toInt < 0 := Int64.lt_iff_toInt_lt.1 hneg
        rw [if_pos hneg, Int64.toInt_neg, Int.bmod_eq_of_le (by omega) (by omega)]
        exact Int.ofNat_natAbs_of_nonpos (le_of_lt hsign)
      · have hsign : 0 ≤ a.toInt := by
          rw [← Int64.toInt_zero]
          exact not_lt.1 (mt Int64.lt_iff_toInt_lt.2 hneg)
        rw [if_neg hneg]
        exact Int.natAbs_of_nonneg hsign
    rw [if_neg hleast]
    exact .right hresult rfl

/-- A call with a value is one of the methods that calculate. -/
theorem follows_call {target : Path} {args : List Expr} {method : Builtin} {parameters : List Ty}
    (hmethod : Builtin.ofPath? target = some method)
    (hfind : method.overloads.find? (·.length == args.length) = some parameters)
    (htakes : Accepted (judgeArguments 1 parameters
      (args.map fun e => ⟨(judge types e).ty, e.loc⟩)))
    (hargs : ∀ e ∈ args, Meant types bindings e) (hvalue : method.result.hasValue = true) :
    Follows Exact.ofValue (evalCall target (args.map (eval bindings)))
      (meaningOfCall target (args.map (meaning bindings))) := by
  unfold evalCall meaningOfCall
  rw [hmethod]
  rcases args with _ | ⟨first, _ | ⟨second, _ | ⟨third, rest⟩⟩⟩
  · cases method with
    | writeLine | write | delay => cases hvalue
    | max | min | abs => cases hfind
  · have hfirst := hargs first List.mem_cons_self
    cases method with
    | writeLine | write | delay => cases hvalue
    | max | min => cases hfind
    | abs =>
        cases hfind
        exact hfirst.int_bind (hfirst.sound.judge_eq_int (accepted_argument htakes).1) follows_abs
  · have hfirst := hargs first List.mem_cons_self
    have hsecond := hargs second (List.mem_cons_of_mem _ List.mem_cons_self)
    cases method with
    | writeLine | write | delay => cases hvalue
    | abs => cases hfind
    | max =>
        cases hfind
        obtain ⟨hone, hrest⟩ := accepted_argument htakes
        refine hfirst.int_bind (hfirst.sound.judge_eq_int hone) fun a => ?_
        refine hsecond.int_bind (hsecond.sound.judge_eq_int (accepted_argument hrest).1) fun b => ?_
        exact .right (congrArg some (toInt_ite_le a b).1) rfl
    | min =>
        cases hfind
        obtain ⟨hone, hrest⟩ := accepted_argument htakes
        refine hfirst.int_bind (hfirst.sound.judge_eq_int hone) fun a => ?_
        refine hsecond.int_bind (hsecond.sound.judge_eq_int (accepted_argument hrest).1) fun b => ?_
        exact .right (congrArg some (toInt_ite_le a b).2) rfl
  · cases method <;> cases hfind

/-! ## Expressions -/

theorem follows_unary {op : UnaryOp} {operand : Expr} {loc : Location}
    (h : Accepted (judge types (.unary op operand loc)).findings)
    (hoperand : Meant types bindings operand) :
    Follows Exact.ofValue (eval bindings (.unary op operand loc))
      (meaning bindings (.unary op operand loc)) := by
  rw [judge] at h
  obtain ⟨hty, -⟩ := unary_of_accepted (accepted_append.1 h).2 hoperand.sound.known
  cases op with
  | negate =>
      rw [eval, meaning]
      exact hoperand.int_bind hty fun a => .checked rfl rfl rfl
  | not =>
      rw [eval, meaning]
      exact hoperand.bool_bind hty fun b => .pure (Value.bool !b)

theorem follows_binary {op : BinaryOp} {left right : Expr} {loc : Location}
    (h : Accepted (judge types (.binary op left right loc)).findings)
    (hleft : Meant types bindings left) (hright : Meant types bindings right) :
    Follows Exact.ofValue (eval bindings (.binary op left right loc))
      (meaning bindings (.binary op left right loc)) := by
  rw [judge] at h
  have hallowed := allowed_of_accepted (accepted_append.1 h).2 hleft.sound.known hright.sound.known
  generalize (judgeBinary op (judge types left).ty (judge types right).ty loc).ty = ty at hallowed
  by_cases hand : op = .and
  · have hbools := hallowed.operands_bool (.inl hand)
    subst hand
    rw [eval, meaning]
    refine hleft.bool_bind hbools.1 fun b => ?_
    split
    · exact hright.bool_bind hbools.2 fun c => .pure (Value.bool c)
    · exact .pure (Value.bool false)
  · by_cases hor : op = .or
    · have hbools := hallowed.operands_bool (.inr hor)
      subst hor
      rw [eval, meaning]
      refine hleft.bool_bind hbools.1 fun b => ?_
      split
      · exact .pure (Value.bool true)
      · exact hright.bool_bind hbools.2 fun c => .pure (Value.bool c)
    · obtain ⟨hlvalue, hrvalue⟩ := hallowed.operands_hasValue
      have hl := hleft.sound.value hlvalue
      have hr := hright.sound.value hrvalue
      rw [eval, meaning]
      · exact (hleft.follows hlvalue).bind hl fun a ha =>
          (hright.follows hrvalue).bind hr fun b hb => hallowed.follows hand hor ha hb
      · exact hand
      · exact hor
      · exact hand
      · exact hor

mutual

/-- An expression that the check finds nothing wrong with is evaluated as it is meant. -/
theorem meant_of_judge (agrees : Agrees types bindings) (hfits : FitsMemory bindings) :
    ∀ e, Accepted (judge types e).findings → Meant types bindings e
  | .literal value loc, h => by
      refine ⟨sound_of_judge agrees _ h, fun _ => ?_⟩
      rw [eval, meaning]
      exact .pure value
  | .name path loc, h => by
      refine ⟨sound_of_judge agrees _ h, fun _ => ?_⟩
      rw [eval, meaning]
      rw [judge] at h
      exact follows_name agrees hfits h
  | .unary op operand loc, h => by
      have hfindings := h
      rw [judge] at hfindings
      have hoperand := meant_of_judge agrees hfits operand (accepted_append.1 hfindings).1
      exact ⟨sound_of_judge agrees _ h, fun _ => follows_unary h hoperand⟩
  | .binary op left right loc, h => by
      have hfindings := h
      rw [judge] at hfindings
      obtain ⟨hleft, hright⟩ := accepted_append.1 (accepted_append.1 hfindings).1
      exact ⟨sound_of_judge agrees _ h, fun _ => follows_binary h
        (meant_of_judge agrees hfits left hleft) (meant_of_judge agrees hfits right hright)⟩
  | .call target args loc, h => by
      refine ⟨sound_of_judge agrees _ h, fun hvalue => ?_⟩
      rw [judge] at h hvalue
      obtain ⟨hfindings, hcall⟩ := accepted_append.1 h
      obtain ⟨method, parameters, hmethod, hfind, htakes, hty⟩ := overload_of_accepted hcall
      rw [judgeAll_types, List.length_map] at hfind
      rw [judgeAll_types] at htakes
      rw [eval, meaning]
      exact follows_call hmethod hfind htakes (meant_of_judgeAll agrees hfits args hfindings)
        (hty ▸ hvalue)
  | .await task loc, h => by
      have hsound := sound_of_judge agrees _ h
      refine ⟨hsound, fun hvalue => ?_⟩
      have hknown := hsound.known
      rw [judge] at hvalue hknown
      rcases judgeAwait_ty (judge types task).ty loc with hty | hty
      · exact absurd hvalue (by rw [Judgement.behind, hty]; decide)
      · exact absurd hknown (by rw [Judgement.behind, hty]; decide)

theorem meant_of_judgeAll (agrees : Agrees types bindings) (hfits : FitsMemory bindings) :
    ∀ exprs, Accepted (judgeAll types exprs).2 → ∀ e ∈ exprs, Meant types bindings e
  | [], _ => by
      rintro e ⟨⟩
  | expr :: exprs, h => by
      rw [judgeAll] at h
      obtain ⟨hfirst, hothers⟩ := accepted_append.1 h
      intro e he
      rcases List.mem_cons.1 he with heq | he
      · rw [heq]
        exact meant_of_judge agrees hfits expr hfirst
      · exact meant_of_judgeAll agrees hfits exprs hothers e he

end

/-- On well typed variables an expression that the check accepts and that has a value is evaluated
as exact integers are. It gives the exact value if and only if every calculation made on the way
gives a word; else it stops with what is wrong with the first one that does not. -/
theorem eval_eq_meaning (agrees : Agrees types bindings) (hfits : FitsMemory bindings) {e : Expr}
    (haccepted : Accepted (judge types e).findings) (hvalue : (judge types e).ty.hasValue = true)
    (written : List String) :
    ((∃ v, (meaning bindings e).outcome = some (.ofValue v) ∧
        eval bindings e written = .ok v written) ↔
      ∀ step ∈ (meaning bindings e).made, step.givesWord = true) ∧
    ∀ step, (meaning bindings e).firstWrong? = some step →
      eval bindings e written = .error step.fault written := by
  have hends := ((meant_of_judge agrees hfits e haccepted).follows hvalue).ends written
  have hright : (meaning bindings e).firstWrong? = none ↔
      ∀ step ∈ (meaning bindings e).made, step.givesWord = true := by
    simp only [Course.firstWrong?, List.find?_eq_none, Bool.not_eq_true', Bool.not_eq_false]
  rw [← hright]
  cases hwrong : (meaning bindings e).firstWrong? with
  | none =>
      rw [hwrong] at hends
      exact ⟨iff_of_true hends rfl, nofun⟩
  | some step =>
      rw [hwrong] at hends
      refine ⟨iff_of_false ?_ nofun, ?_⟩
      · rintro ⟨v, -, hok⟩
        cases hends.symm.trans hok
      · rintro _ ⟨⟩
        exact hends

end

/-- A sum that no word holds is found before the division by zero behind it. The text is one of
three sixteen-bit units. -/
theorem eval_eq_meaning_sum :
    let s : State := ⟨⟨[("n", ⟨.int, .int Int64.maxValue⟩), ("t", ⟨.string, .text "a😀"⟩)]⟩, .empty⟩
    let length : Expr := .name ⟨"t", ["Length"]⟩ ⟨1, 1⟩
    let sum : Expr := .binary .add length (.name ⟨"n", []⟩ ⟨1, 12⟩) ⟨1, 10⟩
    let quotient : Expr := .binary .div sum (.literal (.int 0) ⟨1, 17⟩) ⟨1, 15⟩
    let types := (Scope.ofState s []).types
    s.WellFormed ∧ FitsMemory s.bindings ∧ Accepted (judge types quotient).findings ∧
      (judge types quotient).ty = .int ∧
      (meaning s.bindings quotient).made =
        [.length (some "a😀"), .add 3 (2 ^ 63 - 1), .div (2 ^ 63 + 2) 0] ∧
      eval s.bindings quotient [] = .error overflow [] := by
  intro s length sum quotient types
  have hbound : ∀ name b, s.bindings.get? name = some b →
      b = ⟨.int, .int Int64.maxValue⟩ ∨ b = ⟨.string, .text "a😀"⟩ := by
    intro name b hb
    by_cases hn : name = "n"
    · subst hn
      cases hb
      exact .inl rfl
    · by_cases ht : name = "t"
      · subst ht
        cases hb
        exact .inr rfl
      · have hnone : s.bindings.get? name = none :=
          (Table.lookup_cons_of_ne hn _ _).trans (Table.lookup_cons_of_ne ht _ _)
        cases hnone.symm.trans hb
  have hwell : s.WellFormed := by
    intro name b hb
    rcases hbound name b hb with rfl | rfl
    · exact ⟨rfl, .int _⟩
    · exact ⟨rfl, .text _⟩
  have hfits : FitsMemory s.bindings := by
    intro name b text hb htext
    rcases hbound name b hb with rfl | rfl
    · cases htext
    · cases htext
      decide
  have hjudged : judge types quotient = .clean .int := by
    simp only [quotient, sum, length, judge]
    rfl
  have haccepted : Accepted (judge types quotient).findings := by
    rw [hjudged]
    exact fun _ hf => absurd hf List.not_mem_nil
  have hmeaning : meaning s.bindings quotient =
      ⟨[.length (some "a😀"), .add 3 (2 ^ 63 - 1), .div (2 ^ 63 + 2) 0], none⟩ := by
    simp only [quotient, sum, length, meaning]
    decide +kernel
  have hwrong : (meaning s.bindings quotient).firstWrong? = some (.add 3 (2 ^ 63 - 1)) := by
    rw [hmeaning]
    decide +kernel
  have heval := (eval_eq_meaning (agrees_ofState hwell []) hfits haccepted (by rw [hjudged]; rfl)
    []).2 _ hwrong
  exact ⟨hwell, hfits, haccepted, congrArg Judgement.ty hjudged, congrArg Course.made hmeaning,
    heval⟩

/-- What the left side decides leaves out a division by zero on the right. -/
example :
    let zero : Expr := .literal (.int 0) ⟨1, 14⟩
    let quotient : Expr := .binary .div (.literal (.int 1) ⟨1, 10⟩) zero ⟨1, 12⟩
    let test : Expr := .binary .eq quotient (.literal (.int 0) ⟨1, 19⟩) ⟨1, 16⟩
    let both : Expr := .binary .and (.literal (.bool false) ⟨1, 1⟩) test ⟨1, 7⟩
    eval .empty both [] = .ok (.bool false) [] ∧ (meaning .empty both).made = [] := by
  cbv

end ScriptHost.Script
