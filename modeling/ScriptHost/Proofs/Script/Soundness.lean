import ScriptHost.Proofs.Computation
import ScriptHost.Proofs.Script.ExpressionSoundness
import ScriptHost.Proofs.Supervision.Playing

/-!
# Checked programs run soundly

A program that the check accepts never meets a step that the check should have ruled out,
wherever it is stopped. What it faults with is a fault of the language, the stop, or an
exception that a statement throws. What it leaves has the types that the check gave.
-/

namespace ScriptHost.Script

/-! ## Progress through the statements -/

/-- The run behind a statement that the run goes on from. -/
def Turn.next? : Turn → Option Progress
  | goOn next | pause _ next => some next
  | waitForStop => none

section

variable {returnsValue : Bool} {p next : Progress} {stmt : Stmt} {written : List String}

theorem runStmts_of_goOn (h : runStmt returnsValue p stmt [] = .ok (.goOn next) written)
    (stmts : List Stmt) : runStmts returnsValue p (stmt :: stmts) =
      (runStmts returnsValue next stmts).behind (.yield :: written.map .write) := by
  rw [runStmts, h]

theorem runStmts_of_pause {ms : Nat}
    (h : runStmt returnsValue p stmt [] = .ok (.pause ms next) written) (stmts : List Stmt) :
    runStmts returnsValue p (stmt :: stmts) =
      (runStmts returnsValue next stmts).behind (.yield :: written.map .write ++ [.wait ms]) := by
  rw [runStmts, h]

theorem runStmts_of_waitForStop (h : runStmt returnsValue p stmt [] = .ok .waitForStop written)
    (stmts : List Stmt) : runStmts returnsValue p (stmt :: stmts) =
      ⟨.yield :: written.map .write, .waiting⟩ := by
  rw [runStmts, h]

theorem runStmts_of_error {fault : Fault}
    (h : runStmt returnsValue p stmt [] = .error fault written) (stmts : List Stmt) :
    runStmts returnsValue p (stmt :: stmts) =
      ⟨.yield :: written.map .write, .faulted fault⟩ := by
  rw [runStmts, h]

end

/-- Statements run one after the other, from one point of a run to another. -/
inductive Reaches (returnsValue : Bool) : Progress → List Stmt → Progress → Prop
  | refl (p : Progress) : Reaches returnsValue p [] p
  | step {p next q : Progress} {stmt : Stmt} {stmts : List Stmt} {turn : Turn}
      {written : List String} (run : runStmt returnsValue p stmt [] = .ok turn written)
      (goesOn : turn.next? = some next) (rest : Reaches returnsValue next stmts q) :
      Reaches returnsValue p (stmt :: stmts) q

/-- The message of an exception is left out, or evaluated without a fault. -/
inductive EvaluatesTo (bindings : Table Binding) : Option Expr → Option Value → Prop
  | none : EvaluatesTo bindings none none
  | some {expr : Expr} {value : Value} {written : List String}
      (h : eval bindings expr [] = .ok value written) : EvaluatesTo bindings (some expr) (some value)

/-- The exception of the given name; a missing message and null stand for the usual one. -/
def thrown (kind : String) : Option Value → Fault
  | none | some .null => ⟨kind, defaultMessage kind⟩
  | some value => ⟨kind, value.render⟩

/-- At this point of a run the statement throws the fault. -/
inductive Raises (p : Progress) : Stmt → Fault → Prop
  | throw {exception : Path} {message : Option Expr} {loc : Location} {value : Option Value}
      (h : EvaluatesTo p.state.bindings message value) :
      Raises p (.throw exception message loc) (thrown exception.last value)

/-- A program run on a state comes to a statement that throws the fault. -/
def Program.Throws (program : Program) (prior : State) (fault : Fault) : Prop :=
  ∃ before stmt after p, program.statements = before ++ stmt :: after ∧
    Reaches program.returnsValue ⟨prior, program.declared, none⟩ before p ∧ Raises p stmt fault

/-! ## One statement -/

/-- The statement is an expression that gives the submission its value. -/
def Stmt.isTrailing : Stmt → Bool
  | .eval _ trailing => trailing
  | _ => false

/-- What one accepted statement leaves: variables of the types behind it, the types of the
declarations that are still to come, and, from a trailing expression, its value. -/
structure Continues (returnsValue : Bool) (checked : CheckedStmt) (toCome : List Ty)
    (p : Progress) (stmt : Stmt) (next : Progress) : Prop where
  agrees : Agrees checked.scope.types next.state.bindings
  declared : next.declared = toCome
  silent : returnsValue = false → next.value = p.value
  valued : returnsValue = true → stmt.isTrailing = true → checked.ty.hasValue = true →
    ∃ value, next.value = some value ∧ HasType value checked.ty

variable {returnsValue : Bool} {scope : Scope} {p : Progress} {toCome : List Ty}

/-- A delay that is awaited ends in a wait or in a fault of the language. -/
theorem evalAwait_safe {types : Table Ty} {bindings : Table Binding} {task : Expr}
    (h : Sound types bindings task) (hty : (judge types task).ty = .task) :
    Safe (evalAwait bindings task) fun _ => True := by
  obtain ⟨ms, loc, rfl, hms⟩ := h.delay hty
  unfold evalAwait
  dsimp only
  rw [if_pos rfl]
  refine hms.bind fun n _ => ?_
  split
  · exact .pure trivial
  · split
    · exact .throw (by decide)
    · exact .pure trivial

/-- A variable set to a value of its type. -/
theorem Agrees.set {types : Table Ty} {bindings : Table Binding} (agrees : Agrees types bindings)
    (name : String) {b : Binding} (hb : b.WellTyped) :
    Agrees (types.set name b.ty) (bindings.set name b) where
  types := by
    intro other
    rw [Table.get?_set, Table.get?_set]
    split
    · rfl
    · exact agrees.types other
  wellTyped := by
    intro other c hc
    rw [Table.get?_set] at hc
    split at hc
    · cases hc
      exact hb
    · exact agrees.wellTyped other c hc

/-- A variable set to another value of its type. -/
theorem Agrees.update {types : Table Ty} {bindings : Table Binding} (agrees : Agrees types bindings)
    {name : String} {b : Binding} (hb : b.WellTyped) (hty : types.get? name = some b.ty) :
    Agrees types (bindings.set name b) where
  types := by
    intro other
    rw [Table.get?_set]
    split
    · rename_i heq
      rw [heq, hty]
      rfl
    · exact agrees.types other
  wellTyped := (agrees.set name hb).wellTyped

/-- What is wanted of a statement: a run that goes on from it does so soundly. -/
def Wanted (returnsValue : Bool) (checked : CheckedStmt) (toCome : List Ty) (p : Progress)
    (stmt : Stmt) (turn : Turn) : Prop :=
  ∀ next, turn.next? = some next → Continues returnsValue checked toCome p stmt next

theorem safe_of_using (agrees : Agrees scope.types p.state.bindings) {names : Path} {loc : Location}
    (hdeclared : p.declared = (checkStmt scope (.usingNames names loc)).declared.toList ++ toCome) :
    Safe (runStmt returnsValue p (.usingNames names loc))
      (Wanted returnsValue (checkStmt scope (.usingNames names loc)) toCome p
        (.usingNames names loc)) := by
  apply Safe.pure
  rintro next ⟨⟩
  unfold checkStmt at hdeclared ⊢
  dsimp only at hdeclared ⊢
  refine ⟨?_, ?_, fun _ => rfl, nofun⟩
  · split
    · exact agrees
    · split <;> exact agrees
  · split at hdeclared
    · exact hdeclared
    · split at hdeclared <;> exact hdeclared

/-- A declaration gives a variable of the judged type. -/
theorem declared_of_accepted {ty : Ty} {loc : Location} (hknown : ty.isKnown = true)
    (h : Accepted (judgeDeclared ty loc).findings) :
    (judgeDeclared ty loc).ty = ty ∧ ty.isStorable = true := by
  cases ty with
  | int | bool | string => exact ⟨rfl, rfl⟩
  | null | void | task => exact absurd h (not_accepted_cons rfl)
  | object | invalid => cases hknown

theorem safe_of_declaration (agrees : Agrees scope.types p.state.bindings) {name : String}
    {init : Expr} {loc : Location}
    (h : Accepted (checkStmt scope (.declare name init loc)).findings)
    (hdeclared : p.declared = (checkStmt scope (.declare name init loc)).declared.toList ++ toCome) :
    Safe (runStmt returnsValue p (.declare name init loc))
      (Wanted returnsValue (checkStmt scope (.declare name init loc)) toCome p
        (.declare name init loc)) := by
  obtain ⟨hfirst, hdefined⟩ := accepted_append.1 h
  have hinit := sound_of_judge agrees init (accepted_append.1 hfirst).1
  obtain ⟨hty, hstorable⟩ := declared_of_accepted hinit.known hdefined
  refine (hinit.value (Ty.hasValue_of_isStorable hstorable)).bind fun value hvalue => ?_
  apply Safe.pure
  rintro next ⟨⟩
  have hhead : p.declared.head? = some (judge scope.types init).ty := by
    rw [hdeclared, ← hty]
    rfl
  have hnew : Binding.WellTyped ⟨(judge scope.types init).ty, value⟩ := ⟨hstorable, hvalue⟩
  refine ⟨?_, ?_, fun _ => rfl, nofun⟩
  · dsimp only [checkStmt]
    rw [hhead, hty]
    exact agrees.set name hnew
  · dsimp only
    rw [hdeclared]
    rfl

/-- A variable accepts values of its own type, and a text variable also null. -/
theorem hasType_of_accepts {target ty : Ty} {value : Value} (h : target.accepts ty = true)
    (hvalue : HasType value ty) : HasType value target := by
  unfold Ty.accepts at h
  rcases Bool.or_eq_true_iff.1 h with h | h
  · rw [beq_iff_eq.1 h]
    exact hvalue
  · obtain ⟨htarget, hty⟩ := Bool.and_eq_true_iff.1 h
    rw [beq_iff_eq.1 hty] at hvalue
    rw [beq_iff_eq.1 htarget]
    cases hvalue
    exact .nullText

theorem hasValue_of_accepts {target ty : Ty} (htarget : target.isStorable = true)
    (h : target.accepts ty = true) : ty.hasValue = true := by
  unfold Ty.accepts at h
  rcases Bool.or_eq_true_iff.1 h with h | h
  · rw [← beq_iff_eq.1 h]
    exact Ty.hasValue_of_isStorable htarget
  · rw [beq_iff_eq.1 (Bool.and_eq_true_iff.1 h).2]
    rfl

/-- The value that an accepted assignment stores has the type of the variable. -/
theorem stored_safe {op : AssignOp} {b : Binding} {ty : Ty} {loc : Location}
    (hb : b.WellTyped) (hknown : ty.isKnown = true)
    (hstored : Accepted (judgeStored op b.ty ty loc).findings)
    (haccepts : b.ty.accepts (judgeStored op b.ty ty loc).ty = true) :
    ty.hasValue = true ∧ ∀ given, HasType given ty →
      Safe (Eval.ofExcept (op.apply b.value given)) (HasType · b.ty) := by
  have hbknown := Ty.isKnown_of_isStorable hb.storable
  cases op with
  | set =>
      refine ⟨hasValue_of_accepts hb.storable haccepts, ?_⟩
      intro given hgiven
      exact .pure (hasType_of_accepts haccepts hgiven)
  | add =>
      have hallowed := allowed_of_accepted hstored hbknown hknown
      refine ⟨hallowed.operands_hasValue.2, ?_⟩
      intro given hgiven
      have hsafe := hallowed.apply_safe BinaryOp.noConfusion BinaryOp.noConfusion hb.valued hgiven
      exact hsafe.mono fun value hvalue => hasType_of_accepts haccepts hvalue
  | sub =>
      have hallowed := allowed_of_accepted hstored hbknown hknown
      refine ⟨hallowed.operands_hasValue.2, ?_⟩
      intro given hgiven
      have hsafe := hallowed.apply_safe BinaryOp.noConfusion BinaryOp.noConfusion hb.valued hgiven
      exact hsafe.mono fun value hvalue => hasType_of_accepts haccepts hvalue

theorem isKnown_of_stored {op : AssignOp} {target ty : Ty} {loc : Location}
    (htarget : target.isKnown = true) (hknown : ty.isKnown = true)
    (hstored : Accepted (judgeStored op target ty loc).findings) :
    (judgeStored op target ty loc).ty.isKnown = true := by
  cases op with
  | set => exact hknown
  | add | sub =>
      exact Ty.isKnown_of_isStorable (allowed_of_accepted hstored htarget hknown).isStorable

theorem Ty.ne_invalid_of_isKnown {ty : Ty} (h : ty.isKnown = true) : ty ≠ .invalid := by
  rintro rfl
  cases h

theorem safe_of_assignment (agrees : Agrees scope.types p.state.bindings) {name : String}
    {op : AssignOp} {value : Expr} {loc : Location}
    (h : Accepted (checkStmt scope (.assign name op value loc)).findings)
    (hdeclared : p.declared =
      (checkStmt scope (.assign name op value loc)).declared.toList ++ toCome) :
    Safe (runStmt returnsValue p (.assign name op value loc))
      (Wanted returnsValue (checkStmt scope (.assign name op value loc)) toCome p
        (.assign name op value loc)) := by
  unfold checkStmt at h hdeclared ⊢
  dsimp only at h hdeclared ⊢
  cases htarget : scope.types.get? name with
  | none =>
      rw [htarget] at h
      exact absurd (accepted_append.1 h).2 (not_accepted_cons rfl)
  | some target =>
      rw [htarget] at h hdeclared
      obtain ⟨b, hlookup, rfl, hb⟩ := agrees.lookup htarget
      dsimp only at h hdeclared ⊢
      obtain ⟨hfirst, hmisfit⟩ := accepted_append.1 h
      obtain ⟨hjudged, hstored⟩ := accepted_append.1 hfirst
      have hvalue := sound_of_judge agrees value hjudged
      have hbknown := Ty.isKnown_of_isStorable hb.storable
      have hknown := isKnown_of_stored hbknown hvalue.known hstored
      have haccepts : b.ty.accepts (judgeStored op b.ty (judge scope.types value).ty loc).ty := by
        by_cases haccepts : b.ty.accepts (judgeStored op b.ty (judge scope.types value).ty loc).ty
        · exact haccepts
        · rw [if_pos ⟨Ty.ne_invalid_of_isKnown hbknown, Ty.ne_invalid_of_isKnown hknown,
            by simpa using haccepts⟩] at hmisfit
          exact absurd hmisfit (not_accepted_cons rfl)
      obtain ⟨hhas, hsafe⟩ := stored_safe hb hvalue.known hstored haccepts
      refine (hvalue.value hhas).bind fun given hgiven => ?_
      rw [hlookup]
      refine Safe.bind (Safe.pure (rfl : b = b)) fun current hcurrent => ?_
      subst hcurrent
      refine (hsafe given hgiven).bind fun updated hupdated => ?_
      apply Safe.pure
      rintro next ⟨⟩
      refine ⟨?_, hdeclared, fun _ => rfl, nofun⟩
      have hnew : Binding.WellTyped ⟨b.ty, updated⟩ := ⟨hb.storable, hupdated⟩
      exact agrees.update hnew htarget

/-- What the check of an expression statement without errors tells. -/
theorem accepted_of_evaluation {expr : Expr} {trailing : Bool}
    (h : Accepted (checkStmt scope (.eval expr trailing)).findings) :
    Accepted (judge scope.types expr).findings :=
  (accepted_append.1 (accepted_append.1 h).1).1

theorem safe_of_waiting (agrees : Agrees scope.types p.state.bindings) {task : Expr}
    {loc : Location} {trailing : Bool}
    (h : Accepted (checkStmt scope (.eval (.await task loc) trailing)).findings)
    (hdeclared : p.declared = toCome) :
    Safe (runStmt returnsValue p (.eval (.await task loc) trailing))
      (Wanted returnsValue (checkStmt scope (.eval (.await task loc) trailing)) toCome p
        (.eval (.await task loc) trailing)) := by
  have hjudged := accepted_of_evaluation h
  rw [judge] at hjudged
  obtain ⟨htask, hawait⟩ := accepted_append.1 hjudged
  have hsound := sound_of_judge agrees task htask
  have hty : (judge scope.types task).ty = .task := by
    have hknown := hsound.known
    generalize (judge scope.types task).ty = awaited at hawait hknown
    cases awaited with
    | task => rfl
    | invalid => cases hknown
    | _ => exact absurd hawait (not_accepted_cons rfl)
  have hvoid : (checkStmt scope (.eval (.await task loc) trailing)).ty = .void := by
    show (judge scope.types (.await task loc)).ty = .void
    rw [judge, hty]
    rfl
  refine (evalAwait_safe hsound hty).bind fun ms _ => ?_
  cases ms with
  | none =>
      apply Safe.pure
      rintro next ⟨⟩
  | some ms =>
      apply Safe.pure
      rintro next ⟨⟩
      refine ⟨agrees, hdeclared, fun _ => rfl, ?_⟩
      intro _ _ hvalue
      rw [hvoid] at hvalue
      cases hvalue

theorem safe_of_evaluation (agrees : Agrees scope.types p.state.bindings) {expr : Expr}
    {trailing : Bool} (h : Accepted (checkStmt scope (.eval expr trailing)).findings)
    (hdeclared : p.declared = toCome) :
    Safe (runStmt returnsValue p (.eval expr trailing))
      (Wanted returnsValue (checkStmt scope (.eval expr trailing)) toCome p
        (.eval expr trailing)) := by
  by_cases hawait : ∃ task loc, expr = .await task loc
  · obtain ⟨task, loc, rfl⟩ := hawait
    exact safe_of_waiting agrees h hdeclared
  · have hother : ∀ task loc, expr ≠ .await task loc := by
      intro task loc heq
      exact hawait ⟨task, loc, heq⟩
    have hsafe := (sound_of_judge agrees expr (accepted_of_evaluation h)).safe hother
    rw [runStmt]
    · refine hsafe.bind fun value hvalue => ?_
      apply Safe.pure
      rintro next ⟨⟩
      refine ⟨?_, ?_, ?_, ?_⟩
      · split <;> exact agrees
      · split <;> exact hdeclared
      · rintro rfl
        rw [Bool.and_false]
        rfl
      · rintro rfl htrailing hhas
        have htrue : trailing = true := htrailing
        rw [htrue]
        exact ⟨value, rfl, hvalue hhas⟩
    · exact hother

/-- A throw statement without errors throws, or its message runs into a fault of the language. -/
theorem fault_of_throw (agrees : Agrees scope.types p.state.bindings) {exception : Path}
    {message : Option Expr} {loc : Location}
    (h : Accepted (checkStmt scope (.throw exception message loc)).findings) :
    ∃ fault written, runStmt returnsValue p (.throw exception message loc) [] = .error fault written ∧
      (fault ∈ languageFaults ∨ Raises p (.throw exception message loc) fault) := by
  cases message with
  | none => exact ⟨_, _, rfl, Or.inr (.throw .none)⟩
  | some expr =>
      obtain ⟨-, hargument⟩ := accepted_append.1 h
      obtain ⟨hjudged, hmisfit⟩ := accepted_append.1 hargument
      have hsound := sound_of_judge agrees expr hjudged
      have haccepts : Ty.string.accepts (judge scope.types expr).ty = true := by
        by_cases haccepts : Ty.string.accepts (judge scope.types expr).ty = true
        · exact haccepts
        · rw [if_neg] at hmisfit
          · exact absurd hmisfit (not_accepted_cons rfl)
          · rintro (hinvalid | htrue)
            · exact Ty.ne_invalid_of_isKnown hsound.known hinvalid
            · exact haccepts htrue
      have hsafe := hsound.value (hasValue_of_accepts rfl haccepts) []
      cases hresult : eval p.state.bindings expr [] with
      | error fault written =>
          rw [hresult] at hsafe
          exact ⟨fault, written, Computation.bind_of_error hresult _, Or.inl hsafe⟩
      | ok value written =>
          refine ⟨thrown exception.last (some value), written, ?_, Or.inr (.throw (.some hresult))⟩
          refine (Computation.bind_of_ok hresult _).trans ?_
          cases value <;> rfl

/-- How an accepted statement runs: it goes on soundly, or faults with a fault of the language,
or throws. -/
def RunsSoundly (returnsValue : Bool) (checked : CheckedStmt) (toCome : List Ty) (p : Progress)
    (stmt : Stmt) : Prop :=
  (∃ turn written, runStmt returnsValue p stmt [] = .ok turn written ∧
    Wanted returnsValue checked toCome p stmt turn) ∨
  ∃ fault written, runStmt returnsValue p stmt [] = .error fault written ∧
    (fault ∈ languageFaults ∨ Raises p stmt fault)

theorem runsSoundly_of_safe {checked : CheckedStmt} {stmt : Stmt}
    (h : Safe (runStmt returnsValue p stmt) (Wanted returnsValue checked toCome p stmt)) :
    RunsSoundly returnsValue checked toCome p stmt := by
  rcases h.cases [] with hok | ⟨fault, written, hrun, hfault⟩
  · exact Or.inl hok
  · exact Or.inr ⟨fault, written, hrun, Or.inl hfault⟩

theorem runStmt_sound (agrees : Agrees scope.types p.state.bindings) {stmt : Stmt}
    (h : Accepted (checkStmt scope stmt).findings)
    (hdeclared : p.declared = (checkStmt scope stmt).declared.toList ++ toCome) :
    RunsSoundly returnsValue (checkStmt scope stmt) toCome p stmt := by
  cases stmt with
  | usingNames names loc => exact runsSoundly_of_safe (safe_of_using agrees hdeclared)
  | declare name init loc => exact runsSoundly_of_safe (safe_of_declaration agrees h hdeclared)
  | assign name op value loc => exact runsSoundly_of_safe (safe_of_assignment agrees h hdeclared)
  | throw exception message loc => exact Or.inr (fault_of_throw agrees h)
  | eval expr trailing => exact runsSoundly_of_safe (safe_of_evaluation agrees h hdeclared)

/-! ## Runs of statements -/

/-- How accepted statements may end that are run from a point `p` and checked from a scope;
`last` is the type before the first of them. -/
inductive EndsSoundly (returnsValue : Bool) (scope : Scope) (last : Ty) (stmts : List Stmt)
    (p : Progress) : Ending → Prop
  | completed {q : Progress} (reaches : Reaches returnsValue p stmts q)
      (agrees : Agrees (checkStmts scope last stmts).scope.types q.state.bindings)
      (silent : returnsValue = false → q.value = p.value)
      (valued : returnsValue = true →
        endsInTrailing stmts = true ∨
          (stmts = [] ∧ ∃ value, p.value = some value ∧ HasType value last) →
        (checkStmts scope last stmts).last.hasValue = true →
        ∃ value, q.value = some value ∧ HasType value (checkStmts scope last stmts).last) :
      EndsSoundly returnsValue scope last stmts p (.completed ⟨q.value, .script q.state⟩)
  | fault {fault : Fault} (h : fault ∈ languageFaults) :
      EndsSoundly returnsValue scope last stmts p (.faulted fault)
  | thrown {before after : List Stmt} {stmt : Stmt} {q : Progress} {fault : Fault}
      (split : stmts = before ++ stmt :: after) (reaches : Reaches returnsValue p before q)
      (raises : Raises q stmt fault) : EndsSoundly returnsValue scope last stmts p (.faulted fault)
  | waiting : EndsSoundly returnsValue scope last stmts p .waiting

/-- A trailing statement at the end of a list is its last. -/
theorem endsInTrailing_cons {stmt : Stmt} {stmts : List Stmt} :
    endsInTrailing (stmt :: stmts) =
      if stmts = [] then stmt.isTrailing else endsInTrailing stmts := by
  cases stmts with
  | nil => cases stmt <;> rfl
  | cons second rest =>
      rw [if_neg (List.cons_ne_nil _ _)]
      unfold endsInTrailing
      rw [List.getLast?_cons_cons]

/-- The end of the statements behind the first is one of all statements. -/
theorem EndsSoundly.cons {last : Ty} {stmt : Stmt} {stmts : List Stmt} {next : Progress}
    {turn : Turn} {written : List String} {ending : Ending}
    (hrun : runStmt returnsValue p stmt [] = .ok turn written) (hnext : turn.next? = some next)
    (hcontinues : Continues returnsValue (checkStmt scope stmt) toCome p stmt next)
    (h : EndsSoundly returnsValue (checkStmt scope stmt).scope (checkStmt scope stmt).ty stmts next
      ending) : EndsSoundly returnsValue scope last (stmt :: stmts) p ending := by
  cases h with
  | @completed q reaches agrees silent valued =>
      refine .completed (.step hrun hnext reaches) agrees ?_ ?_
      · intro hnone
        rw [silent hnone, hcontinues.silent hnone]
      · intro hreturns htrailing hhas
        rcases htrailing with htrailing | ⟨hnil, -⟩
        · rw [endsInTrailing_cons] at htrailing
          apply valued hreturns
          · split at htrailing
            · rename_i hnil
              subst hnil
              exact Or.inr ⟨rfl, hcontinues.valued hreturns htrailing hhas⟩
            · exact Or.inl htrailing
          · exact hhas
        · cases hnil
  | fault hfault => exact .fault hfault
  | thrown split reaches raises =>
      rw [split]
      exact .thrown rfl (.step hrun hnext reaches) raises
  | waiting => exact .waiting

/-- Accepted statements end soundly. -/
theorem runStmts_sound {stmts : List Stmt} {last : Ty}
    (agrees : Agrees scope.types p.state.bindings)
    (h : Accepted (checkStmts scope last stmts).findings)
    (hdeclared : p.declared = (checkStmts scope last stmts).declared) :
    EndsSoundly returnsValue scope last stmts p (runStmts returnsValue p stmts).ending := by
  induction stmts generalizing scope last p with
  | nil =>
      refine .completed (.refl p) agrees (fun _ => rfl) ?_
      intro _ htrailing _
      rcases htrailing with hfalse | ⟨-, hvalue⟩
      · cases hfalse
      · exact hvalue
  | cons stmt stmts ih =>
      obtain ⟨hfirst, hothers⟩ := accepted_append.1 h
      have hstmt : RunsSoundly returnsValue (checkStmt scope stmt) _ p stmt :=
        runStmt_sound agrees hfirst hdeclared
      rcases hstmt with ⟨turn, written, hrun, hwanted⟩ | ⟨fault, written, hrun, hfault⟩
      · cases turn with
        | goOn next =>
            have hcontinues := hwanted next rfl
            rw [runStmts_of_goOn hrun]
            exact .cons hrun rfl hcontinues (ih hcontinues.agrees hothers hcontinues.declared)
        | pause ms next =>
            have hcontinues := hwanted next rfl
            rw [runStmts_of_pause hrun]
            exact .cons hrun rfl hcontinues (ih hcontinues.agrees hothers hcontinues.declared)
        | waitForStop =>
            rw [runStmts_of_waitForStop hrun]
            exact .waiting
      · rw [runStmts_of_error hrun]
        rcases hfault with hfault | hraises
        · exact .fault hfault
        · have hsplit : stmt :: stmts = [] ++ stmt :: stmts := rfl
          exact .thrown hsplit (.refl p) hraises

/-! ## Programs -/

/-- The scope of a well formed state agrees with its variables. -/
theorem agrees_ofState {prior : State} (h : prior.WellFormed) (references : List Reference) :
    Agrees (Scope.ofState prior references).types prior.bindings where
  types := by
    intro name
    exact Table.get?_mapEntries _ _ name
  wellTyped := h

/-- What the check of a submission gives when it accepts. -/
theorem check_eq_ok {statements : List Stmt} {prior : State} {references : List Reference}
    {program : Program} {warnings : List (Placed Finding)}
    (h : check statements prior references = .ok (program, warnings)) :
    let checked := checkStmts (.ofState prior references) .void statements
    Accepted checked.findings ∧ warnings = checked.findings ∧
      program = ⟨statements, checked.declared, endsInTrailing statements && checked.last.hasValue⟩ := by
  unfold check at h
  dsimp only at h ⊢
  split at h
  · cases h
  · rename_i hnone
    cases h
    refine ⟨?_, rfl, rfl⟩
    intro f hf herror
    apply hnone
    rw [List.any_eq_true]
    exact ⟨f, hf, beq_iff_eq.2 herror⟩

theorem notMem_languageFaults {fault : Fault} (h : fault.kind = "InvalidOperationException") :
    fault ∉ languageFaults := by
  intro hfault
  simp only [languageFaults, List.mem_cons, List.not_mem_nil, or_false] at hfault
  rcases hfault with rfl | rfl | rfl | rfl | rfl <;> exact absurd h (by decide)

theorem activity_sound {statements : List Stmt} {prior : State} {references : List Reference}
    {program : Program} {warnings : List (Placed Finding)} (hprior : prior.WellFormed)
    (hcheck : check statements prior references = .ok (program, warnings)) :
    EndsSoundly program.returnsValue (.ofState prior references) .void statements
      ⟨prior, program.declared, none⟩ (program.activity prior).ending := by
  obtain ⟨haccepted, -, rfl⟩ := check_eq_ok hcheck
  exact runStmts_sound (agrees_ofState hprior references) haccepted rfl

/-- A program that the check accepts on a well formed state ends soundly wherever it is stopped:
it faults with a fault of the language, by being stopped, or with an exception that it throws,
and with none of the evaluation's own; and it completes with a well formed state, in which
each variable has its checked type, and with a value of the checked type exactly when the
check announced one. Whenever the request to stop comes, a run ends in one of these ways. -/
theorem ending_of_check {statements : List Stmt} {prior : State} {references : List Reference}
    {program : Program} {warnings : List (Placed Finding)} (hprior : prior.WellFormed)
    (hcheck : check statements prior references = .ok (program, warnings)) :
    (∀ stopAt start, CanEnd (program.activity prior).ending (program.activity prior).actions
      ((program.activity prior).play stopAt start).ending) ∧
    ∀ ending, CanEnd (program.activity prior).ending (program.activity prior).actions ending →
      (∀ fault, ending = .faulted fault →
        (fault ∈ languageFaults ∨ fault = .cancelled ∨ program.Throws prior fault) ∧
        (fault.kind = "InvalidOperationException" → program.Throws prior fault)) ∧
      (∀ completion, ending = .completed completion → ∃ state,
        completion.continuation = .script state ∧ state.WellFormed ∧
        (∀ name, (state.bindings.get? name).map (·.ty) =
          (checkStmts (.ofState prior references) .void statements).scope.types.get? name) ∧
        completion.value.isSome = program.returnsValue ∧
        ∀ value, completion.value = some value →
          HasType value (checkStmts (.ofState prior references) .void statements).last) ∧
      ending ≠ .broken := by
  refine ⟨canEnd_play (program.activity prior), ?_⟩
  intro ending hend
  have hsound := activity_sound hprior hcheck
  obtain ⟨-, -, hprogram⟩ := check_eq_ok hcheck
  have hreturns := congrArg Program.returnsValue hprogram
  have hstatements := congrArg Program.statements hprogram
  rcases hend.eq_or_cancelled with rfl | rfl
  · generalize (program.activity prior).ending = ending at hsound
    cases hsound with
    | @completed q reaches agrees silent valued =>
        refine ⟨nofun, ?_, nofun⟩
        rintro _ ⟨⟩
        refine ⟨q.state, rfl, agrees.wellTyped, fun name => (agrees.types name).symm, ?_⟩
        cases hvalue : program.returnsValue with
        | false =>
            rw [silent hvalue]
            exact ⟨rfl, nofun⟩
        | true =>
            rw [hvalue] at hreturns
            obtain ⟨htrailing, hhas⟩ := Bool.and_eq_true_iff.1 hreturns.symm
            obtain ⟨value, hq, hty⟩ := valued hvalue (Or.inl htrailing) hhas
            rw [hq]
            refine ⟨rfl, ?_⟩
            rintro _ ⟨⟩
            exact hty
    | fault hfault =>
        refine ⟨?_, nofun, nofun⟩
        rintro _ ⟨⟩
        exact ⟨Or.inl hfault, fun hkind => absurd hfault (notMem_languageFaults hkind)⟩
    | @thrown before after stmt q fault split reaches raises =>
        have hthrows : program.Throws prior fault :=
          ⟨before, stmt, after, q, hstatements.trans split, reaches, raises⟩
        refine ⟨?_, nofun, nofun⟩
        rintro _ ⟨⟩
        exact ⟨Or.inr (Or.inr hthrows), fun _ => hthrows⟩
    | waiting => exact ⟨nofun, nofun, nofun⟩
  · refine ⟨?_, nofun, nofun⟩
    rintro _ ⟨⟩
    exact ⟨Or.inr (Or.inl rfl), nofun⟩

/-- A text joined with the null that an earlier submission left in a variable. -/
theorem ending_of_check_null :
    let prior : State := ⟨⟨[("t", ⟨.string, .null⟩)]⟩, .empty⟩
    let sum : Expr := .binary .add (.name ⟨"t", []⟩ ⟨1, 1⟩) (.literal (.int 1) ⟨1, 5⟩) ⟨1, 3⟩
    let program : Program := ⟨[.eval sum true], [], true⟩
    check [.eval sum true] prior [] = .ok (program, []) ∧
      (program.activity prior).ending = .completed ⟨some (.text "1"), .script prior⟩ ∧
      prior.WellFormed ∧ HasType (.text "1") .string := by
  intro prior sum program
  have hprior : prior.WellFormed := by
    intro name b hb
    by_cases hname : name = "t"
    · subst hname
      cases hb
      exact ⟨rfl, .nullText⟩
    · have hnone : prior.bindings.get? name = none := Table.lookup_cons_of_ne hname _ []
      cases hnone.symm.trans hb
  have hcheck : check [.eval sum true] prior [] = .ok (program, []) := rfl
  have heval : eval prior.bindings sum [] = .ok (.text "1") [] := by
    simp only [sum, eval]
    rfl
  have hrun : runStmt true ⟨prior, [], none⟩ (.eval sum true) [] =
      .ok (.goOn ⟨prior, [], some (.text "1")⟩) [] := Computation.bind_of_ok heval _
  have hactivity : program.activity prior =
      ⟨[.yield], .completed ⟨some (.text "1"), .script prior⟩⟩ := by
    unfold Program.activity
    simp only [program, runStmts, hrun]
    rfl
  have hend : CanEnd (program.activity prior).ending (program.activity prior).actions
      (.completed ⟨some (.text "1"), .script prior⟩) := by
    rw [hactivity]
    exact .onward .ended
  obtain ⟨state, hstate, hwellFormed, -, -, hvalue⟩ :=
    ((ending_of_check hprior hcheck).2 _ hend).2.1 _ rfl
  cases hstate
  exact ⟨hcheck, congrArg Activity.ending hactivity, hwellFormed, hvalue _ rfl⟩

end ScriptHost.Script
