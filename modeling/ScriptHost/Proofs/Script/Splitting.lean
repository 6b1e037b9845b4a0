import ScriptHost.Proofs.Script.Soundness

/-!
# Submissions in two parts

A list of statements means the same in one submission and in two. The scope that the check
builds up within a submission is the one that it rebuilds from the variables that the first
part leaves, except for the names declared so far, which matter only to reject.
-/

namespace ScriptHost.Script

variable {scope : Scope} {last : Ty} {a b stmts : List Stmt} {stmt : Stmt}

/-! ## Checking in two parts -/

theorem checkStmts_append (scope : Scope) (last : Ty) (a b : List Stmt) :
    checkStmts scope last (a ++ b) =
      ⟨(checkStmts (checkStmts scope last a).scope (checkStmts scope last a).last b).scope,
        (checkStmts scope last a).declared ++
          (checkStmts (checkStmts scope last a).scope (checkStmts scope last a).last b).declared,
        (checkStmts (checkStmts scope last a).scope (checkStmts scope last a).last b).last,
        (checkStmts scope last a).findings ++
          (checkStmts (checkStmts scope last a).scope (checkStmts scope last a).last b).findings⟩ := by
  induction a generalizing scope last with
  | nil => rfl
  | cons stmt stmts ih =>
      rw [List.cons_append, checkStmts, ih]
      simp only [checkStmts, List.append_assoc]

/-- The type before the first statement shows only where there is no statement. -/
theorem checkStmts_last (scope : Scope) (last other : Ty) (stmts : List Stmt) :
    checkStmts scope other stmts =
      { checkStmts scope last stmts with
        last := if stmts = [] then other else (checkStmts scope last stmts).last } := by
  cases stmts with
  | nil => rfl
  | cons stmt stmts => rw [if_neg (List.cons_ne_nil _ _)]; rfl

theorem checkStmt_references : (checkStmt scope stmt).scope.references = scope.references := by
  cases stmt with
  | usingNames path loc =>
      unfold checkStmt
      dsimp only
      split
      · rfl
      · split <;> rfl
  | assign name op value loc =>
      unfold checkStmt
      dsimp only
      split <;> rfl
  | declare | throw | eval => rfl

theorem checkStmts_references : (checkStmts scope last stmts).scope.references = scope.references := by
  induction stmts generalizing scope last with
  | nil => rfl
  | cons stmt stmts ih => exact ih.trans checkStmt_references

/-- The scope with other names as the ones declared so far. -/
def Scope.declaring (scope : Scope) (names : List String) : Scope := { scope with declared := names }

@[simp] theorem Scope.declaring_types (scope : Scope) (names : List String) :
    (scope.declaring names).types = scope.types := rfl

@[simp] theorem Scope.declaring_usings (scope : Scope) (names : List String) :
    (scope.declaring names).usings = scope.usings := rfl

@[simp] theorem Scope.declaring_declared (scope : Scope) (names : List String) :
    (scope.declaring names).declared = names := rfl

@[simp] theorem Scope.hasNamespace_declaring (scope : Scope) (names : List String) (root : String) :
    (scope.declaring names).hasNamespace root = scope.hasNamespace root := rfl

/-- An accepted statement is checked alike where fewer names count as declared. -/
theorem checkStmt_fewer {fewer : List String} (hfewer : fewer ⊆ scope.declared)
    (h : Accepted (checkStmt scope stmt).findings) :
    ∃ names, names ⊆ (checkStmt scope stmt).scope.declared ∧
      checkStmt (scope.declaring fewer) stmt =
        { checkStmt scope stmt with scope := (checkStmt scope stmt).scope.declaring names } := by
  cases stmt with
  | usingNames path loc =>
      refine ⟨fewer, ?_, ?_⟩
      · unfold checkStmt
        dsimp only
        split
        · exact hfewer
        · split <;> exact hfewer
      · cases hused : scope.usings.contains path.render with
        | true =>
            simp only [checkStmt, Scope.declaring_usings, hused, if_true]
        | false =>
            cases hknown : scope.hasNamespace path.render with
            | true =>
                simp only [checkStmt, Scope.declaring_usings, Scope.hasNamespace_declaring, hused,
                  hknown, Bool.not_true, Bool.false_eq_true, if_false]
                rfl
            | false =>
                simp only [checkStmt, Scope.declaring_usings, Scope.hasNamespace_declaring, hused,
                  hknown, Bool.not_false, Bool.false_eq_true, if_false, if_true]
  | declare name init loc =>
      have hnew : ¬scope.declared.contains name = true := by
        intro hname
        obtain ⟨hfirst, -⟩ := accepted_append.1 h
        have hrepeated := (accepted_append.1 hfirst).2
        rw [if_pos hname] at hrepeated
        exact not_accepted_cons rfl hrepeated
      have hfewerNew : ¬fewer.contains name = true := by
        rw [List.contains_iff_mem] at hnew ⊢
        exact fun hname => hnew (hfewer hname)
      refine ⟨name :: fewer, List.cons_subset_cons name hfewer, ?_⟩
      simp only [checkStmt, Scope.declaring_types, Scope.declaring_declared, hnew, hfewerNew]
      rfl
  | assign name op value loc =>
      refine ⟨fewer, ?_, ?_⟩
      · unfold checkStmt
        dsimp only
        split <;> exact hfewer
      · simp only [checkStmt, Scope.declaring_types]
        cases scope.types.get? name <;> rfl
  | throw | eval => exact ⟨fewer, hfewer, rfl⟩

/-- Accepted statements are checked alike where fewer names count as declared. -/
theorem checkStmts_fewer {fewer : List String} (hfewer : fewer ⊆ scope.declared)
    (h : Accepted (checkStmts scope last stmts).findings) :
    ∃ names, checkStmts (scope.declaring fewer) last stmts =
      { checkStmts scope last stmts with
        scope := (checkStmts scope last stmts).scope.declaring names } := by
  induction stmts generalizing scope fewer last with
  | nil => exact ⟨fewer, rfl⟩
  | cons stmt stmts ih =>
      obtain ⟨hfirst, hothers⟩ := accepted_append.1 h
      obtain ⟨names, hnames, hstmt⟩ := checkStmt_fewer hfewer hfirst
      obtain ⟨others, htail⟩ := ih hnames hothers
      refine ⟨others, ?_⟩
      simp only [checkStmts, hstmt, htail]

/-! ## The scope behind a run -/

/-- The scope has the types and namespaces of the state. -/
structure Mirrors (scope : Scope) (state : State) : Prop where
  types : scope.types = state.bindings.mapEntries (·.ty)
  usings : scope.usings = state.usings

variable {returnsValue : Bool} {p next : Progress} {turn : Turn} {written : List String}
  {toCome : List Ty}

/-- The run never goes on from a throw statement. -/
theorem runStmt_throw_ne_ok {exception : Path} {message : Option Expr} {loc : Location} :
    runStmt returnsValue p (.throw exception message loc) [] ≠ .ok turn written := by
  intro hrun
  cases message with
  | none => cases hrun
  | some expr =>
      simp only [runStmt, Computation.bind_eq_ok_iff] at hrun
      obtain ⟨value, behind, -, hthrow⟩ := hrun
      split at hthrow <;> cases hthrow

/-- An expression statement leaves the state and the declarations to come as they are. -/
theorem kept_of_eval {expr : Expr} {trailing : Bool}
    (hrun : runStmt returnsValue p (.eval expr trailing) [] = .ok turn written)
    (hnext : turn.next? = some next) : next.state = p.state ∧ next.declared = p.declared := by
  by_cases hawait : ∃ task loc, expr = .await task loc
  · obtain ⟨task, loc, rfl⟩ := hawait
    simp only [runStmt, Computation.bind_eq_ok_iff] at hrun
    obtain ⟨ms, _, -, hrun⟩ := hrun
    cases ms with
    | none =>
        cases hrun
        cases hnext
    | some ms =>
        cases hrun
        cases hnext
        exact ⟨rfl, rfl⟩
  · rw [runStmt, Computation.bind_eq_ok_iff] at hrun
    · obtain ⟨value, _, -, hrun⟩ := hrun
      cases hrun
      cases hnext
      split <;> exact ⟨rfl, rfl⟩
    · intro task loc heq
      exact hawait ⟨task, loc, heq⟩

/-- A namespace is in use in the state when it is in the scope. -/
theorem Mirrors.of_using {path : Path} {loc : Location} (mirrors : Mirrors scope p.state)
    (h : Accepted (checkStmt scope (.usingNames path loc)).findings)
    (hdeclared : p.declared =
      (checkStmt scope (.usingNames path loc)).declared.toList ++ toCome) :
    Mirrors (checkStmt scope (.usingNames path loc)).scope
      { p.state with usings := p.state.usings.insert path.render } ∧ p.declared = toCome := by
  unfold checkStmt at h hdeclared ⊢
  dsimp only at h hdeclared ⊢
  split
  · rename_i hused
    rw [if_pos hused] at hdeclared
    have hsame : p.state.usings.insert path.render = p.state.usings := by
      apply NameSet.insert_of_contains
      rwa [← mirrors.usings]
    exact ⟨⟨mirrors.types, mirrors.usings.trans hsame.symm⟩, hdeclared⟩
  · rename_i hused
    rw [if_neg hused] at h hdeclared
    split
    · rename_i hunknown
      rw [if_pos hunknown] at h
      exact absurd h (not_accepted_cons rfl)
    · rename_i hknown
      rw [if_neg hknown] at hdeclared
      exact ⟨⟨mirrors.types, congrArg (·.insert path.render) mirrors.usings⟩, hdeclared⟩

theorem get?_of_lookup {bindings : Table Binding} {name : String} {b : Binding}
    {behind : List String} (h : Eval.ofExcept (lookup bindings name) written = .ok b behind) :
    bindings.get? name = some b := by
  unfold lookup at h
  cases hb : bindings.get? name with
  | none =>
      rw [hb] at h
      cases h
  | some found =>
      rw [hb] at h
      cases h
      rfl

/-- A variable keeps its type when it is assigned to. -/
theorem Mirrors.of_assignment {name : String} {op : AssignOp} {value : Expr} {loc : Location}
    {current : Binding} (mirrors : Mirrors scope p.state)
    (hget : p.state.bindings.get? name = some current) (updated : Value)
    (hdeclared : p.declared =
      (checkStmt scope (.assign name op value loc)).declared.toList ++ toCome) :
    Mirrors (checkStmt scope (.assign name op value loc)).scope
      { p.state with bindings := p.state.bindings.set name ⟨current.ty, updated⟩ } ∧
        p.declared = toCome := by
  have hty : scope.types.get? name = some current.ty := by
    rw [mirrors.types, Table.get?_mapEntries, hget]
    rfl
  unfold checkStmt at hdeclared ⊢
  dsimp only at hdeclared ⊢
  rw [hty] at hdeclared ⊢
  refine ⟨⟨?_, mirrors.usings⟩, hdeclared⟩
  dsimp only
  rw [Table.mapEntries_set, ← mirrors.types, Table.set_of_get? hty]

/-- A statement that the run goes on from changes state and scope alike, and takes the types of
its own declarations. -/
theorem Mirrors.step (mirrors : Mirrors scope p.state)
    (h : Accepted (checkStmt scope stmt).findings)
    (hdeclared : p.declared = (checkStmt scope stmt).declared.toList ++ toCome)
    (hrun : runStmt returnsValue p stmt [] = .ok turn written) (hnext : turn.next? = some next) :
    Mirrors (checkStmt scope stmt).scope next.state ∧ next.declared = toCome := by
  cases stmt with
  | usingNames path loc =>
      cases hrun
      cases hnext
      exact mirrors.of_using h hdeclared
  | declare name init loc =>
      simp only [runStmt, Computation.bind_eq_ok_iff, Computation.pure_eq_ok_iff] at hrun
      obtain ⟨value, _, hvalue, rfl, rfl⟩ := hrun
      cases hnext
      rw [hdeclared]
      refine ⟨⟨?_, mirrors.usings⟩, rfl⟩
      dsimp only [checkStmt]
      rw [mirrors.types, Table.mapEntries_set]
      rfl
  | assign name op value loc =>
      simp only [runStmt, Computation.bind_eq_ok_iff, Computation.pure_eq_ok_iff] at hrun
      obtain ⟨given, _, -, current, _, hcurrent, updated, _, -, rfl, -⟩ := hrun
      cases hnext
      exact mirrors.of_assignment (get?_of_lookup hcurrent) updated hdeclared
  | throw exception message loc => exact absurd hrun runStmt_throw_ne_ok
  | eval expr trailing =>
      obtain ⟨hstate, hkept⟩ := kept_of_eval hrun hnext
      rw [hstate, hkept]
      exact ⟨mirrors, hdeclared⟩

/-! ## Runs that differ in what they do not look at -/

/-- The point of a run with more declarations to come, and with another value. -/
def Progress.widen (p : Progress) (more : List Ty) (value : Option Value) : Progress :=
  ⟨p.state, p.declared ++ more, value⟩

/-- Two outcomes of a statement that differ in the value, and in the declarations that come
after those of the first; `kept` is the value of the second if it cannot have changed. -/
inductive Widens (more : List Ty) (changes : Bool) (kept : Option Value) :
    EStateM.Result Fault (List String) Turn → EStateM.Result Fault (List String) Turn → Prop
  | goOn (next : Progress) {value : Option Value} (h : changes = false → value = kept)
      (written : List String) :
      Widens more changes kept (.ok (.goOn next) written) (.ok (.goOn (next.widen more value)) written)
  | pause (ms : Nat) (next : Progress) {value : Option Value} (h : changes = false → value = kept)
      (written : List String) :
      Widens more changes kept (.ok (.pause ms next) written)
        (.ok (.pause ms (next.widen more value)) written)
  | waitForStop (written : List String) :
      Widens more changes kept (.ok .waitForStop written) (.ok .waitForStop written)
  | fault (fault : Fault) (written : List String) :
      Widens more changes kept (.error fault written) (.error fault written)

theorem Widens.bind {α : Type} {more : List Ty} {changes : Bool} {kept : Option Value}
    {f g : α → Eval Turn} (x : Eval α) (h : ∀ v behind, Widens more changes kept (f v behind) (g v behind))
    (written : List String) : Widens more changes kept ((x >>= f) written) ((x >>= g) written) := by
  cases hresult : x written with
  | ok v behind =>
      rw [Computation.bind_of_ok hresult, Computation.bind_of_ok hresult]
      exact h v behind
  | error fault behind =>
      rw [Computation.bind_of_error hresult, Computation.bind_of_error hresult]
      exact .fault fault behind

/-- A value is kept when it is that of a trailing expression and one is due. -/
theorem widens_of_value {more : List Ty} {trailing returnsValue changes : Bool}
    {value : Option Value} {v : Value} {behind : List String} :
    Widens more changes value
      (.ok (.goOn (if trailing && returnsValue then { p with value := some v } else p)) behind)
      (.ok (.goOn (if trailing && changes then { p.widen more value with value := some v }
        else p.widen more value)) behind) := by
  have hsmall : ∃ old, (if (trailing && returnsValue) = true then
      { p with value := some v } else p) = { p with value := old } := by
    split
    · exact ⟨some v, rfl⟩
    · exact ⟨p.value, rfl⟩
  obtain ⟨old, hold⟩ := hsmall
  rw [hold]
  by_cases hchanges : (trailing && changes) = true
  · rw [if_pos hchanges]
    refine .goOn { p with value := old } ?_ behind
    rintro rfl
    rw [Bool.and_false] at hchanges
    cases hchanges
  · rw [if_neg hchanges]
    exact .goOn { p with value := old } (fun _ => rfl) behind

/-- A statement looks at the type of its own declaration only, and not at the value. -/
theorem runStmt_widens (hdeclared : p.declared = (checkStmt scope stmt).declared.toList ++ toCome)
    (more : List Ty) (returnsValue changes : Bool) (value : Option Value) :
    Widens more changes value (runStmt returnsValue p stmt [])
      (runStmt changes (p.widen more value) stmt []) := by
  cases stmt with
  | usingNames path loc =>
      exact .goOn { p with state.usings := p.state.usings.insert path.render } (fun _ => rfl) []
  | declare name init loc =>
      obtain ⟨state, declared, old⟩ := p
      cases hdeclared
      refine Widens.bind (eval state.bindings init) ?_ []
      intro v behind
      exact .goOn ⟨_, toCome, old⟩ (fun _ => rfl) behind
  | assign name op expr loc =>
      refine Widens.bind (eval p.state.bindings expr) ?_ []
      intro given behind
      refine Widens.bind (Eval.ofExcept (lookup p.state.bindings name)) ?_ behind
      intro current behind
      refine Widens.bind (Eval.ofExcept (op.apply current.value given)) ?_ behind
      intro updated behind
      exact .goOn { p with
        state.bindings := p.state.bindings.set name ⟨current.ty, updated⟩ } (fun _ => rfl) behind
  | throw exception message loc =>
      cases message with
      | none => exact .fault _ []
      | some expr =>
          refine Widens.bind (eval p.state.bindings expr) ?_ []
          intro v behind
          cases v <;> exact .fault _ behind
  | eval expr trailing =>
      by_cases hawait : ∃ task loc, expr = .await task loc
      · obtain ⟨task, loc, rfl⟩ := hawait
        refine Widens.bind (evalAwait p.state.bindings task) ?_ []
        intro ms behind
        cases ms with
        | none => exact .waitForStop behind
        | some ms => exact .pause ms p (fun _ => rfl) behind
      · have hother : ∀ task loc, expr = .await task loc → False := by
          intro task loc heq
          exact hawait ⟨task, loc, heq⟩
        rw [runStmt, runStmt]
        · refine Widens.bind (eval p.state.bindings expr) ?_ []
          intro v behind
          exact widens_of_value
        · exact hother
        · exact hother

/-- How two runs of the same statements begin whose first statements have such outcomes: both end
there alike, or both go on behind the same actions. -/
theorem runStmts_cons_of_widens {more : List Ty} {changes : Bool} {kept : Option Value}
    {q : Progress} (h : Widens more changes kept (runStmt returnsValue p stmt [])
      (runStmt changes q stmt [])) :
    (∃ turn written next value first, runStmt returnsValue p stmt [] = .ok turn written ∧
      turn.next? = some next ∧ (changes = false → value = kept) ∧
      (∀ rest, runStmts returnsValue p (stmt :: rest) =
        (runStmts returnsValue next rest).behind first) ∧
      ∀ rest, runStmts changes q (stmt :: rest) =
        (runStmts changes (next.widen more value) rest).behind first) ∨
    ∃ activity, (∀ rest, runStmts returnsValue p (stmt :: rest) = activity) ∧
      (∀ rest, runStmts changes q (stmt :: rest) = activity) ∧
      ∀ completion, activity.ending ≠ .completed completion := by
  generalize hp : runStmt returnsValue p stmt [] = one at h
  generalize hq : runStmt changes q stmt [] = two at h
  cases h with
  | goOn next hkept written =>
      exact Or.inl ⟨_, _, next, _, _, rfl, rfl, hkept, runStmts_of_goOn hp, runStmts_of_goOn hq⟩
  | pause ms next hkept written =>
      exact Or.inl ⟨_, _, next, _, _, rfl, rfl, hkept, runStmts_of_pause hp, runStmts_of_pause hq⟩
  | waitForStop written =>
      exact Or.inr ⟨_, runStmts_of_waitForStop hp, runStmts_of_waitForStop hq, nofun⟩
  | fault fault written =>
      exact Or.inr ⟨_, runStmts_of_error hp, runStmts_of_error hq, nofun⟩

theorem behind_behind (activity : Activity) (first second : List Action) :
    (activity.behind second).behind first = activity.behind (first ++ second) := by
  unfold Activity.behind
  rw [List.append_assoc]

variable {s₁ : State} {value : Option Value}

/-- Accepted statements that complete leave a state with the types and namespaces of the scope
behind them, and statements after them run as they would from there. -/
theorem runStmts_append (mirrors : Mirrors scope p.state)
    (h : Accepted (checkStmts scope last a).findings)
    (hdeclared : p.declared = (checkStmts scope last a).declared)
    (hend : (runStmts returnsValue p a).ending = .completed ⟨value, .script s₁⟩)
    (b : List Stmt) (more : List Ty) (changes : Bool) (old : Option Value) :
    Mirrors (checkStmts scope last a).scope s₁ ∧ ∃ new, (changes = false → new = old) ∧
      runStmts changes (p.widen more old) (a ++ b) =
        (runStmts changes ⟨s₁, more, new⟩ b).behind (runStmts returnsValue p a).actions := by
  induction a generalizing scope last p old with
  | nil =>
      cases hend
      refine ⟨mirrors, old, fun _ => rfl, ?_⟩
      show runStmts changes ⟨p.state, p.declared ++ more, old⟩ b = _
      rw [hdeclared]
      rfl
  | cons stmt stmts ih =>
      obtain ⟨hfirst, hothers⟩ := accepted_append.1 h
      have hwidens := runStmt_widens hdeclared more returnsValue changes old
      rcases runStmts_cons_of_widens hwidens with
        ⟨turn, written, next, between, first, hrun, hnext, hkept, hp, hq⟩ | ⟨activity, hp, -, hends⟩
      · rw [hp] at hend ⊢
        obtain ⟨hmirrors, hcome⟩ := mirrors.step hfirst hdeclared hrun hnext
        obtain ⟨hbehind, new, hnew, hrest⟩ := ih hmirrors hothers hcome hend between
        refine ⟨hbehind, new, fun hfixed => (hnew hfixed).trans (hkept hfixed), ?_⟩
        rw [List.cons_append, hq, hrest, behind_behind]
        rfl
      · rw [hp] at hend
        exact absurd hend (hends _)

/-- A delay is a task, whatever its argument. -/
theorem judge_delay (types : Table Ty) (ms : Expr) (loc : Location) :
    (judge types (.call Builtin.delay.path [ms] loc)).ty = .task := by
  rw [judge]
  rfl

/-- A wait that ends has no value. -/
theorem hasValue_of_await {bindings : Table Binding} {task : Expr} {ms : Nat}
    (h : evalAwait bindings task [] = .ok (some ms) written) (types : Table Ty) (loc : Location) :
    (judge types (.await task loc)).ty.hasValue = false := by
  unfold evalAwait at h
  split at h
  · split at h
    · rename_i target arg place htarget
      rw [judge, htarget]
      dsimp only [Judgement.behind]
      rw [judge_delay]
      rfl
    · cases h
  · cases h
  · cases h

/-- A last statement that gives the value does so whatever the value was before. -/
theorem runStmts_trailing {expr : Expr}
    (hvalue : (judge scope.types expr).ty.hasValue = true) (new : Option Value) :
    runStmts true (p.widen [] new) [.eval expr true] = runStmts true p [.eval expr true] := by
  by_cases hawait : ∃ task loc, expr = .await task loc
  · obtain ⟨task, loc, rfl⟩ := hawait
    cases hresult : evalAwait p.state.bindings task [] with
    | error fault written =>
        have hrun : ∀ q : Progress, q.state = p.state →
            runStmt true q (.eval (.await task loc) true) [] = .error fault written := by
          intro q hq
          rw [runStmt, hq]
          exact Computation.bind_of_error hresult _
        rw [runStmts_of_error (hrun p rfl), runStmts_of_error (hrun (p.widen [] new) rfl)]
    | ok ms written =>
        cases ms with
        | none =>
            have hrun : ∀ q : Progress, q.state = p.state →
                runStmt true q (.eval (.await task loc) true) [] = .ok .waitForStop written := by
              intro q hq
              rw [runStmt, hq]
              exact Computation.bind_of_ok hresult _
            rw [runStmts_of_waitForStop (hrun p rfl), runStmts_of_waitForStop (hrun (p.widen [] new) rfl)]
        | some ms =>
            rw [hasValue_of_await hresult] at hvalue
            cases hvalue
  · have hother : ∀ task loc, expr = .await task loc → False := by
      intro task loc heq
      exact hawait ⟨task, loc, heq⟩
    have heq : ∀ q : Progress, q.state = p.state → runStmt true q (.eval expr true) = (do
        let v ← eval p.state.bindings expr
        return .goOn { q with value := some v }) := by
      intro q hq
      rw [runStmt, hq]
      · rfl
      · exact hother
    cases hresult : eval p.state.bindings expr [] with
    | error fault written =>
        rw [runStmts_of_error ((congrFun (heq p rfl) []).trans (Computation.bind_of_error hresult _)),
          runStmts_of_error
            ((congrFun (heq (p.widen [] new) rfl) []).trans (Computation.bind_of_error hresult _))]
    | ok v written =>
        rw [runStmts_of_goOn ((congrFun (heq p rfl) []).trans (Computation.bind_of_ok hresult _)),
          runStmts_of_goOn
            ((congrFun (heq (p.widen [] new) rfl) []).trans (Computation.bind_of_ok hresult _))]
        rfl

/-- The value so far does not matter where the last statement gives the value. -/
theorem runStmts_widen (mirrors : Mirrors scope p.state)
    (h : Accepted (checkStmts scope last b).findings)
    (hdeclared : p.declared = (checkStmts scope last b).declared) (htrailing : endsInTrailing b = true)
    (hvalue : (checkStmts scope last b).last.hasValue = true) (new : Option Value) :
    runStmts true (p.widen [] new) b = runStmts true p b := by
  induction b generalizing scope last p new with
  | nil => cases htrailing
  | cons stmt stmts ih =>
      rw [endsInTrailing_cons] at htrailing
      by_cases hlast : stmts = []
      · subst hlast
        cases stmt with
        | eval expr trailing =>
            cases (show trailing = true from htrailing)
            exact runStmts_trailing hvalue new
        | _ => cases htrailing
      · rw [if_neg hlast] at htrailing
        obtain ⟨hfirst, hothers⟩ := accepted_append.1 h
        have hwidens := runStmt_widens hdeclared [] true true new
        rcases runStmts_cons_of_widens hwidens with
          ⟨turn, written, next, between, first, hrun, hnext, -, hp, hq⟩ | ⟨activity, hp, hq, -⟩
        · obtain ⟨hmirrors, hcome⟩ := mirrors.step hfirst hdeclared hrun hnext
          rw [hp, hq, ih hmirrors hothers hcome htrailing hvalue between]
        · rw [hp, hq]

/-! ## Submissions -/

theorem mirrors_ofState (state : State) (references : List Reference) :
    Mirrors (.ofState state references) state :=
  ⟨rfl, rfl⟩

/-- The scope behind a run, with no name declared yet, is the one that a check of the state that
the run left starts from. -/
theorem Mirrors.declaring_nil {state : State} (mirrors : Mirrors scope state) :
    scope.declaring [] = .ofState state scope.references := by
  unfold Scope.declaring Scope.ofState
  rw [mirrors.types, mirrors.usings]

theorem check_of_accepted {statements : List Stmt} {prior : State} {references : List Reference}
    (h : Accepted (checkStmts (.ofState prior references) .void statements).findings) :
    check statements prior references =
      .ok (⟨statements, (checkStmts (.ofState prior references) .void statements).declared,
        endsInTrailing statements &&
          (checkStmts (.ofState prior references) .void statements).last.hasValue⟩,
        (checkStmts (.ofState prior references) .void statements).findings) := by
  unfold check
  dsimp only
  rw [if_neg]
  intro herror
  obtain ⟨f, hf, hseverity⟩ := List.any_eq_true.1 herror
  exact h f hf (beq_iff_eq.1 hseverity)

theorem endsInTrailing_append (ha : endsInTrailing a = false) :
    endsInTrailing (a ++ b) = endsInTrailing b := by
  cases b with
  | nil => rwa [List.append_nil]
  | cons stmt stmts =>
      unfold endsInTrailing
      rw [List.getLast?_append, List.getLast?_cons, Option.some_or]

/-- The second part of an accepted submission is checked on the state that the first part leaves as
it is checked behind the first part. -/
theorem checkStmts_ofState {references : List Reference} (mirrors : Mirrors scope s₁)
    (hreferences : scope.references = references) (h : Accepted (checkStmts scope last b).findings)
    (other : Ty) :
    (checkStmts (.ofState s₁ references) other b).findings = (checkStmts scope last b).findings ∧
      (checkStmts (.ofState s₁ references) other b).declared = (checkStmts scope last b).declared ∧
      (endsInTrailing b && (checkStmts (.ofState s₁ references) other b).last.hasValue) =
        (endsInTrailing b && (checkStmts scope last b).last.hasValue) := by
  obtain ⟨names, hfewer⟩ := checkStmts_fewer (List.nil_subset _) h
  rw [mirrors.declaring_nil, hreferences] at hfewer
  rw [checkStmts_last _ last other b, hfewer]
  refine ⟨rfl, rfl, ?_⟩
  cases b with
  | nil => rfl
  | cons stmt stmts => rw [if_neg (List.cons_ne_nil _ _)]

/-- Accepted statements that are to give a value give the same one behind any value. -/
theorem runStmts_value (mirrors : Mirrors scope s₁)
    (h : Accepted (checkStmts scope last b).findings) {new : Option Value}
    (hreturns : returnsValue = (endsInTrailing b && (checkStmts scope last b).last.hasValue))
    (hnew : returnsValue = false → new = none) :
    runStmts returnsValue ⟨s₁, (checkStmts scope last b).declared, new⟩ b =
      runStmts returnsValue ⟨s₁, (checkStmts scope last b).declared, none⟩ b := by
  cases returnsValue with
  | false => rw [hnew rfl]
  | true =>
      obtain ⟨htrailing, hvalue⟩ := Bool.and_eq_true_iff.1 hreturns.symm
      have hwiden : runStmts true (Progress.widen ⟨s₁, _, none⟩ [] new) b = _ :=
        runStmts_widen mirrors h rfl htrailing hvalue new
      unfold Progress.widen at hwiden
      rwa [List.append_nil] at hwiden

/-- A submission may be split at every statement after which no value is due. If the whole is
accepted, so is the first part; once the first part has completed, so is the second, the
warnings of the whole are those of the parts, and the whole does what the first part does and
then what the second does from the state that the first left. -/
theorem check_append {prior : State} {references : List Reference} {whole : Program}
    {warnings : List (Placed Finding)} (ha : endsInTrailing a = false)
    (h : check (a ++ b) prior references = .ok (whole, warnings)) :
    ∃ first firstWarnings, check a prior references = .ok (first, firstWarnings) ∧
      ∀ value s₁, (first.activity prior).ending = .completed ⟨value, .script s₁⟩ →
        ∃ second secondWarnings, check b s₁ references = .ok (second, secondWarnings) ∧
          warnings = firstWarnings ++ secondWarnings ∧
          whole.activity prior = (second.activity s₁).behind (first.activity prior).actions ∧
          ∀ start, ∃ mid, ((first.activity prior).play none start).finish = some mid ∧
            (whole.activity prior).play none start =
              ((first.activity prior).play none start).append
                ((second.activity s₁).play none mid) := by
  obtain ⟨haccepted, hwarnings, hwhole⟩ := check_eq_ok h
  rw [checkStmts_append] at haccepted hwarnings hwhole
  dsimp only at haccepted hwarnings hwhole
  obtain ⟨hfirst, hsecond⟩ := accepted_append.1 haccepted
  refine ⟨_, _, check_of_accepted hfirst, ?_⟩
  intro value s₁ hend
  obtain ⟨mirrors, new, hnew, hrun⟩ := runStmts_append (mirrors_ofState prior references) hfirst rfl
    hend b (checkStmts _ _ b).declared whole.returnsValue none
  have hreferences : (checkStmts (.ofState prior references) .void a).scope.references = references :=
    checkStmts_references
  obtain ⟨hfindings, hdeclared, hreturns⟩ := checkStmts_ofState mirrors hreferences hsecond .void
  have hsecond' : Accepted (checkStmts (.ofState s₁ references) .void b).findings := by
    rwa [hfindings]
  have hwholeReturns : whole.returnsValue = (endsInTrailing b &&
      (checkStmts (.ofState s₁ references) .void b).last.hasValue) := by
    rw [hwhole, hreturns, endsInTrailing_append ha]
  have hactivity : whole.activity prior =
      (Program.activity ⟨b, (checkStmts (.ofState s₁ references) .void b).declared,
        endsInTrailing b && (checkStmts (.ofState s₁ references) .void b).last.hasValue⟩
          s₁).behind
        (Program.activity ⟨a, (checkStmts (.ofState prior references) .void a).declared,
          endsInTrailing a && (checkStmts (.ofState prior references) .void a).last.hasValue⟩
            prior).actions := by
    have hvalue := runStmts_value (mirrors_ofState s₁ references) hsecond' hwholeReturns hnew
    rw [hdeclared] at hvalue
    rw [hvalue] at hrun
    refine Eq.trans ?_ (hrun.trans ?_)
    · rw [hwhole]
      rfl
    · rw [← hdeclared, hwholeReturns]
      rfl
  refine ⟨_, _, check_of_accepted hsecond', ?_, hactivity, ?_⟩
  · rw [hwarnings, hfindings]
  · intro start
    obtain ⟨mid, hmid, hplay⟩ := play_behind (Program.activity _ s₁) ⟨value, .script s₁⟩
      (Program.activity _ prior).actions start
    refine ⟨mid, ?_, ?_⟩
    · unfold Activity.play
      rw [hend]
      exact hmid
    · rw [hactivity, hplay]
      unfold Activity.play
      rw [hend]

/-- A declaration, and its variable as the value of a second submission. -/
theorem check_append_variable :
    let a : List Stmt := [.declare "x" (.literal (.text "a") ⟨1, 9⟩) ⟨1, 1⟩]
    let b : List Stmt := [.eval (.name ⟨"x", []⟩ ⟨1, 14⟩) true]
    let s₁ : State := ⟨⟨[("x", ⟨.string, .text "a"⟩)]⟩, .empty⟩
    let whole : Program := ⟨a ++ b, [.string], true⟩
    check (a ++ b) .initial [] = .ok (whole, []) ∧
      ∃ second secondWarnings, check b s₁ [] = .ok (second, secondWarnings) ∧
        [] = [] ++ secondWarnings ∧
        whole.activity .initial = (second.activity s₁).behind [.yield] := by
  intro a b s₁ whole
  have hwhole : check (a ++ b) .initial [] = .ok (whole, []) := rfl
  refine ⟨hwhole, ?_⟩
  obtain ⟨first, firstWarnings, hfirst, hsplit⟩ := check_append rfl hwhole
  cases hfirst
  have heval : eval State.initial.bindings (.literal (.text "a") ⟨1, 9⟩) [] = .ok (.text "a") [] := by
    rw [eval]
    rfl
  have hrun : runStmt false ⟨.initial, [.string], none⟩
      (.declare "x" (.literal (.text "a") ⟨1, 9⟩) ⟨1, 1⟩) [] = .ok (.goOn ⟨s₁, [], none⟩) [] :=
    Computation.bind_of_ok heval _
  have hactivity : runStmts false ⟨.initial, [.string], none⟩ a =
      ⟨[.yield], .completed ⟨none, .script s₁⟩⟩ := runStmts_of_goOn hrun []
  obtain ⟨second, secondWarnings, hsecond, hwarnings, hbehind, -⟩ :=
    hsplit none s₁ (congrArg Activity.ending hactivity)
  refine ⟨second, secondWarnings, hsecond, hwarnings, hbehind.trans ?_⟩
  exact congrArg (fun one : Activity => (second.activity s₁).behind one.actions) hactivity

end ScriptHost.Script
