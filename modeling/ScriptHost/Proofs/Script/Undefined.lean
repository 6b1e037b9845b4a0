import Mathlib.Data.List.Infix
import ScriptHost.Script.Typing

/-!
# Names that are reported as undefined

The check reports the uses of names that stand for nothing, each once and in the order in which it
comes to them. A name stands for a variable of an earlier submission, or for one that an earlier
statement declares, whatever else is wrong with the declaration.

## Implementation notes

The calls that no built-in method answers are looked up in an order of their own. A path below a
built-in type is reported as such whether there is a variable of the type's name or not, and a
single word that is called is reported as undefined even where it is a variable.
-/

namespace ScriptHost.Script

/-! ## Uses of names -/

/-- A place where a path is read, or called. -/
structure Use where
  path : Path
  isCalled : Bool
  loc : Location
deriving DecidableEq

/-- The uses of names in an expression, in the order of the check. The built-in methods are no uses
of names. -/
def Expr.uses : Expr → List Use
  | .literal _ _ => []
  | .name path loc => [⟨path, false, loc⟩]
  | .unary _ operand _ => operand.uses
  | .binary _ left right _ => left.uses ++ right.uses
  | .call target args loc =>
    args.flatMap Expr.uses ++ if Builtin.ofPath? target = none then [⟨target, true, loc⟩] else []
  | .await task _ => task.uses

/-- The uses of names in a statement. An assignment uses its target behind its value. -/
def Stmt.uses : Stmt → List Use
  | .usingNames _ _ => []
  | .declare _ init _ => init.uses
  | .assign name _ value loc => value.uses ++ [⟨⟨name, []⟩, false, loc⟩]
  | .throw _ message _ => message.toList.flatMap Expr.uses
  | .eval expr _ => expr.uses

/-- The variable that a statement declares. -/
def Stmt.declares? : Stmt → Option String
  | .declare name _ _ => some name
  | _ => none

/-- The names of the variables behind some statements, from those before them. -/
def namesBehind (known : List String) (before : List Stmt) : List String :=
  known ++ before.filterMap Stmt.declares?

namespace Use

/-- What is reported of a name that stands for nothing: the name is undefined, or the built-in type
has no such member. -/
def finding (use : Use) : Placed Finding :=
  if use.path.members ≠ [] ∧ use.path.head ∈ builtinTypes then
    ⟨.noStaticMember use.path.head use.path.memberText, use.loc⟩
  else ⟨.undefinedName use.path.head, use.loc⟩

/-- Calls of a single word, and those below a built-in type, are not looked up in the variables. -/
def IgnoresVariables (use : Use) : Prop :=
  use.isCalled = true ∧ (use.path.members = [] ∨ use.path.head ∈ builtinTypes)

instance (use : Use) : Decidable use.IgnoresVariables := inferInstanceAs (Decidable (_ ∧ _))

/-- What is reported of a use where the given names stand for variables. -/
def report? (known : List String) (use : Use) : Option (Placed Finding) :=
  if use.path.head ∈ known ∧ ¬use.IgnoresVariables then none else some use.finding

end Use

/-- What is found in a submission, accepted or not. -/
def findingsOf : Except (List (Placed Finding)) (Program × List (Placed Finding)) →
    List (Placed Finding)
  | .error findings => findings
  | .ok (_, warnings) => warnings

/-! ## Findings about names -/

/-- The finding is that a name, or a member of a built-in type, is undefined. -/
def Finding.isOfName : Finding → Bool
  | undefinedName _ | noStaticMember _ _ => true
  | _ => false

/-- The findings about names. -/
def ofName (findings : List (Placed Finding)) : List (Placed Finding) :=
  findings.filter (·.val.isOfName)

@[simp] theorem ofName_append (a b : List (Placed Finding)) :
    ofName (a ++ b) = ofName a ++ ofName b := List.filter_append a b

/-- The names are those that have a type. -/
def Knows (types : Table Ty) (known : List String) : Prop :=
  ∀ name, name ∈ known ↔ types.get? name ≠ none

theorem Knows.mem {types : Table Ty} {known : List String} (h : Knows types known) {name : String}
    {ty : Ty} (hty : types.get? name = some ty) : name ∈ known :=
  (h name).2 (by rw [hty]; exact Option.some_ne_none ty)

theorem Knows.notMem {types : Table Ty} {known : List String} (h : Knows types known)
    {name : String} (hty : types.get? name = none) : name ∉ known :=
  fun hname => (h name).1 hname hty

/-- What is reported of the uses where the given names stand for variables. -/
def reportsOn (known : List String) (uses : List Use) : List (Placed Finding) :=
  uses.filterMap (Use.report? known)

@[simp] theorem reportsOn_append (known : List String) (a b : List Use) :
    reportsOn known (a ++ b) = reportsOn known a ++ reportsOn known b :=
  List.filterMap_append

section

variable {known : List String} {types : Table Ty}

theorem reportsOn_of_known {use : Use} (h : use.path.head ∈ known)
    (hheeds : ¬use.IgnoresVariables) : reportsOn known [use] = [] := by
  have hreport : use.report? known = none := if_pos ⟨h, hheeds⟩
  rw [reportsOn, List.filterMap_cons_none hreport, List.filterMap_nil]

theorem reportsOn_of_reported {use : Use} (h : use.path.head ∉ known ∨ use.IgnoresVariables) :
    reportsOn known [use] = [use.finding] := by
  have hreport : use.report? known = some use.finding :=
    if_neg fun hboth => h.elim (· hboth.1) hboth.2
  rw [reportsOn, List.filterMap_cons_some hreport, List.filterMap_nil]

theorem isBuiltinMember_iff (path : Path) :
    (!path.members.isEmpty && builtinTypes.contains path.head) = true ↔
      path.members ≠ [] ∧ path.head ∈ builtinTypes := by
  rw [Bool.and_eq_true, Bool.not_eq_true', List.isEmpty_eq_false_iff, List.contains_iff_mem]

/-- A name that is read is looked up in the variables first. -/
theorem ofName_judgeName (hknows : Knows types known) (path : Path) (loc : Location) :
    ofName (judgeName types path loc).findings = reportsOn known [⟨path, false, loc⟩] := by
  unfold judgeName
  cases hty : types.get? path.head with
  | some ty =>
      have hknown : path.head ∈ known := hknows.mem hty
      rw [reportsOn_of_known hknown (fun h => Bool.noConfusion h.1)]
      dsimp only
      split
      · rfl
      · split
        · rfl
        · split <;> rfl
  | none =>
      have hunknown : path.head ∉ known := hknows.notMem hty
      rw [reportsOn_of_reported (.inl hunknown), Use.finding]
      dsimp only
      by_cases hmember : path.members ≠ [] ∧ path.head ∈ builtinTypes
      · rw [if_pos hmember, if_pos ((isBuiltinMember_iff path).2 hmember)]
        rfl
      · rw [if_neg hmember, if_neg (mt (isBuiltinMember_iff path).1 hmember)]
        rfl

/-- A call that no method answers is looked up in the built-in types first, and a single word in
nothing at all. -/
theorem ofName_judgeUnknownCall (hknows : Knows types known) (target : Path) (loc : Location) :
    ofName (judgeUnknownCall types target loc).findings =
      reportsOn known [⟨target, true, loc⟩] := by
  unfold judgeUnknownCall
  by_cases hword : target.members = []
  · rw [if_pos (List.isEmpty_iff.2 hword), reportsOn_of_reported (.inr ⟨rfl, .inl hword⟩),
      Use.finding, if_neg fun h => h.1 hword]
    rfl
  · rw [if_neg (mt List.isEmpty_iff.1 hword)]
    by_cases hbuiltin : target.head ∈ builtinTypes
    · rw [if_pos (List.contains_iff_mem.2 hbuiltin),
        reportsOn_of_reported (.inr ⟨rfl, .inr hbuiltin⟩), Use.finding, if_pos ⟨hword, hbuiltin⟩]
      rfl
    · rw [if_neg (mt List.contains_iff_mem.1 hbuiltin)]
      cases hty : types.get? target.head with
      | some ty =>
          have hknown : target.head ∈ known := hknows.mem hty
          exact (reportsOn_of_known hknown fun h => h.2.elim hword hbuiltin).symm
      | none =>
          have hunknown : target.head ∉ known := hknows.notMem hty
          rw [reportsOn_of_reported (.inl hunknown), Use.finding, if_neg fun h => hbuiltin h.2]
          rfl

theorem ofName_judgeArguments (position : Nat) (parameters : List Ty)
    (arguments : List (Placed Ty)) :
    ofName (judgeArguments position parameters arguments) = [] := by
  fun_induction judgeArguments with
  | case1 position parameter parameters argument arguments ih =>
      rw [ofName_append, ih]
      split <;> rfl
  | case2 => rfl

theorem ofName_judgeCall (hknows : Knows types known) (target : Path)
    (arguments : List (Placed Ty)) (loc : Location) :
    ofName (judgeCall types target arguments loc).findings =
      reportsOn known (if Builtin.ofPath? target = none then [⟨target, true, loc⟩] else []) := by
  unfold judgeCall
  cases hmethod : Builtin.ofPath? target with
  | none => exact ofName_judgeUnknownCall hknows target loc
  | some method =>
      dsimp only
      rw [if_neg (Option.some_ne_none method)]
      split
      · rfl
      · exact ofName_judgeArguments ..

theorem ofName_judgeUnary (op : UnaryOp) (operand : Ty) (loc : Location) :
    ofName (judgeUnary op operand loc).findings = [] := by
  unfold judgeUnary
  split
  · rfl
  · split <;> rfl

theorem ofName_judgeBinary (op : BinaryOp) (left right : Ty) (loc : Location) :
    ofName (judgeBinary op left right loc).findings = [] := by
  unfold judgeBinary
  split
  · rfl
  · split <;> rfl

theorem ofName_judgeAwait (awaited : Ty) (loc : Location) :
    ofName (judgeAwait awaited loc).findings = [] := by
  cases awaited <;> rfl

mutual

/-- The findings about names in an expression are those about the names that it uses. -/
theorem ofName_judge (hknows : Knows types known) :
    ∀ e, ofName (judge types e).findings = reportsOn known e.uses
  | .literal value loc => by
      rw [judge, Expr.uses]
      rfl
  | .name path loc => by
      rw [judge, Expr.uses]
      exact ofName_judgeName hknows path loc
  | .unary op operand loc => by
      rw [judge, Expr.uses, Judgement.behind, ofName_append, ofName_judge hknows operand,
        ofName_judgeUnary, List.append_nil]
  | .binary op left right loc => by
      rw [judge, Expr.uses, Judgement.behind, ofName_append, ofName_append,
        ofName_judge hknows left, ofName_judge hknows right, ofName_judgeBinary, List.append_nil,
        reportsOn_append]
  | .call target args loc => by
      rw [judge, Expr.uses, reportsOn_append, ← ofName_judgeAll hknows args,
        ← ofName_judgeCall hknows, ← ofName_append]
      rfl
  | .await task loc => by
      rw [judge, Expr.uses, Judgement.behind, ofName_append, ofName_judge hknows task,
        ofName_judgeAwait, List.append_nil]

theorem ofName_judgeAll (hknows : Knows types known) :
    ∀ exprs, ofName (judgeAll types exprs).2 = reportsOn known (exprs.flatMap Expr.uses)
  | [] => by
      rw [judgeAll]
      rfl
  | expr :: exprs => by
      rw [judgeAll, ofName_append, ofName_judge hknows expr, ofName_judgeAll hknows exprs,
        List.flatMap_cons, reportsOn_append]

end

/-! ## Statements -/

theorem ofName_judgeDeclared (ty : Ty) (loc : Location) :
    ofName (judgeDeclared ty loc).findings = [] := by
  cases ty <;> rfl

theorem ofName_judgeStored (op : AssignOp) (target value : Ty) (loc : Location) :
    ofName (judgeStored op target value loc).findings = [] := by
  cases op with
  | set => rfl
  | add | sub => exact ofName_judgeBinary ..

/-- The findings about names in a statement are those about the names that it uses. -/
theorem ofName_checkStmt {scope : Scope} (hknows : Knows scope.types known) (stmt : Stmt) :
    ofName (checkStmt scope stmt).findings = reportsOn known stmt.uses := by
  cases stmt with
  | usingNames names loc =>
      unfold checkStmt
      dsimp only
      split
      · rfl
      · split <;> rfl
  | declare name init loc =>
      have hrepeated : ofName (if scope.declared.contains name then
          [⟨.repeatedVariable name, loc⟩] else []) = [] := by
        split <;> rfl
      rw [checkStmt, ofName_append, ofName_append, ofName_judge hknows, hrepeated,
        ofName_judgeDeclared, List.append_nil, List.append_nil]
      rfl
  | assign name op value loc =>
      rw [checkStmt, Stmt.uses, reportsOn_append, ← ofName_judge hknows]
      cases hty : scope.types.get? name with
      | none =>
          have hunknown : name ∉ known := hknows.notMem hty
          rw [reportsOn_of_reported (.inl hunknown)]
          exact ofName_append ..
      | some target =>
          have hknown : name ∈ known := hknows.mem hty
          rw [reportsOn_of_known hknown fun h => Bool.noConfusion h.1]
          dsimp only
          rw [ofName_append, ofName_append, ofName_judgeStored, List.append_assoc]
          congr 1
          split <;> rfl
  | throw exception message loc =>
      have hkind : ofName (if isExceptionName exception.last then []
          else [⟨.unknownType exception.render, loc⟩]) = [] := by
        split <;> rfl
      unfold checkStmt
      rw [ofName_append, hkind, List.nil_append, Stmt.uses]
      cases message with
      | none => rfl
      | some expr =>
          rw [Option.toList_some, List.flatMap_singleton, ← ofName_judge hknows, ofName_append]
          split
          · exact List.append_nil _
          · exact List.append_nil _
  | eval expr trailing =>
      have hform : ofName (if trailing || expr.isStatementForm then []
          else [⟨.notAStatement, expr.loc⟩]) = [] := by
        split <;> rfl
      rw [checkStmt, ofName_append, ofName_append, ofName_judge hknows, hform, List.append_nil]
      split
      · exact List.append_nil _
      · exact List.append_nil _

/-- What a statement declares is known behind it, whatever was found on the way. -/
theorem knows_checkStmt {scope : Scope} (hknows : Knows scope.types known) (stmt : Stmt) :
    Knows (checkStmt scope stmt).scope.types (known ++ stmt.declares?.toList) := by
  intro other
  rw [List.mem_append, hknows other]
  cases stmt with
  | declare name init loc =>
      rw [checkStmt, Table.get?_set]
      by_cases heq : other = name
      · rw [if_pos heq]
        exact iff_of_true (.inr (List.mem_singleton.2 heq)) (Option.some_ne_none _)
      · rw [if_neg heq]
        exact or_iff_left (mt List.mem_singleton.1 heq)
  | usingNames names loc =>
      have hsame : (checkStmt scope (.usingNames names loc)).scope.types = scope.types := by
        unfold checkStmt
        dsimp only
        split
        · rfl
        · split <;> rfl
      rw [hsame]
      exact or_iff_left List.not_mem_nil
  | assign name op value loc =>
      have hsame : (checkStmt scope (.assign name op value loc)).scope.types = scope.types := by
        unfold checkStmt
        dsimp only
        split <;> rfl
      rw [hsame]
      exact or_iff_left List.not_mem_nil
  | throw _ _ _ | eval _ _ => exact or_iff_left List.not_mem_nil

theorem namesBehind_nil (known : List String) : namesBehind known [] = known := List.append_nil _

theorem namesBehind_cons (known : List String) (stmt : Stmt) (before : List Stmt) :
    namesBehind known (stmt :: before) = namesBehind (known ++ stmt.declares?.toList) before := by
  rw [namesBehind, namesBehind, List.filterMap_cons, List.append_assoc]
  cases stmt.declares? <;> rfl

/-- Each statement is checked against the names that stand for variables behind those before it. -/
theorem ofName_checkStmts {scope : Scope} (hknows : Knows scope.types known) (last : Ty)
    (stmts : List Stmt) :
    ofName (checkStmts scope last stmts).findings =
      (stmts.inits.zip stmts).flatMap fun p => reportsOn (namesBehind known p.1) p.2.uses := by
  induction stmts generalizing scope last known with
  | nil => rfl
  | cons stmt stmts ih =>
      rw [checkStmts, ofName_append, ofName_checkStmt hknows, ih (knows_checkStmt hknows stmt),
        List.inits_cons, List.zip_cons_cons, List.flatMap_cons, namesBehind_nil,
        List.zip_map_left, List.flatMap_map]
      simp only [Prod.map, id, namesBehind_cons]

/-- A variable is declared even where its initializer is rejected. -/
example : (checkStmts (.ofState .initial []) .void
    [.declare "a" (.unary .negate (.name ⟨"x", []⟩ ⟨1, 10⟩) ⟨1, 9⟩) ⟨1, 5⟩,
      .declare "b" (.name ⟨"a", []⟩ ⟨1, 21⟩) ⟨1, 17⟩]).findings =
    [⟨.undefinedName "x", ⟨1, 10⟩⟩] := rfl

theorem knows_ofState (prior : State) (references : List Reference) :
    Knows (Scope.ofState prior references).types prior.bindings.keys := by
  intro name
  rw [Table.mem_keys_iff, Scope.ofState, Table.get?_mapEntries]
  exact not_congr Option.map_eq_none_iff.symm

end

theorem findingsOf_check (statements : List Stmt) (prior : State) (references : List Reference) :
    findingsOf (check statements prior references) =
      (checkStmts (.ofState prior references) .void statements).findings := by
  unfold check
  dsimp only
  split <;> rfl

/-- A statement is paired with those before it. -/
theorem mem_inits_zip {α : Type} {xs : List α} {p : List α × α} (h : p ∈ xs.inits.zip xs) :
    ∃ after, xs = p.1 ++ p.2 :: after := by
  induction xs generalizing p with
  | nil => cases h
  | cons x xs ih =>
      rw [List.inits_cons, List.zip_cons_cons, List.zip_map_left] at h
      rcases List.mem_cons.1 h with rfl | h
      · exact ⟨xs, rfl⟩
      · obtain ⟨q, hq, rfl⟩ := List.mem_map.1 h
        obtain ⟨after, hafter⟩ := ih hq
        exact ⟨after, congrArg (x :: ·) hafter⟩

/-- A name is reported as undefined where it is unknown, and where it is called by itself. -/
theorem Use.of_report? {use : Use} {known : List String} {name : String} {loc : Location}
    (h : use.report? known = some ⟨.undefinedName name, loc⟩) :
    use.path.head = name ∧ use.loc = loc ∧
      (name ∉ known ∨ use.isCalled = true ∧ use.path.members = []) := by
  obtain ⟨hreported, hfinding⟩ : ¬(use.path.head ∈ known ∧ ¬use.IgnoresVariables) ∧
      use.finding = ⟨.undefinedName name, loc⟩ := by
    rw [report?] at h
    split at h
    · cases h
    · rename_i hreported
      exact ⟨hreported, Option.some.inj h⟩
  rw [finding] at hfinding
  split at hfinding
  · cases hfinding
  · rename_i hmember
    cases hfinding
    refine ⟨rfl, rfl, ?_⟩
    by_cases hknown : use.path.head ∈ known
    · obtain ⟨hcalled, hpath⟩ := not_not.1 fun hheeds => hreported ⟨hknown, hheeds⟩
      refine .inr ⟨hcalled, hpath.elim id fun hbuiltin => ?_⟩
      exact not_not.1 fun hmembers => hmember ⟨hmembers, hbuiltin⟩
    · exact .inl hknown

/-- The findings about names are those about the uses of names that stand for no variable, and about
the calls that are not looked up in the variables: one for each use, in their order. Only there is
a name reported as undefined. -/
theorem undefined_names_of_check (prior : State) (references : List Reference)
    (statements : List Stmt) :
    ofName (findingsOf (check statements prior references)) =
        (statements.inits.zip statements).flatMap (fun (before, stmt) =>
          reportsOn (namesBehind prior.bindings.keys before) stmt.uses) ∧
      ∀ name loc, ⟨.undefinedName name, loc⟩ ∈ findingsOf (check statements prior references) →
        ∃ before stmt after use, statements = before ++ stmt :: after ∧ use ∈ stmt.uses ∧
          use.path.head = name ∧ use.loc = loc ∧
          (name ∉ namesBehind prior.bindings.keys before ∨
            use.isCalled = true ∧ use.path.members = []) := by
  rw [findingsOf_check]
  have hnamed := ofName_checkStmts (knows_ofState prior references) .void statements
  refine ⟨hnamed, fun name loc hfinding => ?_⟩
  have hmem : ⟨.undefinedName name, loc⟩ ∈
      ofName (checkStmts (.ofState prior references) .void statements).findings :=
    List.mem_filter.2 ⟨hfinding, rfl⟩
  rw [hnamed] at hmem
  obtain ⟨⟨before, stmt⟩, hpair, hreport⟩ := List.mem_flatMap.1 hmem
  obtain ⟨after, hsplit⟩ := mem_inits_zip hpair
  obtain ⟨use, huse, hreported⟩ := List.mem_filterMap.1 hreport
  exact ⟨before, stmt, after, use, hsplit, huse, Use.of_report? hreported⟩

/-- A variable that is called by itself is reported as undefined, although it is declared. -/
theorem not_undefined_of_unknown :
    ¬ ∀ (prior : State) (references : List Reference) (statements : List Stmt) (name : String)
        (loc : Location),
      ⟨.undefinedName name, loc⟩ ∈ findingsOf (check statements prior references) →
        ∃ before stmt after use, statements = before ++ stmt :: after ∧ use ∈ stmt.uses ∧
          use.path.head = name ∧ use.loc = loc ∧
          name ∉ namesBehind prior.bindings.keys before := by
  intro h
  let statements : List Stmt := [.declare "f" (.literal (.int 1) ⟨1, 9⟩) ⟨1, 5⟩,
    .eval (.call ⟨"f", []⟩ [] ⟨1, 12⟩) false]
  have hcheck : check statements .initial [] = .error [⟨.undefinedName "f", ⟨1, 12⟩⟩] := rfl
  have hfinding : ⟨.undefinedName "f", ⟨1, 12⟩⟩ ∈ findingsOf (check statements .initial []) := by
    rw [hcheck]
    exact List.mem_cons_self
  obtain ⟨before, stmt, after, use, hsplit, huse, -, -, hunknown⟩ := h _ _ _ _ _ hfinding
  rcases before with _ | ⟨first, rest⟩
  · obtain ⟨rfl, -⟩ := List.cons.inj hsplit
    rw [Stmt.uses, Expr.uses] at huse
    cases huse
  · obtain ⟨rfl, -⟩ := List.cons.inj hsplit
    exact hunknown (List.mem_append_right _ List.mem_cons_self)

end ScriptHost.Script
