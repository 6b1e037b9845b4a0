import ScriptHost.Proofs.Host.Announcements
import ScriptHost.Proofs.Script.Reports

/-!
# A record beside each request

While a request is under way, a record is kept beside it of what comes up: what packages give rise
to, what the compiler says, and whether code was started. The request itself does not read the
record. Its reply agrees with the record, whatever the hosts were on which it took its steps.
-/

namespace ScriptHost

/-- What has come up on the way of a request. -/
structure Account where
  /-- The session that was asked for was not there. -/
  refused : Bool
  /-- The diagnostics of resolving and merging packages, in order. -/
  notes : List Diagnostic
  /-- Packages were asked for, and none of them was found. -/
  unresolved : Bool
  /-- What the compiler said, if it was asked. -/
  compiled : Option (Except (List Diagnostic) Compilation)
  /-- The code was started. -/
  started : Bool

namespace Account

/-- The record of a request that goes on: it was not refused, and its packages were found. -/
def underway (notes : List Diagnostic)
    (compiled : Option (Except (List Diagnostic) Compilation)) (started : Bool) : Account :=
  ⟨false, notes, false, compiled, started⟩

def empty : Account := underway [] none false

/-- The warnings that a compiler has for the caller: with its errors, or on code that runs. -/
def compilerWarnings (a : Account) : List Diagnostic :=
  match a.compiled with
  | some (.error ds) => warningsOf ds
  | some (.ok compilation) => if a.started then compilation.warnings else []
  | none => []

/-- The warnings of the reply: what packages gave rise to, then those of the compiler, then the one
on a clean-up that did not succeed. When no package was found, all that came of them is errors. -/
def warnings (a : Account) (degraded : Bool) : List Diagnostic :=
  if a.unresolved then []
  else a.notes ++ a.compilerWarnings ++ (if degraded then [degradedWarning] else [])

/-- The errors of the reply, when they come of packages or of the compiler. -/
def errors? (a : Account) : Option (List Diagnostic) :=
  if a.unresolved then some (a.notes.map (·.toError))
  else
    match a.compiled with
    | some (.error ds) => some (errorsOf ds)
    | _ => none

/-- The diagnostics of a reply agree with the record, and with its success. -/
structure Told (a : Account) (success : Bool) (errors warnings : List Diagnostic)
    (degraded : Bool) : Prop where
  success : success = true ↔ errors = []
  severe : ∀ d ∈ errors, d.severity = .error
  mild : ∀ d ∈ warnings, d.severity = .warning
  /-- What came up is in the reply once, in order. -/
  noted : warnings = a.warnings degraded
  failed : ∀ ds, a.errors? = some ds → errors = ds

end Account

/-- The job is to run a text in a session that is there for the request only. -/
def Job.IsPassing : Job → Prop
  | execute request => requestedSession request.session = none ∧ request.persist = false
  | load _ _ => False

/-- A reply agrees with the record of its request. -/
def JobReply.Coherent (job : Job) (a : Account) : JobReply → Prop
  | .executed r =>
    (∃ request, job = .execute request) ∧
      a.Told r.success r.errors r.warnings r.cleanupDegraded ∧
      (a.started = false → r.output = "" ∧ r.value = none) ∧
      (r.session = none ↔ job.IsPassing ∨ a.refused = true)
  | .loaded r =>
    (∃ session packages, job = .load session packages) ∧
      a.Told r.success r.errors r.warnings false

namespace Flight

/-- The request is refused in its next step, for a session that is not there. -/
def isRefused (h : Host) (f : Flight) : Bool :=
  match f.phase, f.job.session? with
  | .opening, some id => (h.store.registry.find? id).isNone
  | _, _ => false

/-- What packages give rise to in the next step of a request. -/
def raises (h : Host) (f : Flight) : List Diagnostic :=
  match f.phase with
  | .resolving _ (r :: _) _ _ =>
    match h.setup.resolver r with
    | .ok _ => []
    | .error e => [.warning Code.packageNotFound e.message]
  | .resolving b [] found _ =>
    if found.isEmpty then []
    else
      match h.store.merge b.id found with
      | .ok (_, merged) =>
        if merged.stateDiscarded then [stateResetWarning merged.added] else []
      | .error _ => []
  | _ => []

/-- No package was found, now that all were looked for. -/
def findsNothing (f : Flight) : Bool :=
  match f.phase with
  | .resolving _ [] [] _ => !f.job.packages.isEmpty
  | _ => false

/-- What the compiler says in the next step of a request. -/
def compiles (h : Host) (f : Flight) : Option (Except (List Diagnostic) Compilation) :=
  match f.phase, f.job with
  | .compiling _ _ references prior, .execute request =>
    some (h.setup.compiler.compile request.source references prior)
  | _, _ => none

def isRunning (f : Flight) : Bool :=
  match f.phase with
  | .running _ _ _ _ => true
  | _ => false

end Flight

/-- The record when a request takes a step on a host and is as it is then. -/
def Account.record (a : Account) (h : Host) (f after : Flight) : Account where
  refused := a.refused || f.isRefused h
  notes := a.notes ++ f.raises h
  unresolved := a.unresolved || f.findsNothing
  compiled := (f.compiles h).or a.compiled
  started := a.started || after.isRunning

namespace Flight

/-- A request has taken steps, at any moments, on hosts of some kind, and this is the record. What
happens to the hosts between the steps is left open. -/
inductive Travelled (p : Host → Prop) : Account → Flight → Prop
  | start {f : Flight} (hp : f.phase = .opening) : Travelled p .empty f
  | step {a : Account} {f : Flight} {h : Host} {now : Nat} {after : Host × Flight}
      (before : Travelled p a f) (hp : p h) (ha : f.advance h now = some after) :
      Travelled p (a.record h f after.2) after.2

/-- Where a request stands is what the record says. -/
inductive Recorded (job : Job) : Account → Phase → Prop
  | opening : Recorded job .empty .opening
  | atGate {b : Berth} (hb : b.ephemeral = true ↔ job.IsPassing) :
      Recorded job .empty (.atGate b)
  | resolving {b : Berth} {pending : List Reference} {found : List Resolved}
      {failures : List Diagnostic} (hb : b.ephemeral = true ↔ job.IsPassing)
      (hw : ∀ d ∈ failures, d.severity = .warning)
      (hcount : job.packages.length = pending.length + found.length + failures.length) :
      Recorded job (.underway failures none false) (.resolving b pending found failures)
  | compiling {b : Berth} {notes : List Diagnostic} {references : List Resolved}
      {prior : Option Script.Continuation} (hb : b.ephemeral = true ↔ job.IsPassing)
      (hw : ∀ d ∈ notes, d.severity = .warning) :
      Recorded job (.underway notes none false) (.compiling b notes references prior)
  | queued {b : Berth} {notes : List Diagnostic} {compilation : Compilation}
      (hb : b.ephemeral = true ↔ job.IsPassing) (hw : ∀ d ∈ notes, d.severity = .warning)
      (hc : ∀ d ∈ compilation.warnings, d.severity = .warning) :
      Recorded job (.underway notes (some (.ok compilation)) false)
        (.queued b notes compilation)
  | running {b : Berth} {notes : List Diagnostic} {compilation : Compilation} {run : UnitRun}
      (hb : b.ephemeral = true ↔ job.IsPassing) (hw : ∀ d ∈ notes, d.severity = .warning)
      (hc : ∀ d ∈ compilation.warnings, d.severity = .warning) :
      Recorded job
        (.underway notes (some (.ok compilation)) true)
        (.running b notes compilation.warnings run)
  | done {a : Account} {reply : JobReply} (h : reply.Coherent job a) :
      Recorded job a (.done reply)

variable {job : Job} {a : Account} {h : Host} {f : Flight} {b : Berth} {now : Nat}
  {notes failures : List Diagnostic} {failure : Failure} {after : Host × Flight}

theorem namedSession_eq_none_iff (b : Berth) : namedSession b = none ↔ b.ephemeral = true := by
  rw [namedSession]
  split
  · rename_i he
    exact iff_of_true rfl he
  · rename_i he
    exact iff_of_false (Option.some_ne_none b.id) he

/-- The reply to a failure that came before any code was started. -/
theorem coherent_failureReply {session : Option String}
    (hsession : session = none ↔ job.IsPassing ∨ a.refused = true)
    (hfailure : errorsOf failure.diagnostics ≠ [])
    (hw : ∀ d ∈ notes, d.severity = .warning)
    (hnoted : notes ++ warningsOf failure.diagnostics = a.warnings false)
    (hfailed : ∀ ds, a.errors? = some ds → errorsOf failure.diagnostics = ds) :
    (failureReply job session notes failure).Coherent job a := by
  have htold : a.Told false (errorsOf failure.diagnostics)
      (notes ++ warningsOf failure.diagnostics) false := by
    refine ⟨iff_of_false Bool.false_ne_true hfailure, fun d => severity_of_mem_errorsOf, ?_,
      hnoted, hfailed⟩
    intro d hd
    rcases List.mem_append.1 hd with hd | hd
    · exact hw d hd
    · exact severity_of_mem_warningsOf hd
  cases job with
  | execute request => exact ⟨⟨request, rfl⟩, htold, fun _ => ⟨rfl, rfl⟩, hsession⟩
  | load id packages => exact ⟨⟨id, packages, rfl⟩, htold⟩

/-- A failure of the host's own is one error. -/
theorem coherent_error {d : Diagnostic} {compiled : Option (Except (List Diagnostic) Compilation)}
    {session : Option String} {refused : Bool}
    (hsession : session = none ↔ job.IsPassing ∨ refused = true)
    (hd : failure.diagnostics = [d]) (herror : d.severity = .error)
    (hw : ∀ d ∈ notes, d.severity = .warning)
    (hc : (Account.underway notes compiled false).errors? = none) :
    (failureReply job session notes failure).Coherent job
      { Account.underway notes compiled false with refused := refused } := by
  have hsingle : ∀ e ∈ [d], e.severity = .error := fun e he => List.mem_singleton.1 he ▸ herror
  apply coherent_failureReply hsession
  · rw [hd, errorsOf_eq_self hsingle]
    exact List.cons_ne_nil d []
  · exact hw
  · rw [hd, warningsOf_eq_nil hsingle]
    cases compiled with
    | none => simp [Account.warnings, Account.compilerWarnings, Account.underway]
    | some result =>
        cases result with
        | ok compilation => simp [Account.warnings, Account.compilerWarnings, Account.underway]
        | error ds => cases hc
  · intro ds hds
    cases hc.symm.trans hds

theorem recorded_error {d : Diagnostic} {compiled : Option (Except (List Diagnostic) Compilation)}
    (hj : f.job = job) (hb : b.ephemeral = true ↔ job.IsPassing)
    (hd : failure.diagnostics = [d]) (herror : d.severity = .error)
    (hw : ∀ d ∈ notes, d.severity = .warning)
    (hc : (Account.underway notes compiled false).errors? = none) :
    Recorded job (.underway notes compiled false) (fail h f b notes failure).2.phase := by
  subst hj
  refine .done (coherent_error ?_ hd herror hw hc)
  rw [namedSession_eq_none_iff, hb]
  simp

theorem severity_violation (v : Guard.Violation) : v.diagnostic.severity = .error := by
  rw [Guard.Violation.diagnostic]
  cases v.loc? with
  | none => rfl
  | some loc => rfl

/-! ## Each step -/

/-- The session of a request that has started is there for the request only if that is its job. -/
theorem ephemeral_of_start (hs : f.start h = some after) (hb : after.2.berth? = some b) :
    b.ephemeral = true ↔ f.job.IsPassing := by
  have found : ∀ id, some (findBerth h f id) = some after → b.ephemeral = false := by
    intro id hf
    simp only [findBerth] at hf
    split at hf
    · cases hf
      cases hb
      rfl
    · cases hf
      cases hb
  simp only [start] at hs
  split at hs
  · rename_i id packages hj
    rw [found id hs, hj]
    exact iff_of_false Bool.false_ne_true fun hpassing => hpassing
  · rename_i request hj
    rw [hj]
    split at hs
    · rename_i id hsession
      rw [found id hs]
      exact iff_of_false Bool.false_ne_true fun hpassing =>
        Option.some_ne_none id (hsession.symm.trans hpassing.1)
    · rename_i hsession
      simp only [createBerth] at hs
      split at hs
      · cases hs
        cases hb
        simp [Job.IsPassing, hsession]
      · cases hs

theorem recorded_start (hp : f.phase = .opening) (hs : f.start h = some after) :
    Recorded f.job (Account.empty.record h f after.2) after.2.phase := by
  have hrecord : ∀ refused, f.isRefused h = refused → after.2.isRunning = false →
      Account.empty.record h f after.2 = { Account.empty with refused := refused } := by
    rintro refused rfl hrunning
    simp [Account.record, raises, findsNothing, compiles, hp, hrunning, Account.empty,
      Account.underway]
  have hephemeral : ∀ b, after.2.berth? = some b → (b.ephemeral = true ↔ f.job.IsPassing) :=
    fun b => ephemeral_of_start hs
  rcases start_cases hs with ⟨id, hj, hl, rfl⟩ | ⟨id, hj, hn, rfl⟩ | ⟨_, id, _, hj, -, rfl⟩
  · obtain ⟨session, hfind⟩ := Option.ne_none_iff_exists'.1 hl
    rw [hrecord false (by simp [isRefused, hp, hj, hfind]) rfl]
    exact .atGate (hephemeral _ rfl)
  · rw [hrecord true (by simp [isRefused, hp, hj, hn]) rfl]
    exact .done (coherent_error (iff_of_true rfl (Or.inr rfl)) rfl rfl (List.forall_mem_nil _) rfl)
  · rw [hrecord false (by simp [isRefused, hp, hj]) rfl]
    exact .atGate (hephemeral _ rfl)

theorem recorded_passGate (hp : f.phase = .atGate b) (hb : b.ephemeral = true ↔ f.job.IsPassing)
    (hpass : passGate h f now b = some after) :
    Recorded f.job (Account.empty.record h f after.2) after.2.phase := by
  have hrecord : ∀ next : Flight, next.isRunning = false →
      Account.empty.record h f next = .empty := by
    intro next hrunning
    simp [Account.record, isRefused, raises, findsNothing, compiles, hp, hrunning, Account.empty,
      Account.underway]
  cases passGate_cases hpass with
  | aborted =>
      rw [hrecord _ rfl]
      refine .done (coherent_error ?_ rfl rfl (List.forall_mem_nil _) rfl)
      rw [namedSession_eq_none_iff, hb]
      simp
  | blocked =>
      rw [hrecord _ rfl]
      exact recorded_error rfl hb rfl (severity_violation _) (List.forall_mem_nil _) rfl
  | entered =>
      rw [hrecord _ rfl]
      exact .resolving hb (List.forall_mem_nil _) (by simp)

theorem recorded_resolveNext {r : Reference} {pending : List Reference} {found : List Resolved}
    (hp : f.phase = .resolving b (r :: pending) found failures)
    (hb : b.ephemeral = true ↔ f.job.IsPassing) (hw : ∀ d ∈ failures, d.severity = .warning)
    (hcount : f.job.packages.length = (r :: pending).length + found.length + failures.length) :
    Recorded f.job (Account.record (.underway failures none false) h f
        (resolveNext h f b r pending found failures).2)
      (resolveNext h f b r pending found failures).2.phase := by
  rw [List.length_cons] at hcount
  rw [resolveNext]
  cases hr : h.setup.resolver r with
  | ok resolved =>
      have hrecord : ∀ next : Flight, next.isRunning = false →
          Account.record (.underway failures none false) h f next =
            (.underway failures none false) := by
        intro next hrunning
        simp [Account.record, isRefused, raises, findsNothing, compiles, hp, hr, hrunning,
          Account.underway]
      dsimp only
      rw [hrecord _ rfl]
      refine .resolving hb hw ?_
      rw [List.length_append, List.length_singleton]
      omega
  | error e =>
      have hrecord : ∀ next : Flight, next.isRunning = false →
          Account.record (.underway failures none false) h f next =
            .underway (failures ++ [.warning Code.packageNotFound e.message]) none false := by
        intro next hrunning
        simp [Account.record, isRefused, raises, findsNothing, compiles, hp, hr, hrunning,
          Account.underway]
      dsimp only
      rw [hrecord _ rfl]
      refine .resolving hb (fun d hd => ?_) ?_
      · rcases List.mem_append.1 hd with hd | hd
        · exact hw d hd
        · rw [List.mem_singleton.1 hd]
          rfl
      · rw [List.length_append, List.length_singleton]
        omega

theorem isRunning_prepare (h : Host) (f : Flight) (b : Berth) (request : Request)
    (notes : List Diagnostic) : (prepare h f b request notes).2.isRunning = false := by
  rw [prepare]
  split
  · rfl
  · split
    · rfl
    · rfl

theorem recorded_prepare (h : Host) (request : Request) (hb : b.ephemeral = true ↔ f.job.IsPassing)
    (hw : ∀ d ∈ notes, d.severity = .warning) :
    Recorded f.job (.underway notes none false) (prepare h f b request notes).2.phase := by
  rw [prepare]
  split
  · exact recorded_error rfl hb rfl (severity_violation _) hw rfl
  · split
    · exact recorded_error rfl hb rfl rfl hw rfl
    · exact .compiling hb hw

/-- The packages are attached: a job that only loads them is done, and others are prepared. -/
theorem recorded_attached (k : Host) (added : List Reference)
    (hb : b.ephemeral = true ↔ f.job.IsPassing)
    (hw : ∀ d ∈ notes, d.severity = .warning)
    (hrecord : ∀ next : Flight, next.isRunning = false →
      a.record h f next = .underway notes none false)
    (hload : ∀ id packages, f.job = .load id packages →
      after.2.phase = .done (.loaded ⟨true, some b.id, added, [], notes⟩))
    (hexecute : ∀ request, f.job = .execute request → after = prepare k f b request notes) :
    Recorded f.job (a.record h f after.2) after.2.phase := by
  cases hj : f.job with
  | execute request =>
      have hprepared := recorded_prepare k request hb hw
      rw [hexecute request hj, hrecord _ (isRunning_prepare k f b request notes), ← hj]
      exact hprepared
  | load id packages =>
      rw [hrecord _ (by rw [isRunning, hload id packages hj]), hload id packages hj]
      refine .done ⟨⟨id, packages, rfl⟩, iff_of_true rfl rfl, ?_, hw, ?_, ?_⟩
      · exact List.forall_mem_nil _
      · simp [Account.warnings, Account.compilerWarnings, Account.underway]
      · rintro ds ⟨⟩

theorem recorded_attachAll {found : List Resolved} (hp : f.phase = .resolving b [] found failures)
    (hb : b.ephemeral = true ↔ f.job.IsPassing) (hw : ∀ d ∈ failures, d.severity = .warning)
    (hcount : f.job.packages.length = 0 + found.length + failures.length) :
    Recorded f.job (Account.record (.underway failures none false) h f
        (attachAll h f b found failures).2) (attachAll h f b found failures).2.phase := by
  have hrecord : ∀ next : Flight, next.isRunning = false →
      Account.record (.underway failures none false) h f next =
        ⟨false, failures ++ f.raises h, f.findsNothing, none, false⟩ := by
    intro next hrunning
    simp [Account.record, isRefused, compiles, hp, hrunning, Account.underway]
  rw [attachAll, attach]
  by_cases hnone : f.job.packages = []
  · rw [hnone, List.length_nil] at hcount
    obtain rfl : found = [] := List.length_eq_zero_iff.1 (by omega)
    obtain rfl : failures = [] := List.length_eq_zero_iff.1 (by omega)
    have hraises : f.raises h = [] := by simp [raises, hp]
    have hfinds : f.findsNothing = false := by simp [findsNothing, hp, hnone]
    rw [hraises, hfinds] at hrecord
    simp only [hnone, List.isEmpty_nil, if_true]
    refine recorded_attached h [] hb (List.forall_mem_nil _) hrecord ?_ ?_
    · intro id packages hj
      simp only [hj]
    · intro request hj
      simp only [hj]
  · have hsome : f.job.packages.isEmpty = false := List.isEmpty_eq_false_iff.2 hnone
    cases found with
    | nil =>
        have hraises : f.raises h = [] := by simp [raises, hp]
        have hfinds : f.findsNothing = true := by simp [findsNothing, hp, hsome]
        have hfailures : failures ≠ [] := by
          rintro rfl
          exact hnone (List.length_eq_zero_iff.1 hcount)
        have herrors : ∀ d ∈ failures.map (·.toError), d.severity = .error := by
          intro d hd
          obtain ⟨e, -, rfl⟩ := List.mem_map.1 hd
          rfl
        simp only [hsome, Bool.false_eq_true, if_false, List.isEmpty_nil, if_true]
        rw [hrecord _ rfl, hraises, hfinds, List.append_nil]
        refine .done (coherent_failureReply ?_ ?_ (List.forall_mem_nil _) ?_ ?_)
        · rw [namedSession_eq_none_iff, hb]
          simp
        · show errorsOf (failures.map (·.toError)) ≠ []
          rw [errorsOf_eq_self herrors]
          exact fun hnil => hfailures (List.map_eq_nil_iff.1 hnil)
        · exact warningsOf_eq_nil herrors
        · rintro ds ⟨⟩
          exact errorsOf_eq_self herrors
    | cons first rest =>
        have hfinds : f.findsNothing = false := by simp [findsNothing, hp]
        rw [hfinds] at hrecord
        simp only [hsome, Bool.false_eq_true, if_false, List.isEmpty_cons]
        cases hm : h.store.merge b.id (first :: rest) with
        | error e =>
            have hraises : f.raises h = [] := by simp [raises, hp, hm]
            dsimp only
            rw [hrecord _ rfl, hraises, List.append_nil]
            exact recorded_error rfl hb rfl rfl hw rfl
        | ok merging =>
            obtain ⟨store, merged⟩ := merging
            have hraises : f.raises h =
                if merged.stateDiscarded then [stateResetWarning merged.added] else [] := by
              simp [raises, hp, hm]
            have hnotes : (if merged.stateDiscarded then
                failures ++ [stateResetWarning merged.added] else failures) =
                  failures ++ f.raises h := by
              rw [hraises]
              split
              · rfl
              · exact (List.append_nil failures).symm
            have hmild : ∀ d ∈ failures ++ f.raises h, d.severity = .warning := by
              rw [hraises]
              intro d hd
              rcases List.mem_append.1 hd with hd | hd
              · exact hw d hd
              · split at hd
                · rw [List.mem_singleton.1 hd]
                  rfl
                · cases hd
            dsimp only
            rw [hnotes]
            refine recorded_attached { h with store := store } merged.added hb hmild hrecord ?_ ?_
            · intro id packages hj
              simp only [hj]
            · intro request hj
              simp only [hj]

theorem recorded_compile {references : List Resolved} {prior : Option Script.Continuation}
    {request : Request} (hgrades : h.setup.compiler.Grades)
    (hp : f.phase = .compiling b notes references prior) (hj : f.job = .execute request)
    (hb : b.ephemeral = true ↔ f.job.IsPassing) (hw : ∀ d ∈ notes, d.severity = .warning) :
    Recorded f.job (Account.record (.underway notes none false) h f
        (compile h f b notes references prior request).2)
      (compile h f b notes references prior request).2.phase := by
  have hrecord : ∀ next : Flight, next.isRunning = false →
      Account.record (.underway notes none false) h f next =
        .underway notes (some (h.setup.compiler.compile request.source references prior)) false := by
    intro next hrunning
    simp [Account.record, isRefused, raises, findsNothing, compiles, hp, hj, hrunning,
      Account.underway]
  have hgraded := hgrades request.source references prior
  simp only [compile, Host.compile]
  cases hc : h.setup.compiler.compile request.source references prior with
  | error ds =>
      rw [hc] at hgraded hrecord
      dsimp only
      rw [hrecord _ rfl]
      refine .done (coherent_failureReply ?_ hgraded hw ?_ ?_)
      · rw [namedSession_eq_none_iff, hb]
        simp [Account.underway]
      · simp [Account.warnings, Account.compilerWarnings, Account.underway, Failure.diagnostics]
      · rintro ds ⟨⟩
        rfl
  | ok compilation =>
      rw [hc] at hgraded hrecord
      dsimp only
      rw [hrecord _ rfl]
      exact .queued hb hw hgraded

theorem recorded_takeUnit {compilation : Compilation} (hp : f.phase = .queued b notes compilation)
    (hb : b.ephemeral = true ↔ f.job.IsPassing) (hw : ∀ d ∈ notes, d.severity = .warning)
    (hc : ∀ d ∈ compilation.warnings, d.severity = .warning)
    (ht : takeUnit h f now b notes compilation = some after) :
    Recorded f.job (Account.record
      (.underway notes (some (.ok compilation)) false) h f after.2)
        after.2.phase := by
  have hrecord : ∀ next : Flight, Account.record
      (.underway notes (some (.ok compilation)) false) h f next =
        .underway notes (some (.ok compilation)) next.isRunning := by
    intro next
    simp [Account.record, isRefused, raises, findsNothing, compiles, hp, Account.underway]
  rw [hrecord]
  cases takeUnit_cases ht with
  | aborted | refused => exact recorded_error rfl hb rfl rfl hw rfl
  | started => exact .running hb hw hc

/-- A run that is over has one error at most, and none only if it has completed. -/
theorem settle_errors (h : Host) (now : Nat) (b : Berth) (run : UnitRun) (request : Request) :
    (∀ d ∈ (settle h now b run request).2, d.severity = .error) ∧
      ((settle h now b run request).2 = [] → run.outcome.isCompleted = true) := by
  simp only [settle]
  cases run.outcome with
  | completed completion =>
      refine ⟨?_, fun _ => rfl⟩
      simp only [keep]
      split
      · split
        · exact List.forall_mem_nil _
        · exact fun d hd => List.mem_singleton.1 hd ▸ rfl
      · exact List.forall_mem_nil _
  | faulted | timedOut | cancelled | memoryExceeded =>
      refine ⟨fun d hd => List.mem_singleton.1 hd ▸ rfl, ?_⟩
      rintro ⟨⟩

theorem recorded_land {compilation : Compilation} {run : UnitRun} {request : Request}
    (hp : f.phase = .running b notes compilation.warnings run) (hj : f.job = .execute request)
    (hb : b.ephemeral = true ↔ f.job.IsPassing) (hw : ∀ d ∈ notes, d.severity = .warning)
    (hc : ∀ d ∈ compilation.warnings, d.severity = .warning) :
    Recorded f.job (Account.record
      (.underway notes (some (.ok compilation)) true) h f
        (land h f now b notes compilation.warnings run request).2)
      (land h f now b notes compilation.warnings run request).2.phase := by
  have hrecord : ∀ next : Flight, Account.record
      (.underway notes (some (.ok compilation)) true) h f
        next = .underway notes (some (.ok compilation)) true := by
    intro next
    simp [Account.record, isRefused, raises, findsNothing, compiles, hp, Account.underway]
  obtain ⟨hsevere, hcompleted⟩ := settle_errors h now b run request
  rw [land_eq, hrecord]
  generalize (settle h now b run request).2 = errors at hsevere hcompleted
  refine .done ⟨⟨request, hj⟩, ⟨?_, hsevere, ?_, ?_, ?_⟩, ?_, ?_⟩
  · simp only [landingReply, Bool.and_eq_true, List.isEmpty_iff]
    exact ⟨And.right, fun hnil => ⟨hcompleted hnil, hnil⟩⟩
  · intro d hd
    simp only [landingReply, List.mem_append] at hd
    rcases hd with (hd | hd) | hd
    · exact hw d hd
    · exact hc d hd
    · split at hd
      · rw [List.mem_singleton.1 hd]
        rfl
      · cases hd
  · simp [landingReply, Account.warnings, Account.compilerWarnings, Account.underway]
  · rintro ds ⟨⟩
  · rintro ⟨⟩
  · show namedSession b = none ↔ _
    rw [namedSession_eq_none_iff, hb]
    simp [Account.underway]

/-- Every step keeps the record right. -/
theorem Recorded.advance (hgrades : h.setup.compiler.Grades) (hr : Recorded f.job a f.phase)
    (ha : f.advance h now = some after) :
    Recorded after.2.job (a.record h f after.2) after.2.phase := by
  have hjob : after.2.job = f.job := congrArg (·.job) (anew_of_advance ha)
  rw [hjob]
  cases advance_cases ha with
  | start hp hs =>
      rw [hp] at hr
      cases hr
      exact recorded_start hp hs
  | passGate hp hpass =>
      rw [hp] at hr
      cases hr with
      | atGate hb => exact recorded_passGate hp hb hpass
  | resolveNext hp =>
      rw [hp] at hr
      cases hr with
      | resolving hb hw hcount => exact recorded_resolveNext hp hb hw hcount
  | attachAll hp =>
      rw [hp] at hr
      cases hr with
      | resolving hb hw hcount => exact recorded_attachAll hp hb hw hcount
  | compile hp hj =>
      rw [hp] at hr
      cases hr with
      | compiling hb hw => exact recorded_compile hgrades hp hj hb hw
  | takeUnit hp ht =>
      rw [hp] at hr
      cases hr with
      | queued hb hw hc => exact recorded_takeUnit hp hb hw hc ht
  | land hp hj =>
      rw [hp] at hr
      cases hr with
      | running hb hw hc => exact recorded_land hp hj hb hw hc

/-- The record is right all the way. -/
theorem Travelled.recorded {p : Host → Prop} (hgrades : ∀ h, p h → h.setup.compiler.Grades)
    (ht : f.Travelled p a) : Recorded f.job a f.phase := by
  induction ht with
  | start hp =>
      rw [hp]
      exact .opening
  | step _ hp ha ih => exact ih.advance (hgrades _ hp) ha

theorem Travelled.mono {p q : Host → Prop} (hpq : ∀ h, p h → q h) (ht : f.Travelled p a) :
    f.Travelled q a := by
  induction ht with
  | start hp => exact .start hp
  | step _ hp ha ih => exact .step ih (hpq _ hp) ha

end Flight

end ScriptHost
