import ScriptHost.Proofs.Host.Views

/-!
# A request alone in its session

A request that has passed the gate of its session goes on alone there. What it does in
traffic, it does as well on a host that serves nobody else, at the same moments: the steps
follow each other one by one, and show the same to the session.
-/

namespace ScriptHost

/-- The run without the number of its unit. -/
def UnitRun.unnumbered (r : UnitRun) : UnitRun :=
  { r with loaded := { r.loaded with generation := 0 } }

/-- The phase without the number of a unit. -/
def Phase.unnumbered : Phase → Phase
  | .running b notes warnings run => .running b notes warnings run.unnumbered
  | phase => phase

theorem Phase.unnumbered_eq_or_running (p : Phase) :
    p.unnumbered = p ∨ ∃ b notes warnings run, p = .running b notes warnings run := by
  cases p with
  | running b notes warnings run => exact Or.inr ⟨b, notes, warnings, run, rfl⟩
  | opening | atGate | resolving | compiling | queued | done => exact Or.inl rfl

/-- The permits of a session: those at its gate, and those for units. -/
structure Host.Permits (h : Host) (id : String) (gate slots : Semaphore) : Prop where
  gate : h.store.gate id = gate
  slots : h.domain.slots = slots

namespace Host.Permits

variable {h h' : Host} {id : String} {gate slots : Semaphore}

theorem writes (hp : h.Permits id gate slots) (hw : h.Writes id h') : h'.Permits id gate slots :=
  ⟨(hw.gate id).trans hp.gate, (congrArg Domain.slots hw.domain).trans hp.slots⟩

theorem openGate {b : Berth} (hp : h.Permits b.id gate slots) :
    (Flight.openGate h b).Permits b.id gate.release slots := by
  refine ⟨?_, hp.slots⟩
  rw [← hp.gate]
  exact SessionStore.gate_changeGate_self h.store b.id _

theorem leave {b : Berth} (hp : h.Permits b.id gate slots) :
    (Flight.closeBerth (Flight.openGate h b) b).Permits b.id gate.release slots :=
  hp.openGate.writes (Flight.writes_closeBerth _ b)

end Host.Permits

namespace Flight

/-- The request without the number of its unit. -/
def unnumbered (f : Flight) : Flight := { f with phase := f.phase.unnumbered }

variable {id : String} {b : Berth} {units now : Nat} {h k : Host} {f g : Flight}

theorem anew_unnumbered (f : Flight) : f.unnumbered.anew = f.anew := rfl

theorem reply?_unnumbered (f : Flight) : f.unnumbered.reply? = f.reply? := by
  obtain ⟨ticket, job, abortAt, phase⟩ := f
  cases phase with
  | opening | atGate | resolving | compiling | queued | running | done => rfl

theorem anew_eq (hfg : f.unnumbered = g.unnumbered) : f.anew = g.anew := by
  rw [← anew_unnumbered f, hfg, anew_unnumbered]

theorem reply?_eq (hfg : f.unnumbered = g.unnumbered) : f.reply? = g.reply? := by
  rw [← reply?_unnumbered f, hfg, reply?_unnumbered]

theorem withPhase_eq (hfg : f.anew = g.anew) (phase : Phase) :
    { f with phase := phase } = { g with phase := phase } := by
  obtain ⟨ticket, job, abortAt, _⟩ := f
  obtain ⟨ticket', job', abortAt', _⟩ := g
  simp only [anew, new, mk.injEq, and_true] at hfg
  obtain ⟨rfl, rfl, rfl⟩ := hfg
  rfl

/-- Requests that differ in the number of a unit at most are the same, or run it. -/
theorem eq_or_running (hfg : f.unnumbered = g.unnumbered) :
    f = g ∨ ∃ b notes warnings run run', f.phase = .running b notes warnings run ∧
      g = { f with phase := .running b notes warnings run' } ∧
      run.unnumbered = run'.unnumbered := by
  obtain ⟨ticket, job, abortAt, p⟩ := f
  obtain ⟨ticket', job', abortAt', q⟩ := g
  simp only [unnumbered, mk.injEq] at hfg
  obtain ⟨rfl, rfl, rfl, hpq⟩ := hfg
  rcases p.unnumbered_eq_or_running with hp | ⟨b, notes, warnings, run, rfl⟩
  · rcases q.unnumbered_eq_or_running with hq | ⟨b, notes, warnings, run, rfl⟩
    · rw [hp, hq] at hpq
      exact Or.inl (by rw [hpq])
    · rw [hp] at hpq
      exact Or.inr ⟨b, notes, warnings, run.unnumbered, run, hpq, rfl, rfl⟩
  · rcases q.unnumbered_eq_or_running with hq | ⟨b', notes', warnings', run', rfl⟩
    · rw [hq] at hpq
      exact Or.inr ⟨b, notes, warnings, run, run.unnumbered, rfl, by rw [← hpq]; rfl, rfl⟩
    · simp only [Phase.unnumbered, Phase.running.injEq] at hpq
      obtain ⟨rfl, rfl, rfl, hrun⟩ := hpq
      exact Or.inr ⟨b, notes, warnings, run, run', rfl, rfl, hrun⟩

/-- A request is alone in its session, beyond the gate, on a host that serves nobody else and
has a unit for it. -/
def Alone (id : String) (units : Nat) (h : Host) (f : Flight) : Prop :=
  match f.phase with
  | .opening | .atGate _ => False
  | .resolving b _ _ _ | .compiling b _ _ _ =>
    b.id = id ∧ h.Permits id ⟨0, []⟩ ⟨units + 1, []⟩
  | .queued b _ _ => b.id = id ∧ h.Permits id ⟨0, []⟩ ⟨units + 1, [f.ticket]⟩
  | .running b _ _ _ => b.id = id ∧ h.Permits id ⟨0, []⟩ ⟨units, []⟩
  | .done _ => h.Permits id (.new 1) ⟨units + 1, []⟩

/-- A request alone has left what it leaves in traffic. -/
structure Follows (id : String) (units : Nat) (inTraffic alone : Host × Flight) : Prop where
  flight : inTraffic.2.unnumbered = alone.2.unnumbered
  view : inTraffic.1.view id = alone.1.view id
  alone : Alone id units alone.1 alone.2

theorem follows_fail (hv : h.view b.id = k.view b.id) (hk : k.Permits b.id ⟨0, []⟩ ⟨units + 1, []⟩)
    (f : Flight) (notes : List Diagnostic) (failure : Failure) :
    Follows b.id units (fail h f b notes failure)
      (fail k f b notes failure) where
  flight := rfl
  view := Host.view_leave hv
  alone := hk.leave

theorem follows_resolveNext (hv : h.view b.id = k.view b.id)
    (hk : k.Permits b.id ⟨0, []⟩ ⟨units + 1, []⟩) (f : Flight) (r : Reference)
    (pending : List Reference) (found : List Resolved) (failures : List Diagnostic) :
    Follows b.id units (resolveNext h f b r pending found failures)
      (resolveNext k f b r pending found failures) := by
  have hsetup : h.setup = k.setup := congrArg View.setup hv
  rw [resolveNext, resolveNext, hsetup]
  split
  · exact ⟨rfl, hv, rfl, hk⟩
  · exact ⟨rfl, hv, rfl, hk⟩

theorem attach_agree (hv : h.view b.id = k.view b.id) (job : Job) (found : List Resolved)
    (failures : List Diagnostic) :
    (attach h job b found failures).2 = (attach k job b found failures).2 ∧
      (attach h job b found failures).1.view b.id =
        (attach k job b found failures).1.view b.id := by
  rw [attach, attach]
  split
  · exact ⟨rfl, hv⟩
  · split
    · exact ⟨rfl, hv⟩
    · rcases Host.merge_agree hv found with ⟨e, hh, hk⟩ | ⟨s, t, m, hh, hk, hst⟩
      · rw [hh, hk]
        exact ⟨rfl, hv⟩
      · rw [hh, hk]
        exact ⟨rfl, hst⟩

theorem follows_prepare (hv : h.view b.id = k.view b.id)
    (hk : k.Permits b.id ⟨0, []⟩ ⟨units + 1, []⟩) (f : Flight) (request : Request)
    (notes : List Diagnostic) :
    Follows b.id units (prepare h f b request notes)
      (prepare k f b request notes) := by
  have hsetup : h.setup = k.setup := congrArg View.setup hv
  rw [prepare, prepare, hsetup]
  split
  · exact follows_fail hv hk f notes _
  · rcases Host.context_agree hv with ⟨e, he, he'⟩ | ⟨h', k', references, prior, hc, hc'⟩
    · rw [he, he']
      exact follows_fail hv hk f notes _
    · rw [hc, hc']
      refine ⟨rfl, ?_, rfl, hk.writes (Host.writes_of_context hc')⟩
      calc h'.view b.id = h.view b.id := Host.view_of_context hc b.id
        _ = k.view b.id := hv
        _ = k'.view b.id := (Host.view_of_context hc' b.id).symm

theorem follows_attachAll (hv : h.view b.id = k.view b.id)
    (hk : k.Permits b.id ⟨0, []⟩ ⟨units + 1, []⟩) (f : Flight) (found : List Resolved)
    (failures : List Diagnostic) :
    Follows b.id units (attachAll h f b found failures)
      (attachAll k f b found failures) := by
  obtain ⟨hrest, hview⟩ := attach_agree hv f.job found failures
  have hpermits := hk.writes (writes_attach k f.job b found failures)
  rw [attachAll, attachAll]
  cases ha : attach h f.job b found failures with
  | mk h' rest =>
      cases hb : attach k f.job b found failures with
      | mk k' rest' =>
          rw [ha, hb] at hrest hview
          rw [hb] at hpermits
          cases hrest
          obtain ⟨notes, e | added⟩ := rest
          · exact follows_fail hview hpermits f notes e
          · cases hj : f.job with
            | load session packages =>
                exact ⟨rfl, Host.view_openGate hview, hpermits.openGate⟩
            | execute request => exact follows_prepare hview hpermits f request notes

theorem follows_compile (hv : h.view b.id = k.view b.id)
    (hk : k.Permits b.id ⟨0, []⟩ ⟨units + 1, []⟩) (f : Flight) (notes : List Diagnostic)
    (references : List Resolved) (prior : Option Script.Continuation) (request : Request) :
    Follows b.id units (compile h f b notes references prior request)
      (compile k f b notes references prior request) := by
  have hsetup : h.setup = k.setup := congrArg View.setup hv
  have hv' : { h with compilations := h.compilations + 1 }.view b.id =
      { k with compilations := k.compilations + 1 }.view b.id := hv
  cases hc : k.setup.compiler.compile request.source references prior with
  | error ds =>
      have hc' := (congrArg (·.compiler.compile request.source references prior) hsetup).trans hc
      simp only [compile, Host.compile, hc, hc']
      exact follows_fail hv' ⟨hk.gate, hk.slots⟩ f notes _
  | ok compilation =>
      have hc' := (congrArg (·.compiler.compile request.source references prior) hsetup).trans hc
      simp only [compile, Host.compile, hc, hc']
      refine ⟨rfl, Host.view_domain hv' rfl rfl, rfl, hk.gate, ?_⟩
      show k.domain.slots.join f.ticket = _
      rw [hk.slots]
      rfl

theorem follows_takeUnit (hv : h.view b.id = k.view b.id)
    (hk : k.Permits b.id ⟨0, []⟩ ⟨units + 1, [f.ticket]⟩) {notes : List Diagnostic}
    {compilation : Compilation} {after : Host × Flight}
    (ht : takeUnit h f now b notes compilation = some after) :
    ∃ after', takeUnit k f now b notes compilation = some after' ∧
      Follows b.id units after after' := by
  have hsetup : h.setup = k.setup := congrArg View.setup hv
  have hclosed : h.domain.closed = k.domain.closed := congrArg View.closed hv
  have hleft : { h with domain := h.domain.giveUp f.ticket }.view b.id =
      { k with domain := k.domain.giveUp f.ticket }.view b.id := Host.view_domain hv rfl rfl
  have hpermits : { k with domain := k.domain.giveUp f.ticket }.Permits b.id ⟨0, []⟩
      ⟨units + 1, []⟩ := by
    refine ⟨hk.gate, ?_⟩
    show k.domain.slots.leave f.ticket = _
    rw [hk.slots]
    simp [Semaphore.leave]
  simp only [takeUnit] at ht ⊢
  split at ht
  · rename_i habort
    cases ht
    exact ⟨_, if_pos habort, follows_fail hleft hpermits f notes _⟩
  · rename_i habort
    rw [if_neg habort]
    by_cases hc : k.domain.closed = true
    · have hh : ∀ n, h.domain.load f.ticket compilation.activity n = .refused := fun n => by
        rw [Domain.load, if_pos (hclosed.trans hc)]
      have hk' : ∀ n, k.domain.load f.ticket compilation.activity n = .refused := fun n => by
        rw [Domain.load, if_pos hc]
      simp only [hh, hk'] at ht ⊢
      cases ht
      exact ⟨_, rfl, follows_fail hleft hpermits f notes _⟩
    · have henter : k.domain.slots.mayEnter f.ticket = true := by
        rw [hk.slots]
        simp [Semaphore.mayEnter]
      have hslots : k.domain.slots.enter f.ticket = ⟨units, []⟩ := by
        rw [hk.slots]
        simp [Semaphore.enter]
      simp only [Domain.load, if_neg hc, if_pos henter, hclosed, LoadedUnit.run] at ht ⊢
      by_cases hm : h.domain.slots.mayEnter f.ticket = true
      · simp only [if_pos hm] at ht
        cases ht
        refine ⟨_, rfl, ?_, Host.view_domain hv hclosed.symm rfl, rfl, hk.gate, hslots⟩
        simp only [unnumbered, Phase.unnumbered, UnitRun.unnumbered, hsetup, Host.limits,
          Host.monitor]
      · simp only [if_neg hm] at ht
        cases ht

theorem keep_agree (hv : h.view b.id = k.view b.id) (persist : Bool) (completion : Completion) :
    (keep h b persist completion).2 = (keep k b persist completion).2 ∧
      (keep h b persist completion).1.view b.id =
        (keep k b persist completion).1.view b.id := by
  rw [keep, keep]
  split
  · rcases Host.updateState_agree hv completion.continuation with
      ⟨e, hh, hk⟩ | ⟨s, t, hh, hk, hst⟩
    · rw [hh, hk]
      exact ⟨rfl, hv⟩
    · rw [hh, hk]
      exact ⟨rfl, hst⟩
  · refine ⟨rfl, ?_⟩
    rw [Host.view_touch, Host.view_touch, hv]

theorem settle_agree (hv : h.view b.id = k.view b.id) (hk : k.Permits b.id ⟨0, []⟩ ⟨units, []⟩)
    {run run' : UnitRun} (hrun : run.unnumbered = run'.unnumbered) (now : Nat)
    (request : Request) :
    (settle h now b run request).2 = (settle k now b run' request).2 ∧
      (settle h now b run request).1.view b.id =
        (settle k now b run' request).1.view b.id ∧
      (settle k now b run' request).1.Permits b.id ⟨0, []⟩ ⟨units + 1, []⟩ := by
  have houtcome : run.outcome = run'.outcome := congrArg (·.outcome) hrun
  have hd := Host.view_domain hv (d := (h.domain.release run.loaded now).1)
    (e := (k.domain.release run'.loaded now).1) rfl rfl
  have hpermits : { k with domain := (k.domain.release run'.loaded now).1 }.Permits b.id ⟨0, []⟩
      ⟨units + 1, []⟩ := by
    refine ⟨hk.gate, ?_⟩
    show k.domain.slots.release = _
    rw [hk.slots]
    rfl
  simp only [settle, houtcome]
  split
  · rename_i completion _
    obtain ⟨herrors, hview⟩ := keep_agree hd request.persist completion
    exact ⟨herrors, hview, hpermits.writes (writes_keep _ b request.persist completion)⟩
  · exact ⟨rfl, hd, hpermits⟩

theorem landingReply_agree {run run' : UnitRun} (hrun : run.unnumbered = run'.unnumbered)
    (now : Nat) (b : Berth) (notes warnings errors : List Diagnostic) :
    landingReply now b notes warnings run errors =
      landingReply now b notes warnings run' errors := by
  obtain ⟨⟨generation, code, output, lingers⟩, outcome, finish, course⟩ := run
  obtain ⟨⟨generation', code', output', lingers'⟩, outcome', finish', course'⟩ := run'
  simp only [UnitRun.unnumbered, UnitRun.mk.injEq, LoadedUnit.mk.injEq, true_and] at hrun
  obtain ⟨⟨rfl, rfl, rfl⟩, rfl, rfl, rfl⟩ := hrun
  rfl

theorem follows_land (hv : h.view b.id = k.view b.id) (hk : k.Permits b.id ⟨0, []⟩ ⟨units, []⟩)
    {run run' : UnitRun} (hrun : run.unnumbered = run'.unnumbered) (hfg : f.anew = g.anew)
    (notes warnings : List Diagnostic) (request : Request) :
    Follows b.id units (land h f now b notes warnings run request)
      (land k g now b notes warnings run' request) := by
  obtain ⟨herrors, hview, hpermits⟩ := settle_agree hv hk hrun now request
  rw [land_eq, land_eq, herrors, landingReply_agree hrun]
  exact ⟨congrArg unnumbered (withPhase_eq hfg _), Host.view_leave hview,
    hpermits.leave⟩

theorem follows_running {notes warnings : List Diagnostic} {run run' : UnitRun}
    (hp : f.phase = .running b notes warnings run)
    (hq : g.phase = .running b notes warnings run') (hrun : run.unnumbered = run'.unnumbered)
    (hfg : f.anew = g.anew) (hv : h.view b.id = k.view b.id) (hg : Alone b.id units k g)
    {after : Host × Flight} (ha : f.advance h now = some after) :
    ∃ after', g.advance k now = some after' ∧ Follows b.id units after after' := by
  have hfinish : run.finish = run'.finish := congrArg (·.finish) hrun
  have hjob : f.job = g.job := congrArg (·.job) hfg
  rw [Alone, hq] at hg
  have hk := hg.2
  rw [advance, hp] at ha
  rw [advance, hq]
  cases hj : g.job with
  | execute request =>
      simp only [hjob, hj, hfinish] at ha ⊢
      split at ha
      · rename_i hdone
        cases ha
        exact ⟨_, if_pos hdone, follows_land hv hk hrun hfg notes warnings request⟩
      · cases ha
  | load session packages =>
      simp only [hjob, hj] at ha
      cases ha

/-- What a request does next in its session beyond the gate, it does alone as well. -/
theorem follows_advance (hfg : f.unnumbered = g.unnumbered) (hv : h.view id = k.view id)
    (hg : Alone id units k g) {after : Host × Flight} (ha : f.advance h now = some after) :
    ∃ after', g.advance k now = some after' ∧ Follows id units after after' := by
  rcases eq_or_running hfg with rfl | ⟨b, notes, warnings, run, run', hp, rfl, hrun⟩
  · cases hp : f.phase with
    | opening | atGate b =>
        rw [Alone, hp] at hg
        exact hg.elim
    | resolving b pending found failures =>
        rw [Alone, hp] at hg
        rw [advance, hp] at ha ⊢
        obtain ⟨rfl, hk⟩ := hg
        cases pending with
        | nil =>
            cases ha
            exact ⟨_, rfl, follows_attachAll hv hk f found failures⟩
        | cons r pending =>
            cases ha
            exact ⟨_, rfl, follows_resolveNext hv hk f r pending found failures⟩
    | compiling b notes references prior =>
        rw [Alone, hp] at hg
        rw [advance, hp] at ha ⊢
        obtain ⟨rfl, hk⟩ := hg
        cases hj : f.job with
        | execute request =>
            simp only [hj] at ha ⊢
            cases ha
            exact ⟨_, rfl, follows_compile hv hk f notes references prior request⟩
        | load session packages =>
            simp only [hj] at ha
            cases ha
    | queued b notes compilation =>
        rw [Alone, hp] at hg
        rw [advance, hp] at ha ⊢
        obtain ⟨rfl, hk⟩ := hg
        exact follows_takeUnit hv hk ha
    | running b notes warnings run =>
        obtain rfl : b.id = id := by
          rw [Alone, hp] at hg
          exact hg.1
        exact follows_running hp hp rfl rfl hv hg ha
    | done reply =>
        rw [advance, hp] at ha
        cases ha
  · obtain rfl : b.id = id := hg.1
    exact follows_running (g := { f with phase := .running b notes warnings run' }) hp rfl hrun
      rfl hv hg ha

/-- A request that goes to the gate alone stands there first. -/
theorem joinGate_alone (f : Flight) (hk : k.Permits b.id (.new 1) ⟨units + 1, []⟩) :
    (joinGate k f b).1.view b.id = k.view b.id ∧
      (joinGate k f b).1.Permits b.id ⟨1, [f.ticket]⟩ ⟨units + 1, []⟩ := by
  have hgate : (joinGate k f b).1.store.gate b.id = (k.store.gate b.id).join f.ticket :=
    SessionStore.gate_changeGate_self k.store b.id _
  refine ⟨?_, ?_, hk.slots⟩
  · simp only [Host.view, hgate]
    rfl
  · rw [hgate, hk.gate]
    rfl

/-- A request that names a session goes there first. -/
theorem start_eq_findBerth (hj : f.job.session? = some id) (k : Host) :
    f.start k = some (findBerth k f id) := by
  rw [start]
  cases hjob : f.job with
  | load other packages =>
      rw [hjob] at hj
      cases hj
      rfl
  | execute request =>
      rw [hjob] at hj
      have hr : requestedSession request.session = some id := hj
      simp only [hr]

theorem start_eq_joinGate (hj : f.job.session? = some id)
    (hl : k.store.registry.find? id ≠ none) :
    f.start k = some (joinGate k f ⟨id, false⟩) := by
  obtain ⟨s, hs⟩ := Option.ne_none_iff_exists'.1 hl
  rw [start_eq_findBerth hj, findBerth, hs]

theorem mayEnter_of_passGate {b : Berth} (habort : f.isAborted now = false)
    {after : Host × Flight} (hp : passGate h f now b = some after) :
    (h.store.gate b.id).mayEnter f.ticket = true := by
  simp only [passGate, habort, Bool.false_eq_true, if_false] at hp
  split at hp
  · rename_i hmay
    exact hmay
  · cases hp

theorem Alone.reply_or_busy (ha : Alone id units k g) :
    (g.reply?.isSome ∧ k.Permits id (.new 1) ⟨units + 1, []⟩) ∨
      (g.reply? = none ∧ (k.store.gate id).free = 0) := by
  rw [Alone] at ha
  rw [reply?]
  cases hp : g.phase with
  | opening | atGate =>
      rw [hp] at ha
      exact ha.elim
  | resolving | compiling | queued | running =>
      rw [hp] at ha
      exact Or.inr ⟨rfl, by rw [ha.2.gate]⟩
  | done reply =>
      rw [hp] at ha
      exact Or.inl ⟨rfl, ha⟩

/-- A request that passes the gate in traffic passes it alone as well. -/
theorem follows_passGate (hv : h.view b.id = k.view b.id)
    (hk : k.Permits b.id ⟨1, [f.ticket]⟩ ⟨units + 1, []⟩) (habort : f.isAborted now = false)
    {after : Host × Flight} (hp : passGate h f now b = some after) :
    ∃ after', passGate k f now b = some after' ∧ Follows b.id units after after' := by
  have hsetup : h.setup = k.setup := congrArg View.setup hv
  have hview := Host.view_changeGate hv (f := (·.enter f.ticket)) (g := (· - 1)) fun _ => rfl
  have hmay : (k.store.gate b.id).mayEnter f.ticket = true := by
    rw [hk.gate]
    simp [Semaphore.mayEnter]
  have hpermits : { k with store := k.store.changeGate b.id (·.enter f.ticket) }.Permits b.id ⟨0, []⟩
      ⟨units + 1, []⟩ := by
    refine ⟨?_, hk.slots⟩
    show (k.store.changeGate b.id _).gate b.id = _
    rw [SessionStore.gate_changeGate_self, hk.gate]
    simp [Semaphore.enter]
  have hcheck : Guard.checkPackages f.job.packages h.setup.policy =
      Guard.checkPackages f.job.packages k.setup.policy := by rw [hsetup]
  simp only [passGate, habort, hmay, hcheck, if_true, Bool.false_eq_true, if_false] at hp ⊢
  split at hp
  · cases hc : Guard.checkPackages f.job.packages k.setup.policy with
    | error v =>
        simp only [hc] at hp ⊢
        cases hp
        exact ⟨_, rfl, follows_fail hview hpermits f [] _⟩
    | ok =>
        simp only [hc] at hp ⊢
        cases hp
        exact ⟨_, rfl, rfl, hview, rfl, hpermits⟩
  · cases hp

end Flight

end ScriptHost
