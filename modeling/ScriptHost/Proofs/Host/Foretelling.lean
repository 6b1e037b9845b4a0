import ScriptHost.Proofs.Host.Approach
import ScriptHost.Proofs.Host.Coherence
import ScriptHost.Proofs.Host.Independence
import ScriptHost.Proofs.Host.Naming

/-!
# What a verdict foretells

A verdict on a source is right about the run that would come of it. A request with the source stops
before it loads a unit exactly when the verdict is against it, and then it tells the same as the
verdict. When the source is valid, the reply to the request begins with the warnings of the verdict.
The verdict itself costs the session an access, and nothing else.
-/

namespace ScriptHost

/-- The verdict says what is found before a unit is loaded, if a unit is loaded at all, by a host
that had loaded so many. -/
structure Verdict.Foretells (v : Verdict) (loaded : Nat) (served : Host × List (Option JobReply)) :
    Prop where
  stops : v.isValid = false → served.1.domain.loaded = loaded ∧ ∃ reply,
    served.2 = [some (.executed reply)] ∧ reply.success = false ∧ reply.errors = v.errors ∧
      reply.warnings = v.warnings
  runs : v.isValid = true → served.1.domain.loaded = loaded + 1 ∧
    ∀ reply, served.2 = [some reply] → ∃ r, reply = .executed r ∧ v.warnings <+: r.warnings

namespace Flight

variable {h k : Host} {f g : Flight} {b : Berth} {request : Request} {loaded now : Nat}
  {warnings : List Diagnostic}

/-- A failure before a run is foretold. -/
theorem foretells_failure (hj : f.job = .execute request) {failure : Failure}
    (hsevere : errorsOf failure.diagnostics ≠ []) (session : Option String) (k : Host) :
    (Verdict.ofDiagnostics failure.diagnostics).Foretells k.domain.loaded
      (k, [some (failureReply f.job session [] failure)]) where
  stops _ := by
    rw [hj]
    exact ⟨rfl, _, rfl, rfl, rfl, rfl⟩
  runs hv := by
    rw [Verdict.ofDiagnostics, List.isEmpty_iff] at hv
    exact absurd hv hsevere

theorem domain_closeBerth (h : Host) (b : Berth) : (closeBerth h b).domain = h.domain :=
  (writes_closeBerth h b).domain

theorem foretells_fail (hj : f.job = .execute request) (failure : Failure)
    (hsevere : errorsOf failure.diagnostics ≠ []) :
    (Verdict.ofDiagnostics failure.diagnostics).Foretells h.domain.loaded
      (ending (fail h f b [] failure)) := by
  have hfails := foretells_failure hj hsevere (namedSession b)
    { closeBerth (openGate h b) b with removals := [] }
  rw [show ({ closeBerth (openGate h b) b with removals := [] } : Host).domain = h.domain from
    domain_closeBerth _ b] at hfails
  rw [fail, ending_of_done rfl]
  exact hfails

/-! ## A run to come -/

/-- The request runs a unit, or has run it, and the warnings on its source come first in its
reply. -/
inductive Underway (warnings : List Diagnostic) (loaded : Nat) : Host → Flight → Prop
  | running {h : Host} {f : Flight} {b : Berth} {run : UnitRun}
      (hp : f.phase = .running b [] warnings run) (hloaded : h.domain.loaded = loaded) :
      Underway warnings loaded h f
  | done {h : Host} {f : Flight} {reply : Reply} (hp : f.phase = .done (.executed reply))
      (hwarnings : warnings <+: reply.warnings) (hloaded : h.domain.loaded = loaded) :
      Underway warnings loaded h f

theorem loaded_settle (h : Host) (now : Nat) (b : Berth) (run : UnitRun) (request : Request) :
    (settle h now b run request).1.domain.loaded = h.domain.loaded := by
  rw [settle]
  split
  · rw [(writes_keep _ b request.persist _).domain]
    rfl
  · rfl

theorem Underway.advance {after : Host × Flight} (hu : Underway warnings loaded h f)
    (ha : f.advance h now = some after) : Underway warnings loaded after.1 after.2 := by
  cases hu with
  | running hp hloaded =>
      cases advance_cases ha with
      | start hp' | passGate hp' | resolveNext hp' | attachAll hp' | compile hp' | takeUnit hp' =>
          rw [hp] at hp'
          cases hp'
      | land hp' =>
          rw [hp] at hp'
          cases hp'
          rw [land_eq]
          refine .done rfl ?_ ?_
          · rw [landingReply, List.nil_append]
            exact List.prefix_append _ _
          · rw [domain_closeBerth]
            exact (loaded_settle h now _ _ _).trans hloaded
  | done hp =>
      rw [advance_of_reply (by rw [reply?, hp]; rfl)] at ha
      cases ha

/-- A run that is loaded was foretold by a verdict without errors. -/
theorem foretells_running {v : Verdict} {run : UnitRun} (hv : v.isValid = true)
    (ha : f.advance h 0 = some (k, g)) (hp : g.phase = .running b [] v.warnings run)
    (hloaded : k.domain.loaded = loaded + 1) : v.Foretells loaded (ending (h, f)) := by
  obtain ⟨moments, x, y, hfollow, hending⟩ := follow_of_running ha
  have hend : Underway v.warnings (loaded + 1) x y :=
    follow_preserves Underway.advance (.running hp hloaded) hfollow
  rw [hending]
  refine ⟨fun hn => absurd (hv.symm.trans hn) Bool.noConfusion, fun _ => ?_⟩
  cases hend with
  | running hp hloaded =>
      refine ⟨hloaded, fun reply hreply => ?_⟩
      rw [reply?, hp] at hreply
      cases hreply
  | done hp hwarnings hloaded =>
      refine ⟨hloaded, fun reply hreply => ?_⟩
      rw [reply?, hp] at hreply
      cases hreply
      exact ⟨_, rfl, hwarnings⟩

/-- A unit is free for a request that queues alone. -/
theorem takeUnit_alone {units : Nat} (hopen : h.domain.closed = false)
    (hslots : h.domain.slots = ⟨units + 1, []⟩) (habort : f.abortAt = none)
    (now : Nat) (notes : List Diagnostic) (compilation : Compilation) :
    ∃ d run, takeUnit { h with domain := h.domain.queue f.ticket } f now b notes compilation =
        some ({ h with domain := d },
          { f with phase := .running b notes compilation.warnings run }) ∧
      d.loaded = h.domain.loaded + 1 := by
  have hmay : (h.domain.queue f.ticket).slots.mayEnter f.ticket = true := by
    simp [Domain.queue, hslots, Semaphore.join, Semaphore.mayEnter]
  have hgoes : f.isAborted now = false := by
    rw [isAborted, habort]
    rfl
  have hclosed : (h.domain.queue f.ticket).closed = false := hopen
  simp only [takeUnit, hgoes, Domain.load, hclosed, hmay, Bool.false_eq_true, if_false, if_true]
  exact ⟨_, _, rfl, rfl⟩

/-! ## From the source to a unit -/

theorem advance_compiling (hj : f.job = .execute request) (h : Host) (now : Nat) (b : Berth)
    (notes : List Diagnostic) (references : List Resolved) (prior : Option Script.Continuation) :
    ({ f with phase := .compiling b notes references prior } : Flight).advance h now =
      some (compile h f b notes references prior request) := by
  obtain ⟨ticket, job, abortAt, phase⟩ := f
  cases hj
  rfl

/-- Behind the gate, a request without packages meets with what the verdict on its source says. -/
theorem foretells_prepare {units : Nat} {s : Session} (hj : f.job = .execute request)
    (habort : f.abortAt = none) (hgrades : h.setup.compiler.Grades)
    (hopen : h.domain.closed = false) (hslots : h.domain.slots = ⟨units + 1, []⟩)
    (hblank : Text.isBlankText b.id = false) (hfind : h.store.registry.find? b.id = some s) :
    (h.verdictIn request.source s).Foretells h.domain.loaded
      (ending (prepare h f b request [])) := by
  rw [prepare, Host.verdictIn]
  cases hguard : Guard.checkSource request.source h.setup.policy with
  | error v =>
      apply foretells_fail hj (.guard v)
      show errorsOf [v.diagnostic] ≠ []
      rw [errorsOf_eq_self fun d hd => by rw [List.mem_singleton.1 hd, severity_violation]]
      exact List.cons_ne_nil _ _
  | ok =>
      simp only [Host.context_of_find? hblank hfind]
      have hgraded := hgrades request.source s.references s.continuation
      generalize hstore : h.store.withRegistry (h.accessed b.id s) = store
      cases hcompile : h.setup.compiler.compile request.source s.references s.continuation with
      | error ds =>
          rw [hcompile] at hgraded
          have hstep := advance_compiling hj { h with store := store } 0 b [] s.references
            s.continuation
          simp only [compile, Host.compile, hcompile] at hstep
          rw [ending_of_advance hstep Nat.zero_ne_one]
          exact foretells_fail (h := { h with store := store, compilations := h.compilations + 1 })
            hj (.compilation ds) hgraded
      | ok compilation =>
          rw [hcompile] at hgraded
          have hstep := advance_compiling hj { h with store := store } 0 b [] s.references
            s.continuation
          simp only [compile, Host.compile, hcompile] at hstep
          rw [ending_of_advance hstep (Nat.succ_succ_ne_one 0)]
          obtain ⟨d, run, htake, hloaded⟩ := takeUnit_alone (b := b)
            (h := { h with store := store, compilations := h.compilations + 1 }) hopen hslots habort
            0 [] compilation
          have hvalid : (Verdict.ofDiagnostics compilation.warnings).isValid = true := by
            rw [Verdict.ofDiagnostics, errorsOf_eq_nil hgraded]
            rfl
          have hphase : Phase.running b [] compilation.warnings run =
              .running b [] (Verdict.ofDiagnostics compilation.warnings).warnings run := by
            rw [Verdict.ofDiagnostics, warningsOf_eq_self hgraded]
          exact foretells_running hvalid htake hphase hloaded

/-- A request to run a source that comes without packages. -/
def ofSource (source : String) (session : Option String) (persist : Bool) : Flight :=
  .new 0 (.execute ⟨source, session, [], persist⟩) none

/-- So it does when it is at the open gate of the session. -/
theorem foretells_joinGate {units : Nat} {s : Session} (hj : f.job = .execute request)
    (hpackages : request.packages = []) (habort : f.abortAt = none)
    (hgrades : h.setup.compiler.Grades) (hgate : h.store.gate b.id = .new 1)
    (hopen : h.domain.closed = false) (hslots : h.domain.slots = ⟨units + 1, []⟩)
    (hblank : Text.isBlankText b.id = false) (hfind : h.store.registry.find? b.id = some s) :
    (h.verdictIn request.source s).Foretells h.domain.loaded (ending (joinGate h f b)) := by
  have hnone : f.job.packages = [] := by rw [hj]; exact hpackages
  rw [ending_joinGate hgate habort, attached_eq, hnone, attaching_nil, hj]
  exact foretells_prepare (h := h.closeGate b.id) hj habort hgrades hopen hslots hblank hfind

end Flight

namespace Host

variable {h : Host} {source : String} {session : Option String}

/-- The registry after an access to the session that is named, if there is such a session. -/
def touched (h : Host) (session : Option String) : Registry :=
  match requestedSession session with
  | some id => (h.store.registry.touch id h.store.now).1
  | none => h.store.registry

/-- A verdict takes an access to the session, and the work of the compiler. -/
theorem host_of_validate (h : Host) (source : String) (session : Option String) :
    ∃ clock compilations, (h.validate source session).1 =
      { h with
        store := { h.store with registry := h.touched session, clock := clock }
        compilations := compilations } := by
  have haccess : ∀ k references prior,
      h.context (requestedSession session) = .ok (k, references, prior) →
      ∃ compilations, (h.validate source session).1 = { k with compilations := compilations } := by
    intro k references prior hc
    simp only [validate, hc, compile]
    cases Guard.checkSource source k.setup.policy with
    | error v => exact ⟨_, rfl⟩
    | ok =>
        cases k.setup.compiler.compile source references prior with
        | error ds => exact ⟨_, rfl⟩
        | ok compilation => exact ⟨_, rfl⟩
  cases hs : requestedSession session with
  | none =>
      obtain ⟨n, hn⟩ := haccess h [] none (by rw [hs]; rfl)
      exact ⟨h.store.clock, n, by rw [hn, touched, hs]⟩
  | some id =>
      cases hfind : h.store.registry.find? id with
      | none =>
          refine ⟨h.store.clock, h.compilations, ?_⟩
          simp only [validate, hs, context_of_find?_none hfind, touched, Registry.touch, hfind]
      | some s =>
          have hblank := isBlankText_requestedSession hs
          obtain ⟨n, hn⟩ := haccess _ _ _ (by rw [hs]; exact context_of_find? hblank hfind)
          refine ⟨h.store.now, n, ?_⟩
          rw [hn]
          simp only [touched, hs, Registry.touch, hfind]
          rfl

/-- Without a session the verdict is the one for a fresh session. -/
theorem validate_of_none (hs : requestedSession session = none) (now : Instant) :
    (h.validate source session).2 = h.verdictIn source (.fresh now) := by
  simp only [validate, hs, context, verdictIn, compile]
  cases Guard.checkSource source h.setup.policy with
  | error v => rfl
  | ok =>
      simp only [Session.fresh]
      cases h.setup.compiler.compile source [] none with
      | error ds => rfl
      | ok compilation => rfl

theorem validate_of_session {id : String} {s : Session} (hs : requestedSession session = some id)
    (hfind : h.store.registry.find? id = some s) :
    (h.validate source session).2 = h.verdictIn source s := by
  cases session with
  | none => cases hs
  | some name => exact ((validate_consults source hs).found s hfind).1

theorem validate_of_no_session {id : String} (hs : requestedSession session = some id)
    (hn : h.store.registry.find? id = none) :
    (h.validate source session).2 = .ofDiagnostics (Failure.session ⟨id⟩).diagnostics := by
  cases session with
  | none => cases hs
  | some name => exact ((validate_consults source hs).missed hn).1

section

variable (hi : h.Idle) (hopen : h.domain.closed = false) (hgrades : h.setup.compiler.Grades)
  (source : String) (persist : Bool)

include hi hopen hgrades

theorem foretells_of_session {id : String} (hs : requestedSession session = some id) :
    (h.validate source session).2.Foretells h.domain.loaded
      (Flight.ending (h, .ofSource source session persist)) := by
  obtain ⟨units, hslots⟩ := hi.slots
  have hj : (Flight.ofSource source session persist).job.session? = some id := hs
  cases hfind : h.store.registry.find? id with
  | none =>
      rw [validate_of_no_session hs hfind, Flight.ending_of_no_session rfl hj hfind]
      have hsevere : errorsOf (Failure.session ⟨id⟩).diagnostics ≠ [] := List.cons_ne_nil _ _
      exact Flight.foretells_failure (f := .ofSource source session persist) rfl hsevere none
        { h with removals := [] }
  | some s =>
      have hl : h.store.registry.find? id ≠ none := by
        rw [hfind]
        exact Option.some_ne_none s
      have hstart : (Flight.ofSource source session persist).advance h 0 =
          some (Flight.joinGate h (.ofSource source session persist) ⟨id, false⟩) :=
        Flight.start_eq_joinGate hj hl
      rw [validate_of_session hs hfind,
        Flight.ending_of_advance hstart (Nat.succ_succ_ne_one _)]
      exact Flight.foretells_joinGate (f := .ofSource source session persist) (b := ⟨id, false⟩)
        rfl rfl rfl hgrades (hi.gates id) hopen
        hslots (isBlankText_requestedSession hs) hfind

theorem foretells_of_none {store : SessionStore} {id : String}
    (hc : h.store.create? = some (store, id)) (hblank : Text.isBlankText id = false)
    (hs : requestedSession session = none) :
    (h.validate source session).2.Foretells h.domain.loaded
      (Flight.ending (h, .ofSource source session persist)) := by
  obtain ⟨units, hslots⟩ := hi.slots
  have hstart : (Flight.ofSource source session persist).advance h 0 =
      some (Flight.joinGate { h with store := store } (.ofSource source session persist)
        ⟨id, !persist⟩) := by
    simp only [Flight.advance, Flight.ofSource, Flight.new, Flight.start, hs, Flight.createBerth,
      hc]
  rw [Flight.ending_of_advance hstart (Nat.succ_succ_ne_one _)]
  obtain ⟨n, now, -, rfl, -, rfl⟩ := SessionStore.createWithin_eq_some hc
  rw [validate_of_none hs now]
  have hfind : (h.store.registry.put (h.store.ids n) (.fresh now)).find? (h.store.ids n) =
      some (.fresh now) := by
    rw [Registry.find?_put, if_pos rfl]
  exact Flight.foretells_joinGate (f := .ofSource source session persist)
    (h := { h with
      store := { h.store with
        registry := h.store.registry.put (h.store.ids n) (.fresh now)
        clock := now
        drawn := n + 1 } })
    (b := ⟨h.store.ids n, !persist⟩) rfl rfl rfl hgrades (hi.gates _) hopen hslots hblank hfind

end

/-- A verdict on a source foretells what the run of the source in the same session comes to, without
packages: it is against the source exactly when no unit is loaded. For the verdict the session is
accessed once, and nothing else changes but the clock and the count of compilations. -/
theorem validate_foretells (hi : h.Idle) (hopen : h.domain.closed = false)
    (hgrades : h.setup.compiler.Grades) (source : String) (session : Option String)
    (hcreate : requestedSession session = none →
      ∃ store id, h.store.create? = some (store, id) ∧ Text.isBlankText id = false)
    (persist : Bool) :
    ((h.validate source session).2.isValid = false ↔
      (h.serve [.ofJob (.execute ⟨source, session, [], persist⟩)]).1.domain.loaded =
        h.domain.loaded) ∧
    (h.validate source session).2.Foretells h.domain.loaded
      (h.serve [.ofJob (.execute ⟨source, session, [], persist⟩)]) ∧
    ∃ clock compilations, (h.validate source session).1 =
      { h with
        store := { h.store with registry := h.touched session, clock := clock }
        compilations := compilations } := by
  have hforetells : (h.validate source session).2.Foretells h.domain.loaded
      (h.serve [.ofJob (.execute ⟨source, session, [], persist⟩)]) := by
    rw [serve_ofJob hi.removals]
    cases hs : requestedSession session with
    | none =>
        obtain ⟨store, id, hc, hblank⟩ := hcreate hs
        exact foretells_of_none hi hopen hgrades source persist hc hblank hs
    | some id => exact foretells_of_session hi hopen hgrades source persist hs
  refine ⟨⟨fun hv => (hforetells.stops hv).1, fun hloaded => ?_⟩, hforetells,
    h.host_of_validate source session⟩
  by_contra hv
  have hmore := (hforetells.runs (eq_true_of_ne_false hv)).1
  omega

/-- In a session that a run has left something in, a text with a directive too many is valid, and
the warning on it comes first. Half an expression without a session is not valid, and loads no
unit. -/
theorem validate_foretells_noted :
    ((notedHost.validate notedRequest.source (some " s ")).2 = ⟨true, [],
        [Script.Finding.diagnostic ⟨.repeatedUsing "System", ⟨1, 15⟩⟩]⟩ ∧
      (notedHost.serve
          [.ofJob (.execute ⟨notedRequest.source, some " s ", [], true⟩)]).1.domain.loaded = 1 ∧
      ∀ reply, (notedHost.serve
          [.ofJob (.execute ⟨notedRequest.source, some " s ", [], true⟩)]).2 = [some reply] →
        ∃ r, reply = .executed r ∧
          [Script.Finding.diagnostic ⟨.repeatedUsing "System", ⟨1, 15⟩⟩] <+: r.warnings) ∧
    (notedHost.validate "1 +" none).2.isValid = false ∧
      (notedHost.serve [.ofJob (.execute ⟨"1 +", none, [], false⟩)]).1.domain.loaded = 0 ∧
      ∃ reply, (notedHost.serve [.ofJob (.execute ⟨"1 +", none, [], false⟩)]).2 =
          [some (.executed reply)] ∧ reply.success = false ∧
        reply.errors = (notedHost.validate "1 +" none).2.errors := by
  have hi : notedHost.Idle := ⟨fun _ => rfl, ⟨0, rfl⟩, rfl⟩
  have hgrades : notedHost.setup.compiler.Grades := Script.grades_compiler
  constructor
  · have hverdict : (notedHost.validate notedRequest.source (some " s ")).2 = ⟨true, [],
        [Script.Finding.diagnostic ⟨.repeatedUsing "System", ⟨1, 15⟩⟩]⟩ := by decide +kernel
    have hsession : requestedSession (some " s ") ≠ none := by decide +kernel
    obtain ⟨-, hforetells, -⟩ := validate_foretells hi rfl hgrades notedRequest.source (some " s ")
      (fun hnone => absurd hnone hsession) true
    rw [hverdict] at hforetells
    exact ⟨hverdict, (hforetells.runs rfl).1, (hforetells.runs rfl).2⟩
  · have hinvalid : (notedHost.validate "1 +" none).2.isValid = false := by decide +kernel
    have hcreate : (notedHost.store.create?.map (·.2)) = some "fresh" := by decide +kernel
    obtain ⟨⟨store, id⟩, hc, hid⟩ := Option.map_eq_some_iff.1 hcreate
    have hblank : Text.isBlankText id = false := by
      rw [show id = "fresh" from hid]
      decide +kernel
    obtain ⟨-, hforetells, -⟩ := validate_foretells hi rfl hgrades "1 +" none
      (fun _ => ⟨store, id, hc, hblank⟩) false
    obtain ⟨hloaded, reply, hreply, hsuccess, herrors, -⟩ := hforetells.stops hinvalid
    exact ⟨hinvalid, hloaded, reply, hreply, hsuccess, herrors⟩

end Host

end ScriptHost
