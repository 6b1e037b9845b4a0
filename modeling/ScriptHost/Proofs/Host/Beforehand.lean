import ScriptHost.Proofs.Host.Approach
import ScriptHost.Proofs.Host.Changes

/-!
# Packages loaded beforehand

Loading packages into a session and then running a source there comes to the same as sending the
packages along with the source. From the moment at which the packages are attached, the two requests
take the same steps on the same host; the one that came with packages has the notes on them in front
of its warnings. Packages that cannot be loaded make a request fail that comes with them, for the
same reason.
-/

namespace ScriptHost

/-- The job with other packages. -/
def Job.withPackages (packages : List Reference) : Job → Job
  | .execute request => .execute { request with packages := packages }
  | .load id _ => .load id packages

/-- The reply with more warnings in front of the others. -/
def JobReply.noted (notes : List Diagnostic) : JobReply → JobReply
  | .executed reply => .executed { reply with warnings := notes ++ reply.warnings }
  | .loaded reply => .loaded { reply with warnings := notes ++ reply.warnings }

/-- The phase of a request with more notes in front of the others. -/
def Phase.noted (notes : List Diagnostic) : Phase → Phase
  | .compiling b own references prior => .compiling b (notes ++ own) references prior
  | .queued b own compilation => .queued b (notes ++ own) compilation
  | .running b own warnings run => .running b (notes ++ own) warnings run
  | .done reply => .done (reply.noted notes)
  | phase => phase

namespace Flight

variable {h k : Host} {f g : Flight} {b : Berth} {packages : List Reference}
  {notes own : List Diagnostic} {now : Nat}

/-- The request as if it had come with packages, and has notes on them. -/
def sending (packages : List Reference) (notes : List Diagnostic) (f : Flight) : Flight :=
  { f with job := f.job.withPackages packages, phase := f.phase.noted notes }

theorem failureReply_noted (job : Job) (session : Option String) (failure : Failure) :
    failureReply (job.withPackages packages) session (notes ++ own) failure =
      (failureReply job session own failure).noted notes := by
  cases job with
  | execute request =>
      simp only [failureReply, Job.withPackages, JobReply.noted, List.append_assoc]
  | load id old => simp only [failureReply, Job.withPackages, JobReply.noted, List.append_assoc]

/-! ## Steps behind the packages -/

theorem fail_sending (h : Host) (f : Flight) (b : Berth) (failure : Failure) :
    fail h (f.sending packages notes) b (notes ++ own) failure =
      ((fail h f b own failure).1, (fail h f b own failure).2.sending packages notes) := by
  simp only [fail, sending, failureReply_noted, Phase.noted]

theorem prepare_sending (h : Host) (f : Flight) (b : Berth) (request : Request) :
    prepare h (f.sending packages notes) b { request with packages := packages } (notes ++ own) =
      ((prepare h f b request own).1, (prepare h f b request own).2.sending packages notes) := by
  simp only [prepare]
  split
  · exact fail_sending h f b _
  · split
    · exact fail_sending h f b _
    · rfl

theorem compile_sending (h : Host) (f : Flight) (b : Berth) (references : List Resolved)
    (prior : Option Script.Continuation) (request : Request) :
    compile h (f.sending packages notes) b (notes ++ own) references prior
        { request with packages := packages } =
      ((compile h f b own references prior request).1,
        (compile h f b own references prior request).2.sending packages notes) := by
  cases hc : h.setup.compiler.compile request.source references prior with
  | error ds =>
      simp only [compile, Host.compile, hc]
      exact fail_sending _ f b _
  | ok compilation =>
      simp only [compile, Host.compile, hc]
      rfl

theorem takeUnit_sending (h : Host) (f : Flight) (now : Nat) (b : Berth)
    (compilation : Compilation) :
    takeUnit h (f.sending packages notes) now b (notes ++ own) compilation =
      (takeUnit h f now b own compilation).map fun x => (x.1, x.2.sending packages notes) := by
  have haborted : (f.sending packages notes).isAborted now = f.isAborted now := rfl
  have hticket : (f.sending packages notes).ticket = f.ticket := rfl
  have habort : (f.sending packages notes).abortAt = f.abortAt := rfl
  simp only [takeUnit, haborted, hticket, habort, fail_sending]
  split
  · rfl
  · split
    · rfl
    · rfl
    · split
      · rfl
      · rfl

theorem land_sending (h : Host) (f : Flight) (now : Nat) (b : Berth)
    (warnings : List Diagnostic) (run : UnitRun) (request : Request) :
    land h (f.sending packages notes) now b (notes ++ own) warnings run
        { request with packages := packages } =
      ((land h f now b own warnings run request).1,
        (land h f now b own warnings run request).2.sending packages notes) := by
  have hsettle : settle h now b run { request with packages := packages } =
      settle h now b run request := rfl
  simp only [land_eq, hsettle, sending, Phase.noted, JobReply.noted, landingReply,
    List.append_assoc]

/-- A request whose packages are attached takes the same steps as if it had come without. -/
theorem advance_sending (hf : f.stepsLeft ≤ 3) (h : Host) (now : Nat) :
    (f.sending packages notes).advance h now =
      (f.advance h now).map fun x => (x.1, x.2.sending packages notes) := by
  obtain ⟨ticket, job, abortAt, phase⟩ := f
  cases phase with
  | opening | atGate | resolving =>
      simp only [stepsLeft] at hf
      omega
  | compiling b own references prior =>
      cases job with
      | execute request =>
          exact congrArg some (compile_sending h ⟨ticket, .execute request, abortAt, _⟩ b references
            prior request)
      | load id old => rfl
  | queued b own compilation => exact takeUnit_sending h ⟨ticket, job, abortAt, _⟩ now b compilation
  | running b own warnings run =>
      cases job with
      | execute request =>
          rw [advance]
          show (if run.finish.any (· ≤ now) then some (land h _ now b (notes ++ own) warnings run
            { request with packages := packages }) else none) = _
          rw [land_sending, advance]
          simp only
          split
          · rfl
          · rfl
      | load id old => rfl
  | done reply => rfl

theorem outline_sending (f : Flight) (hf : f.stepsLeft ≤ 3) :
    (f.sending packages notes).outline = f.outline := by
  obtain ⟨ticket, job, abortAt, phase⟩ := f
  cases phase with
  | opening | atGate | resolving =>
      simp only [stepsLeft] at hf
      omega
  | compiling | queued | running | done => rfl

theorem reply?_sending (f : Flight) :
    (f.sending packages notes).reply? = f.reply?.map (·.noted notes) := by
  obtain ⟨ticket, job, abortAt, phase⟩ := f
  cases phase with
  | opening | atGate | resolving | compiling | queued | running | done => rfl

/-- Requests on one host, of which one has come with packages and the other without. -/
structure Sent (packages : List Reference) (notes : List Diagnostic) (x y : Host × Flight) :
    Prop where
  behind : x.2.stepsLeft ≤ 3
  same : y = (x.1, x.2.sending packages notes)

theorem tandem_sent (packages : List Reference) (notes : List Diagnostic) :
    Tandem (Sent packages notes) where
  setup hs := by rw [hs.same]
  outline hs := by rw [hs.same, outline_sending _ hs.behind]
  advance := by
    rintro x y ⟨hbehind, rfl⟩ now
    rw [advance_sending hbehind]
    cases hx : x.2.advance x.1 now with
    | none => exact .none
    | some after =>
        have hless := stepsLeft_of_advance hx
        exact .some ⟨by omega, rfl⟩
  remove := by
    rintro h k f g ⟨hbehind, hsame⟩ session
    cases hsame
    exact ⟨hbehind, rfl⟩

theorem ending_sending (hf : f.stepsLeft ≤ 3) (h : Host) :
    ending (h, f.sending packages notes) =
      ((ending (h, f)).1, (ending (h, f)).2.map (·.map (·.noted notes))) := by
  have hsent : Sent packages notes (h, f) (h, f.sending packages notes) := ⟨hf, rfl⟩
  obtain ⟨x, y, ⟨-, rfl⟩, hx, hy⟩ := ending_tandem (tandem_sent packages notes) hsent
  rw [hx, hy, List.map_singleton, reply?_sending]

theorem stepsLeft_prepare_le (h : Host) (f : Flight) (b : Berth) (request : Request)
    (notes : List Diagnostic) : (prepare h f b request notes).2.stepsLeft ≤ 3 := by
  rw [prepare]
  split
  · exact Nat.zero_le 3
  · split
    · exact Nat.zero_le 3
    · exact Nat.le_refl 3

/-- The gate of a session is closed again as it was before packages were loaded. -/
theorem closeGate_openGate {b : Berth} (hh : h.removals = [])
    (hw : (h.closeGate b.id).Writes b.id k) :
    ({ openGate k b with removals := [] } : Host).closeGate b.id = k := by
  cases hw with
  | intro edit clock =>
      simp only [Host.closeGate, openGate, SessionStore.changeGate, Table.set_set, hh]

end Flight

namespace Host

variable {h k : Host} {id : String} {packages : List Reference} {request : Request}
  {notes : List Diagnostic} {added : List Reference}

/-- A request that comes without packages, after some were loaded, goes on behind the gate as it
would if they had been attached for it there. -/
theorem serve_without {c : Contents} (hh : h.removals = []) (hw : (h.closeGate id).Writes id k)
    (hc : k.store.registry.contents? id = some c)
    (hsession : requestedSession request.session = some id) (hnone : request.packages = []) :
    ({ Flight.openGate k ⟨id, false⟩ with removals := [] } : Host).serve
        [.ofJob (.execute request)] =
      Flight.ending (Flight.prepare k (.new 0 (.execute request) none) ⟨id, false⟩ request []) := by
  have hgate : (Flight.openGate k ⟨id, false⟩).store.gate id = .new 1 := by
    have hclosed : k.store.gate id = ⟨0, []⟩ :=
      (hw.gate id).trans (SessionStore.gate_changeGate_self h.store id _)
    have hopen : (Flight.openGate k ⟨id, false⟩).store.gate id = (k.store.gate id).release :=
      SessionStore.gate_changeGate_self k.store id _
    rw [hopen, hclosed]
    rfl
  have hserve := serve_execute (h := { Flight.openGate k ⟨id, false⟩ with removals := [] })
    rfl (Registry.find?_ne_none hc) hgate request hsession
  rwa [Flight.closeGate_openGate (b := ⟨id, false⟩) hh hw, hnone, Flight.attaching_nil] at hserve

/-- Packages that are attached to a session can as well be loaded before a request. -/
theorem serve_sending {c : Contents} (hh : h.removals = []) (hgate : h.store.gate id = .new 1)
    (hc : h.store.registry.contents? id = some c)
    (ha : Flight.attaching (h.closeGate id) packages ⟨id, false⟩ = (k, notes, .ok added))
    (hsession : requestedSession request.session = some id) :
    h.serve [.ofJob (.execute { request with packages := packages })] =
      let served := ({ Flight.openGate k ⟨id, false⟩ with removals := [] } : Host).serve
        [.ofJob (.execute { request with packages := [] })]
      (served.1, served.2.map (·.map (·.noted notes))) := by
  have hw := Flight.writes_attaching (h.closeGate id) packages ⟨id, false⟩
  rw [ha] at hw
  have hclosed : (h.closeGate id).store.registry.contents? id = some c := hc
  have hlive := (Flight.contents_of_attaching (b := ⟨id, false⟩) hclosed ha).1
  have hsent : Flight.prepare k ((Flight.new 0 (.execute { request with packages := [] })
      none).sending packages notes) ⟨id, false⟩ { request with packages := packages }
      (notes ++ []) = _ := Flight.prepare_sending k _ _ { request with packages := [] }
  rw [List.append_nil] at hsent
  have hnone : requestedSession ({ request with packages := [] } : Request).session = some id :=
    hsession
  rw [serve_execute hh (Registry.find?_ne_none hc) hgate { request with packages := packages }
      hsession, serve_without hh hw hlive hnone rfl, ha]
  exact (congrArg Flight.ending hsent).trans
    (Flight.ending_sending (Flight.stepsLeft_prepare_le _ _ _ _ _) _)

end Host

/-- Loading packages into a session and then sending a request there comes to the same as sending
the packages along: the host is left the same, and so is the reply, but that the notes on the
packages are in the first of the two. Packages that cannot be loaded make the request fail for the
same reason, and both leave all sessions as they were. -/
theorem load_then_execute {h : Host} {id : String} {request : Request}
    (hh : h.removals = []) (hgate : h.store.gate id = .new 1)
    (hsession : requestedSession request.session = some id) (packages : List Reference) :
    ∃ h' l, h.serve [.ofJob (.load id packages)] = (h', [some (.loaded l)]) ∧
      (l.success = true →
        h.serve [.ofJob (.execute { request with packages := packages })] =
          let served := h'.serve [.ofJob (.execute { request with packages := [] })]
          (served.1, served.2.map (·.map (·.noted l.warnings)))) ∧
      (l.success = false →
        h'.store.registry = h.store.registry ∧
        ∃ k r, h.serve [.ofJob (.execute { request with packages := packages })] =
            (k, [some (.executed r)]) ∧ r.success = false ∧ r.errors = l.errors ∧
          r.warnings = l.warnings ∧ k.store.registry = h.store.registry) := by
  have hexecute : (Job.execute { request with packages := packages }).session? = some id := hsession
  cases hc : h.store.registry.contents? id with
  | none =>
      have hfind := Registry.contents?_eq_none_iff.1 hc
      rw [Host.serve_ofJob hh, Host.serve_ofJob hh, Flight.ending_of_no_session rfl rfl hfind,
        Flight.ending_of_no_session rfl hexecute hfind]
      exact ⟨_, _, rfl, fun hs => absurd hs Bool.false_ne_true,
        fun _ => ⟨rfl, _, _, rfl, rfl, rfl, rfl, rfl⟩⟩
  | some c =>
      have hl := Registry.find?_ne_none hc
      rcases ha : Flight.attaching (h.closeGate id) packages ⟨id, false⟩ with ⟨k, notes, e | added⟩
      · obtain rfl := Flight.host_of_attaching_error ha
        rw [Host.serve_load hh hl hgate,
          Host.serve_execute hh hl hgate { request with packages := packages } hsession, ha]
        exact ⟨_, _, rfl, fun hs => absurd hs Bool.false_ne_true,
          fun _ => ⟨rfl, _, _, rfl, rfl, rfl, rfl, rfl⟩⟩
      · have hsame := Host.serve_sending hh hgate hc ha hsession
        rw [Host.serve_load hh hl hgate, ha]
        exact ⟨_, _, rfl, fun _ => hsame, fun hs => absurd hs Bool.false_ne_true.symm⟩

/-- A host that finds one package, with one session in which one run was stored. -/
def sparseHost : Host :=
  .new ⟨.permissive, countingCompiler,
      fun r => if r.name = "a" then .ok ⟨r, ["a.lib"]⟩ else .error (.notFound r),
      false, ⟨0, 0, 100, 100⟩, []⟩ 1 usedHost.store

/-- A run of the session, with packages or without. -/
def sparseRequest (packages : List Reference) : Request := ⟨"1", some "s", packages, true⟩

/-- Of two packages one is found, and it drops the state of the session. Loaded first or sent along,
they leave the same; only one of them is not enough to load anything. -/
theorem load_then_execute_sparse :
    (∃ h' l, sparseHost.serve [.ofJob (.load "s" [⟨"a", none⟩, ⟨"b", none⟩])] =
        (h', [some (.loaded l)]) ∧
      l = ⟨true, some "s", [⟨"a", none⟩], [],
        [.warning Code.packageNotFound (ResolveError.notFound ⟨"b", none⟩).message,
          stateResetWarning [⟨"a", none⟩]]⟩ ∧
      sparseHost.serve [.ofJob (.execute (sparseRequest [⟨"a", none⟩, ⟨"b", none⟩]))] =
        let served := h'.serve [.ofJob (.execute (sparseRequest []))]
        (served.1, served.2.map (·.map (·.noted l.warnings)))) ∧
    ∃ k r, sparseHost.serve [.ofJob (.execute (sparseRequest [⟨"b", none⟩]))] =
        (k, [some (.executed r)]) ∧ r.success = false ∧
      r.errors = [.error Code.packageNotFound (ResolveError.notFound ⟨"b", none⟩).message] ∧
      k.store.registry = sparseHost.store.registry := by
  have hgate : sparseHost.store.gate "s" = .new 1 := rfl
  have hsession : requestedSession (sparseRequest []).session = some "s" := by decide +kernel
  constructor
  · have hreply : (sparseHost.serve [.ofJob (.load "s" [⟨"a", none⟩, ⟨"b", none⟩])]).2 =
        [some (.loaded ⟨true, some "s", [⟨"a", none⟩], [],
          [.warning Code.packageNotFound (ResolveError.notFound ⟨"b", none⟩).message,
            stateResetWarning [⟨"a", none⟩]]⟩)] := by decide +kernel
    obtain ⟨h', l, hload, hsame, -⟩ :=
      load_then_execute (h := sparseHost) rfl hgate hsession [⟨"a", none⟩, ⟨"b", none⟩]
    rw [hload] at hreply
    cases hreply
    exact ⟨h', _, hload, rfl, hsame rfl⟩
  · have hreply : (sparseHost.serve [.ofJob (.load "s" [⟨"b", none⟩])]).2 =
        [some (.loaded ⟨false, none, [],
          [.error Code.packageNotFound (ResolveError.notFound ⟨"b", none⟩).message], []⟩)] := by
      decide +kernel
    obtain ⟨h', l, hload, -, hfails⟩ :=
      load_then_execute (h := sparseHost) rfl hgate hsession [⟨"b", none⟩]
    rw [hload] at hreply
    cases hreply
    obtain ⟨-, k, r, hserve, hsuccess, herrors, -, hregistry⟩ := hfails rfl
    exact ⟨k, r, hserve, hsuccess, herrors, hregistry⟩

end ScriptHost
