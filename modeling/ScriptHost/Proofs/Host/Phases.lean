import ScriptHost.Proofs.Host.Steps
import ScriptHost.Proofs.Supervision.Curtailing

/-!
# Where a step leads

The phases that a step of a request can lead to, each with what the request was like before and why
it got there. What holds of a request for the phase that it is in is read off these.
-/

namespace ScriptHost.Flight

variable {h : Host} {f : Flight} {now : Nat} {after : Host × Flight} {b : Berth}
  {notes : List Diagnostic}

/-- The phases that a step of a request can lead to. -/
inductive Leads (h : Host) (f : Flight) (now : Nat) : Phase → Prop
  | joined {b : Berth} (hp : f.phase = .opening) : Leads h f now (.atGate b)
  | refused {id : String} (hp : f.phase = .opening) (hj : f.job.session? = some id)
      (hn : h.store.registry.find? id = none) :
      Leads h f now (.done (failureReply f.job none [] (.session ⟨id⟩)))
  | failed {b : Berth} {notes : List Diagnostic} {failure : Failure} (hb : f.berth? = some b) :
      Leads h f now (.done (failureReply f.job (namedSession b) notes failure))
  | entered {b : Berth} (hp : f.phase = .atGate b)
      (hpass : Guard.checkPackages f.job.packages h.setup.policy = .ok ()) :
      Leads h f now (.resolving b f.job.packages [] [])
  | found {b : Berth} {r : Reference} {pending : List Reference} {found : List Resolved}
      {failures : List Diagnostic} {resolved : Resolved}
      (hp : f.phase = .resolving b (r :: pending) found failures)
      (hr : h.setup.resolver r = .ok resolved) :
      Leads h f now (.resolving b pending (found ++ [resolved]) failures)
  | missed {b : Berth} {r : Reference} {pending : List Reference} {found : List Resolved}
      {failures : List Diagnostic} {e : ResolveError}
      (hp : f.phase = .resolving b (r :: pending) found failures)
      (hr : h.setup.resolver r = .error e) :
      Leads h f now
        (.resolving b pending found (failures ++ [.warning Code.packageNotFound e.message]))
  | loaded {b : Berth} {found : List Resolved} {failures notes : List Diagnostic} {id : String}
      {packages added : List Reference} (hp : f.phase = .resolving b [] found failures)
      (hj : f.job = .load id packages) :
      Leads h f now (.done (.loaded ⟨true, some b.id, added, [], notes⟩))
  | prepared {b : Berth} {found : List Resolved} {failures notes : List Diagnostic}
      {request : Request} {references : List Resolved} {prior : Option Script.Continuation}
      (hp : f.phase = .resolving b [] found failures) (hj : f.job = .execute request) :
      Leads h f now (.compiling b notes references prior)
  | compiled {b : Berth} {notes : List Diagnostic} {references : List Resolved}
      {prior : Option Script.Continuation} {request : Request} {compilation : Compilation}
      (hp : f.phase = .compiling b notes references prior) (hj : f.job = .execute request)
      (hcompile : h.setup.compiler.compile request.source references prior = .ok compilation) :
      Leads h f now (.queued b notes compilation)
  | started {b : Berth} {notes : List Diagnostic} {compilation : Compilation} {generation : Nat}
      {run : UnitRun} (hp : f.phase = .queued b notes compilation)
      (hrun : (LoadedUnit.ready generation compilation.activity
        h.setup.tuning.maxOutputBytes).run (h.limits f.abortAt) now = .ok run) :
      Leads h f now (.running b notes compilation.warnings run)
  | landed {b : Berth} {notes warnings : List Diagnostic} {run : UnitRun} {request : Request}
      (hp : f.phase = .running b notes warnings run) (hj : f.job = .execute request) :
      Leads h f now (.done (.executed
        (landingReply now b notes warnings run (settle h now b run request).2)))

theorem leads_start (hp : f.phase = .opening) (hs : f.start h = some after) :
    Leads h f now after.2.phase := by
  rcases start_cases hs with ⟨_, -, -, rfl⟩ | ⟨id, hj, hn, rfl⟩ | ⟨_, _, _, -, -, rfl⟩
  · exact .joined hp
  · exact .refused hp hj hn
  · exact .joined hp

theorem leads_passGate (hp : f.phase = .atGate b) (hpass : passGate h f now b = some after) :
    Leads h f now after.2.phase := by
  have hb : f.berth? = some b := by rw [berth?, hp]
  cases passGate_cases hpass with
  | aborted | blocked => exact .failed hb
  | entered hcheck => exact .entered hp hcheck

theorem leads_resolveNext {r : Reference} {pending : List Reference} {found : List Resolved}
    {failures : List Diagnostic} (hp : f.phase = .resolving b (r :: pending) found failures) :
    Leads h f now (resolveNext h f b r pending found failures).2.phase := by
  rw [resolveNext]
  split
  · exact .found hp ‹_›
  · exact .missed hp ‹_›

theorem leads_prepare {k : Host} {found : List Resolved} {failures : List Diagnostic}
    {request : Request} (hp : f.phase = .resolving b [] found failures)
    (hj : f.job = .execute request) :
    Leads h f now (prepare k f b request notes).2.phase := by
  have hb : f.berth? = some b := by rw [berth?, hp]
  rw [prepare]
  split
  · exact .failed hb
  · split
    · exact .failed hb
    · exact .prepared hp hj

theorem leads_attachAll {found : List Resolved} {failures : List Diagnostic}
    (hp : f.phase = .resolving b [] found failures) :
    Leads h f now (attachAll h f b found failures).2.phase := by
  have hb : f.berth? = some b := by rw [berth?, hp]
  rw [attachAll]
  split
  · exact .failed hb
  · split
    · exact .loaded hp ‹_›
    · exact leads_prepare hp ‹_›

theorem leads_compile {references : List Resolved} {prior : Option Script.Continuation}
    {request : Request} (hp : f.phase = .compiling b notes references prior)
    (hj : f.job = .execute request) :
    Leads h f now (compile h f b notes references prior request).2.phase := by
  simp only [compile, Host.compile]
  split
  · exact .failed (by rw [berth?, hp])
  · rename_i hc
    exact .compiled hp hj (Prod.mk.inj hc).2

theorem leads_takeUnit {compilation : Compilation} (hp : f.phase = .queued b notes compilation)
    (ht : takeUnit h f now b notes compilation = some after) : Leads h f now after.2.phase := by
  have hb : f.berth? = some b := by rw [berth?, hp]
  cases takeUnit_cases ht with
  | aborted | refused => exact .failed hb
  | started hload hrun =>
      obtain ⟨-, -, -, rfl⟩ := Domain.Usage.load_eq_granted hload
      exact .started hp hrun

theorem leads_of_advance (ha : f.advance h now = some after) : Leads h f now after.2.phase := by
  cases advance_cases ha with
  | start hp hs => exact leads_start hp hs
  | passGate hp hpass => exact leads_passGate hp hpass
  | resolveNext hp => exact leads_resolveNext hp
  | attachAll hp => exact leads_attachAll hp
  | compile hp hj => exact leads_compile hp hj
  | takeUnit hp ht => exact leads_takeUnit hp ht
  | land hp hj =>
      rw [land_eq]
      exact .landed hp hj

end ScriptHost.Flight
