import ScriptHost.Proofs.Host.Coherence
import ScriptHost.Proofs.Host.Phases

/-!
# What supervision leaves of a request

A host runs the code of a request under its own limits and those of the caller. Beside the same code
left alone, the reply tells the same value, or the same fault, and the same output; or the run was
stopped, the reply has a start of the output, and no session keeps or counts anything of it.
-/

namespace ScriptHost

namespace Flight

variable {h k : Host} {f : Flight} {b : Berth} {now : Nat} {after : Host × Flight}
  {notes : List Diagnostic}

/-- A request whose code was started runs it still, or has its reply. -/
theorem Travelled.running_or_done {p : Host → Prop} {a : Account} (ht : f.Travelled p a)
    (hs : a.started = true) : f.isRunning = true ∨ f.reply?.isSome = true := by
  induction ht with
  | start hp => cases hs
  | @step a f h now after _ hp ha ih =>
      rcases Bool.or_eq_true_iff.1 hs with hs | hrunning
      · rcases ih hs with hrunning | hdone
        · rw [isRunning] at hrunning
          cases advance_cases ha with
          | start hphase | passGate hphase | resolveNext hphase | attachAll hphase | compile hphase
          | takeUnit hphase =>
              rw [hphase] at hrunning
              cases hrunning
          | land hphase hj =>
              right
              rw [land_eq]
              rfl
        · rw [advance_of_reply hdone] at ha
          cases ha
      · exact Or.inl hrunning

/-- What landing a run does. A run that has completed may be kept in the session; any other leaves
the sessions as they were, but for one that was there for the request only. -/
structure Lands (h : Host) (b : Berth) (run : UnitRun) (request : Request) (after : Host)
    (reply : Reply) : Prop where
  output : reply.output = run.loaded.output.text
  value : reply.value = run.outcome.value?
  error : run.outcome.isCompleted = false → reply.errors = run.outcome.error?.toList
  unstored : run.outcome.isCompleted = false →
    after.store.registry =
      if b.ephemeral then (h.store.registry.remove b.id).1 else h.store.registry
  stored : ∀ completion, run.outcome = .completed completion → request.persist = true →
    b.ephemeral = false → Text.isBlankText b.id = false →
    ∀ c, h.store.registry.contents? b.id = some c →
      after.store.registry.contents? b.id = some (c.store completion.continuation)

theorem registry_closeBerth (h : Host) (b : Berth) :
    (closeBerth (openGate h b) b).store.registry =
      if b.ephemeral then (h.store.registry.remove b.id).1 else h.store.registry := by
  rw [closeBerth]
  split
  · rfl
  · rfl

theorem settle_of_not_completed {run : UnitRun} (h : Host) (now : Nat) (b : Berth)
    (request : Request) (hc : run.outcome.isCompleted = false) :
    (settle h now b run request).1.store = h.store ∧
      (settle h now b run request).2 = run.outcome.error?.toList := by
  simp only [settle]
  cases hrun : run.outcome with
  | completed completion =>
      rw [hrun] at hc
      cases hc
  | faulted | timedOut | cancelled | memoryExceeded => exact ⟨rfl, rfl⟩

theorem contents?_settle {run : UnitRun} {request : Request} {completion : Completion}
    {c : Contents} (h : Host) (now : Nat) (hrun : run.outcome = .completed completion)
    (hpersist : request.persist = true) (hkept : b.ephemeral = false)
    (hblank : Text.isBlankText b.id = false) (hc : h.store.registry.contents? b.id = some c) :
    (settle h now b run request).1.store.registry.contents? b.id =
      some (c.store completion.continuation) := by
  simp only [settle, hrun, keep, hpersist, hkept, Bool.not_false, Bool.and_self, if_true]
  cases hu : h.store.updateState b.id completion.continuation with
  | error e =>
      rw [SessionStore.updateState_eq] at hu
      cases huse : h.store.registry.use? b.id with
      | error e => cases hc.symm.trans (Registry.contents?_of_use?_error hblank huse)
      | ok session =>
          rw [Registry.updateState_eq, huse] at hu
          cases hu
  | ok store =>
      rw [SessionStore.updateState_eq] at hu
      obtain ⟨r, hr, rfl⟩ := Computation.except_map_eq_ok_iff.1 hu
      obtain ⟨c', hheld, hafter⟩ := Registry.contents?_of_updateState hr
      cases hc.symm.trans hheld
      exact hafter

theorem lands_land (h : Host) (f : Flight) (now : Nat) (b : Berth)
    (notes warnings : List Diagnostic) (run : UnitRun) (request : Request) :
    Lands h b run request (land h f now b notes warnings run request).1
      (landingReply now b notes warnings run (settle h now b run request).2) := by
  rw [land_eq]
  refine ⟨rfl, ?_, ?_, ?_, ?_⟩
  · cases hrun : run.outcome with
    | completed | faulted | timedOut | cancelled | memoryExceeded =>
        simp only [landingReply, hrun, RunOutcome.value?]
  · exact fun hc => (settle_of_not_completed h now b request hc).2
  · intro hc
    rw [registry_closeBerth, (settle_of_not_completed h now b request hc).1]
  · intro completion hrun hpersist hkept hblank c hc
    rw [registry_closeBerth, hkept, if_neg Bool.false_ne_true]
    exact contents?_settle h now hrun hpersist hkept hblank hc

/-- How a request comes by its reply on hosts of some kind when its code is started: the compiled
code is run under the limits of a host and of the caller, beside the same code left alone, and the
run lands in the last step of the request. -/
inductive Curtailed (p : Host → Prop) (f : Flight) (request : Request) (reply : Reply) : Prop
  | intro {compiling starting landing after : Host} {running : Flight} {now : Nat}
      {references : List Resolved} {prior : Option Script.Continuation} {compilation : Compilation}
      {generation start : Nat} {b : Berth} {notes warnings : List Diagnostic} {run alone : UnitRun}
      (hcompiling : p compiling) (hstarting : p starting) (hlanding : p landing)
      (hcompile :
        compiling.setup.compiler.compile request.source references prior = .ok compilation)
      (hrun : (LoadedUnit.ready generation compilation.activity
        starting.setup.tuning.maxOutputBytes).run (starting.limits f.abortAt) start = .ok run)
      (halone : (LoadedUnit.ready generation compilation.activity
        starting.setup.tuning.maxOutputBytes).run .none start = .ok alone)
      (hcurtails : run.Curtails alone) (hrunning : running.phase = .running b notes warnings run)
      (hstep : running.advance landing now = some (after, f))
      (hlands : Lands landing b run request after reply) :
      Curtailed p f request reply

/-- A request that queues for a unit has code that was compiled from its text. -/
theorem Travelled.compiled {p : Host → Prop} {a : Account} {compilation : Compilation}
    (ht : f.Travelled p a) (hq : f.phase = .queued b notes compilation) :
    ∃ k request references prior, p k ∧ f.job = .execute request ∧
      k.setup.compiler.compile request.source references prior = .ok compilation := by
  cases ht with
  | start hp => cases hp.symm.trans hq
  | @step a f h now after _ hp ha =>
      have hleads := leads_of_advance ha
      rw [hq] at hleads
      cases hleads with
      | compiled hp' hj hcompile =>
          have hjob : after.2.job = f.job := congrArg (·.job) (anew_of_advance ha)
          exact ⟨h, _, _, _, hp, hjob.trans hj, hcompile⟩

/-- A request that runs has a unit that was started with its code. -/
theorem Travelled.started {p : Host → Prop} {a : Account} {warnings : List Diagnostic}
    {run : UnitRun} (ht : f.Travelled p a) (hr : f.phase = .running b notes warnings run) :
    ∃ k request references prior compilation generation start starting, p k ∧ p starting ∧
      f.job = .execute request ∧
      k.setup.compiler.compile request.source references prior = .ok compilation ∧
      (LoadedUnit.ready generation compilation.activity starting.setup.tuning.maxOutputBytes).run
        (starting.limits f.abortAt) start = .ok run := by
  cases ht with
  | start hp => cases hp.symm.trans hr
  | @step a f h now after before hp ha =>
      have hleads := leads_of_advance ha
      have hanew := anew_of_advance ha
      rw [hr] at hleads
      cases hleads with
      | started hq hrun =>
          obtain ⟨k, request, references, prior, hk, hj, hcompile⟩ := before.compiled hq
          have hjob : after.2.job = f.job := congrArg (·.job) hanew
          have habort : after.2.abortAt = f.abortAt := congrArg (·.abortAt) hanew
          exact ⟨k, request, references, prior, _, _, now, h, hk, hp, hjob.trans hj, hcompile,
            habort ▸ hrun⟩

/-- The reply to a request whose code was started comes of landing the run. -/
theorem Travelled.curtailed {p : Host → Prop} {a : Account} {request : Request} {reply : Reply}
    (ht : f.Travelled p a) (hs : a.started = true) (hj : f.job = .execute request)
    (hr : f.reply? = some (.executed reply)) : f.Curtailed p request reply := by
  cases ht with
  | start hp => cases hs
  | @step a f h now after before hp ha =>
      have hphase := phase_of_reply hr
      have hstarted : a.started = true := by
        rcases Bool.or_eq_true_iff.1 hs with hs | hrunning
        · exact hs
        · rw [isRunning, hphase] at hrunning
          cases hrunning
      rcases before.running_or_done hstarted with hrunning | hdone
      · cases advance_cases ha with
        | start hp' | passGate hp' | resolveNext hp' | attachAll hp' | compile hp' | takeUnit hp' =>
            rw [isRunning, hp'] at hrunning
            cases hrunning
        | @land b notes warnings run other hp' hj' =>
            obtain ⟨k, request', references, prior, compilation, generation, start, starting, hk,
              hstarting, hjob, hcompile, hrun⟩ := before.started hp'
            cases hj'.symm.trans hjob
            cases hj'.symm.trans hj
            have hlands := lands_land h f now b notes warnings run request
            rw [land_eq] at hphase
            cases hphase
            obtain ⟨run', alone, hrun', halone, -, hcurtails⟩ :=
              LoadedUnit.run_curtails generation compilation.activity
                starting.setup.tuning.maxOutputBytes (starting.limits f.abortAt) start start
            cases hrun.symm.trans hrun'
            exact .intro hk hstarting hp hcompile hrun halone hcurtails hp' ha hlands
      · rw [advance_of_reply hdone] at ha
        cases ha

/-- A reply with output comes of code that was started. -/
theorem Travelled.started_of_output {p : Host → Prop} {a : Account} {reply : Reply}
    (hgrades : ∀ h, p h → h.setup.compiler.Grades) (ht : f.Travelled p a)
    (hr : f.reply? = some (.executed reply)) (ho : reply.output ≠ "") : a.started = true := by
  have hrecorded := ht.recorded hgrades
  rw [phase_of_reply hr] at hrecorded
  cases hrecorded with
  | done hcoherent =>
      obtain ⟨-, -, hidle, -⟩ := hcoherent
      cases hs : a.started with
      | false => exact absurd (hidle hs).1 ho
      | true => rfl

/-- A request whose reply has errors stores nothing in its session, and counts nothing there. -/
theorem Tracks.uncounted {id : String} {setup : Setup} {request : Request} {rs : List Resolved}
    {before held : Contents} {g : Flight} {reply : Reply} (hnamed : Text.isBlankText id = false)
    (ht : Tracks id setup request before rs k g.phase) (hr : g.reply? = some (.executed reply))
    (he : reply.errors ≠ []) (hafter : k.store.registry.contents? id = some held) :
    held.executions = before.executions ∧
      (held.continuation = before.continuation ∨ held.continuation = none) := by
  obtain ⟨added, r, hexecuted, hannounced⟩ := ht.announced hnamed (phase_of_reply hr) hafter
  cases hexecuted
  have hfailed : reply.isSuccess = false := by
    rw [Reply.isSuccess, List.isEmpty_eq_false_iff.2 he, Bool.and_false]
  rw [hannounced.kept (by rw [hfailed, Bool.and_false])]
  refine ⟨rfl, ?_⟩
  rw [Contents.attach]
  dsimp only
  split
  · exact Or.inr rfl
  · exact Or.inl rfl

end Flight

/-- A script that is run under any limits does what it does when it is left alone, or the
first part of it. So does the code of a request: the reply tells the end and the output of the code
left alone, or that it was stopped, with a start of the output; nothing of a run that was stopped is
stored or counted, in a session that was there before or in one that is created for the request. So
it is for all requests that a host serves. -/
theorem supervision_curtails :
    (∀ (program : Script.Program) (prior : Script.State) (generation outputLimit : Nat)
      (limits : Limits) (start other : Nat), ∃ run alone,
        (LoadedUnit.ready generation (program.activity prior) outputLimit).run limits start =
          .ok run ∧
        (LoadedUnit.ready generation (program.activity prior) outputLimit).run .none other =
          .ok alone ∧
        alone.outcome = .ofEnding (program.activity prior).ending ∧ run.Curtails alone) ∧
    (∀ {p : Host → Prop} {a : Account} {f : Flight} {request : Request} {reply : Reply},
      f.Travelled p a → a.started = true → f.job = .execute request →
      f.reply? = some (.executed reply) → f.Curtailed p request reply) ∧
    (∀ {id : String} {h k : Host} {f g : Flight} {request : Request} {rs : List Resolved}
      {before after : Contents} {reply : Reply}, f.job = .execute request →
      requestedSession request.session = some id → f.phase = .opening →
      h.store.registry.contents? id = some before → Flight.Journey id h f rs k g →
      g.reply? = some (.executed reply) → reply.errors ≠ [] →
      k.store.registry.contents? id = some after →
      after.executions = before.executions ∧
        (after.continuation = before.continuation ∨ after.continuation = none)) ∧
    (∀ {id : String} {h k k' : Host} {f g g' : Flight} {request : Request} {rs : List Resolved}
      {after : Contents} {reply : Reply}, f.job = .execute request →
      requestedSession request.session = none → f.start h = some (k, g) →
      (∀ b, g.berth? = some b → b.id = id) → Text.isBlankText id = false →
      Flight.Journey id k g rs k' g' → g'.reply? = some (.executed reply) → reply.errors ≠ [] →
      k'.store.registry.contents? id = some after →
      after.executions = 0 ∧ after.continuation = none) ∧
    ∀ {h : Host} {orders : List Order} {i : Nat} {order : Order} {request : Request}
      {reply : Reply}, orders[i]? = some order → order.job = .execute request →
      (h.serve orders).2[i]? = some (some (.executed reply)) →
      ∃ (a : Account) (f : Flight), f.Travelled (h.Serves orders) a ∧ f.job = order.job ∧
        f.reply? = some (.executed reply) ∧
        (a.started = true → f.Curtailed (h.Serves orders) request reply) := by
  refine ⟨?_, ?_, ?_, ?_, ?_⟩
  · intro program prior generation outputLimit limits start other
    exact LoadedUnit.run_curtails generation (program.activity prior) outputLimit limits start other
  · intro p a f request reply ht hs hj hr
    exact ht.curtailed hs hj hr
  · intro id h k f g request rs before after reply hj hsession hp hbefore hjourney hr he hafter
    have hstart : Flight.Tracks id h.setup request before [] h f.phase := by
      rw [hp]
      exact .opening hsession (Or.inr hbefore)
    obtain ⟨-, -, htracks⟩ := hjourney.tracks hj rfl hstart
    exact htracks.uncounted (isBlankText_requestedSession hsession) hr he hafter
  · intro id h k k' f g g' request rs after reply hj hsession hs hid hnamed hjourney hr he hafter
    have hsetup : k.setup = h.setup := Flight.setup_of_start hs
    have hjob : g.job = .execute request := (congrArg (·.job) (Flight.anew_of_start hs)).trans hj
    have habsent : ∀ other, requestedSession request.session = some other →
        other = id ∧ h.store.registry.contents? id = none := by
      intro other hother
      cases hsession.symm.trans hother
    obtain ⟨-, -, htracks⟩ := hjourney.tracks hjob hsetup (Flight.tracks_of_start hj habsent hs hid)
    obtain ⟨hcount, hcontinuation⟩ := htracks.uncounted hnamed hr he hafter
    exact ⟨hcount, or_self_iff.1 hcontinuation⟩
  · intro h orders i order request reply ho hj hr
    obtain ⟨a, f, ht, hjob, hreply⟩ := Host.travelled_of_serve ho hr
    exact ⟨a, f, ht, hjob, hreply, fun hs => ht.curtailed hs (hjob.trans hj) hreply⟩

/-- The statement that writes a text. -/
def writing (text : String) : Script.Stmt :=
  .eval (.call ⟨"Console", ["Write"]⟩ [.literal (.text text) ⟨1, 1⟩] ⟨1, 1⟩) false

/-- The statement that waits for a tenth of a second. -/
def pausing : Script.Stmt :=
  .eval (.await (.call ⟨"Task", ["Delay"]⟩ [.literal (.int 100) ⟨1, 1⟩] ⟨1, 1⟩) ⟨1, 1⟩) false

/-- A script that writes a text, waits, and writes another. -/
def waitingScript : List Script.Stmt := [writing "ab", pausing, writing "cd"]

/-- What the script does. -/
def waitingActivity : Activity :=
  ⟨[.yield, .write "ab", .yield, .wait 100, .yield, .write "cd"],
    .completed ⟨none, .script ⟨.empty, .empty⟩⟩⟩

theorem activity_waitingScript :
    Script.Program.activity ⟨waitingScript, [], false⟩ ⟨.empty, .empty⟩ = waitingActivity := by
  have hwrite : ∀ text : String,
      Script.runStmt false ⟨⟨.empty, .empty⟩, [], none⟩ (writing text) [] =
        .ok (.goOn ⟨⟨.empty, .empty⟩, [], none⟩) [text] := by
    intro text
    have heval : Script.eval .empty
        (.call ⟨"Console", ["Write"]⟩ [.literal (.text text) ⟨1, 1⟩] ⟨1, 1⟩) [] =
          .ok .null [text] := by
      simp only [Script.eval, List.map_cons, List.map_nil]
      rfl
    exact Computation.bind_of_ok heval _
  have hwait : Script.runStmt false ⟨⟨.empty, .empty⟩, [], none⟩ pausing [] =
      .ok (.pause 100 ⟨⟨.empty, .empty⟩, [], none⟩) [] := by
    simp only [pausing, Script.runStmt, Script.evalAwait, Script.eval]
    rfl
  simp only [Script.Program.activity, waitingScript, Script.runStmts, hwrite, hwait]
  rfl

/-- A host with a session, whose compiler makes the same code of every text. -/
def waitingHost : Host :=
  .new ⟨.permissive, ⟨fun _ _ _ => .ok ⟨waitingActivity, []⟩, ⟨"waiting", "1.0", []⟩⟩,
      fun r => .ok ⟨r, []⟩, false, ⟨0, 0, 3, 100⟩, []⟩ 1
    { SessionStore.new 0 (fun _ => "fresh") with
      registry := Registry.empty.put "s" ((Session.fresh 0).store (.foreign 7) 0) }

/-- A request to run the code in the session, to be kept there. -/
def waitingRequest : Request := ⟨"1", some "s", [], true⟩

/-- The request is aborted while the code waits. -/
def abortedReply : Reply :=
  ⟨false, none, "ab", RunOutcome.cancelled.error?.toList, [], some "s", false⟩

/-- A script is stopped by a time limit while it waits, and a request by its caller: what is
captured by then is a start of what is captured when nobody stops them, with the marker at its
end. -/
theorem supervision_curtails_waiting :
    Script.check waitingScript ⟨.empty, .empty⟩ [] = .ok (⟨waitingScript, [], false⟩, []) ∧
    (∃ run alone : UnitRun, run.outcome = .timedOut 50 ∧ run.loaded.output.text = "ab" ∧
      alone.outcome = .completed ⟨none, .script ⟨.empty, .empty⟩⟩ ∧
      alone.loaded.output.text = "abc\n[output truncated]" ∧ run.Curtails alone) ∧
    (∃ f : Flight, f.reply? = some (.executed abortedReply) ∧
      f.Curtailed (fun k => k.setup = waitingHost.setup) waitingRequest abortedReply) ∧
    (∃ before after : Contents, waitingHost.store.registry.contents? "s" = some before ∧
      before.executions = 1 ∧ after.executions = before.executions ∧
      (after.continuation = before.continuation ∨ after.continuation = none)) ∧
    (∃ k g k' g' after,
      (Flight.new 0 (.execute { waitingRequest with session := none }) (some 5)).start waitingHost =
        some (k, g) ∧ g.follow k [0, 0, 0, 0, 5] = some (k', g') ∧
      g'.reply? = some (.executed { abortedReply with session := some "fresh" }) ∧
      k'.store.registry.contents? "fresh" = some after ∧ after.executions = 0 ∧
      after.continuation = none) ∧
    ∃ (order : Order) (f : Flight),
      (waitingHost.serve [order]).2 = [some (.executed abortedReply)] ∧
      f.Curtailed (waitingHost.Serves [order]) waitingRequest abortedReply := by
  have hgrades : ∀ k : Host, k.setup = waitingHost.setup → k.setup.compiler.Grades := by
    intro k hk source references prior
    rw [hk]
    exact List.forall_mem_nil _
  have houtput : abortedReply.output ≠ "" := by decide +kernel
  have hrun : ((Flight.new 0 (.execute waitingRequest) (some 5)).follow waitingHost
      [0, 0, 0, 0, 0, 5]).map (fun x => (x.2.reply?, x.1.store.registry.contents? "s")) =
        some (some (.executed abortedReply), some ⟨1, true, some (.foreign 7), []⟩) := by
    decide +kernel
  obtain ⟨⟨k, f⟩, hfollow, hfacts⟩ := Option.map_eq_some_iff.1 hrun
  obtain ⟨hreply, hafter⟩ := Prod.mk.inj hfacts
  have hbefore : waitingHost.store.registry.contents? "s" =
      some ⟨1, true, some (.foreign 7), []⟩ := by decide +kernel
  refine ⟨rfl, ?_, ?_, ?_, ?_, ?_⟩
  · obtain ⟨run, alone, hran, halone, -, hcurtails⟩ := supervision_curtails.1
      ⟨waitingScript, [], false⟩ ⟨.empty, .empty⟩ 1 3 ⟨none, some 50, none⟩ 0 0
    rw [activity_waitingScript] at hran halone
    cases hran
    cases halone
    exact ⟨_, _, by decide +kernel, by decide +kernel, by decide +kernel, by decide +kernel,
      hcurtails⟩
  · obtain ⟨a, ht⟩ := Flight.travelled_of_follow rfl hfollow
    have hjob : f.job = .execute waitingRequest :=
      congrArg (·.job) (Flight.anew_of_follow hfollow)
    exact ⟨f, hreply, supervision_curtails.2.1 ht (ht.started_of_output hgrades hreply houtput) hjob
      hreply⟩
  · obtain ⟨rs, hjourney⟩ := Flight.journey_of_follow "s" hfollow
    obtain ⟨hcount, hcontinuation⟩ := supervision_curtails.2.2.1 rfl (by decide +kernel) rfl hbefore
      hjourney hreply (by decide +kernel) hafter
    exact ⟨_, _, hbefore, rfl, hcount, hcontinuation⟩
  · have hstart : ((Flight.new 0 (.execute { waitingRequest with session := none }) (some 5)).start
        waitingHost).map (·.2.berth?) = some (some ⟨"fresh", false⟩) := by decide +kernel
    have hplayed : (((Flight.new 0 (.execute { waitingRequest with session := none })
        (some 5)).start waitingHost).bind fun x => x.2.follow x.1 [0, 0, 0, 0, 5]).map
        (fun x => (x.2.reply?, x.1.store.registry.contents? "fresh")) =
          some (some (.executed { abortedReply with session := some "fresh" }),
            some ⟨0, false, none, []⟩) := by decide +kernel
    obtain ⟨⟨k', g'⟩, hends, hfacts⟩ := Option.map_eq_some_iff.1 hplayed
    obtain ⟨hreply, hafter⟩ := Prod.mk.inj hfacts
    obtain ⟨⟨k, g⟩, hs, hfollow⟩ := Option.bind_eq_some_iff.1 hends
    have hberth : g.berth? = some ⟨"fresh", false⟩ := by
      rw [hs] at hstart
      exact Option.some.inj hstart
    have hid : ∀ b, g.berth? = some b → b.id = "fresh" := by
      intro b hb
      cases hberth.symm.trans hb
      rfl
    obtain ⟨rs, hjourney⟩ := Flight.journey_of_follow "fresh" hfollow
    obtain ⟨hcount, hcontinuation⟩ := supervision_curtails.2.2.2.1 rfl rfl hs hid
      (by decide +kernel) hjourney hreply (by decide +kernel) hafter
    exact ⟨k, g, k', g', _, hs, hfollow, hreply, hafter, hcount, hcontinuation⟩
  · let order : Order := ⟨.execute waitingRequest, some (.after 5), none⟩
    have hserve : (waitingHost.serve [order]).2 = [some (.executed abortedReply)] := by
      decide +kernel
    have hfirst : (waitingHost.serve [order]).2[0]? = some (some (.executed abortedReply)) := by
      rw [hserve]
      rfl
    obtain ⟨a, f, ht, -, hreply, hcurtailed⟩ := supervision_curtails.2.2.2.2 rfl rfl hfirst
    have hserves : ∀ k, waitingHost.Serves [order] k → k.setup.compiler.Grades := by
      rintro k ⟨ps, s, hserved, rfl⟩
      exact hgrades _ hserved.setup
    exact ⟨order, f, hserve, hcurtailed (ht.started_of_output hserves hreply houtput)⟩

end ScriptHost
