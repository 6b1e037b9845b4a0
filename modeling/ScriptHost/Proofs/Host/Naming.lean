import ScriptHost.Proofs.Host.Coherence
import ScriptHost.Proofs.Host.Phases
import ScriptHost.Proofs.Text.Trimming

/-!
# Sessions that callers name

Callers name a session by a text. To run a text, to compile it only, to look at a session and to
reset it, the blanks around the name make no difference: each finds the session under the trimmed
name, exactly when it is live, and acts on that one. To load packages only, the name is taken as it
is, so that blanks around it hide a session that the others find.
-/

namespace ScriptHost

namespace Text

/-- To trim a text with more than blanks leaves something. -/
theorem trim_ne_empty {s : String} (h : isBlankText s = false) : trim s ≠ "" := by
  rw [Ne, ← String.toList_eq_nil_iff, trim, String.toList_ofList, trimChars_eq_nil_iff]
  intro hblank
  rw [isBlankText, List.all_eq_true.2 hblank] at h
  cases h

end Text

theorem requestedSession_of_not_blank {s : String} (h : Text.isBlankText s = false) :
    requestedSession (some s) = some (Text.trim s) :=
  Option.filter_eq_some_iff.2 ⟨rfl, decide_eq_true (Text.trim_ne_empty h)⟩

/-- The reply comes from the session under an id: that of a run names it, and so does that of a
loading that succeeds. -/
def JobReply.IsFrom (id : String) : JobReply → Prop
  | executed reply => reply.session = some id
  | loaded reply => reply.session = if reply.success then some id else none

namespace Flight

variable {id : String} {h : Host} {f : Flight} {b : Berth} {now : Nat} {after : Host × Flight}
  {reply : JobReply}

/-- The request is in the session under an id, or its reply comes from there. -/
def KeepsTo (id : String) (f : Flight) : Prop :=
  f.berth? = some ⟨id, false⟩ ∨ ∃ reply, f.reply? = some reply ∧ reply.IsFrom id

theorem isFrom_failureReply (job : Job) (id : String) (notes : List Diagnostic)
    (failure : Failure) : (failureReply job (namedSession ⟨id, false⟩) notes failure).IsFrom id := by
  cases job with
  | execute | load => rfl

/-- When a step of a request in a session ends it, the reply comes from the session. -/
theorem isFrom_of_advance (hb : f.berth? = some ⟨id, false⟩) (ha : f.advance h now = some after)
    (hr : after.2.reply? = some reply) : reply.IsFrom id := by
  have hleads := leads_of_advance ha
  rw [phase_of_reply hr] at hleads
  cases hleads with
  | refused hp =>
      rw [berth?, hp] at hb
      cases hb
  | @failed b notes failure hb' =>
      cases hb.symm.trans hb'
      exact isFrom_failureReply f.job id notes failure
  | loaded hp hj =>
      rw [berth?, hp] at hb
      cases hb
      rfl
  | landed hp hj =>
      rw [berth?, hp] at hb
      cases hb
      rfl

/-- A request that is in a session changes nothing outside, and keeps to the session. -/
theorem KeepsTo.advance (hk : f.KeepsTo id) (ha : f.advance h now = some after) :
    h.Within id after.1 ∧ after.2.KeepsTo id := by
  rcases hk with hb | ⟨reply, hr, -⟩
  · obtain ⟨hwithin, -, hflight⟩ := stays_of_advance hb ha
    refine ⟨hwithin, hflight.imp_right fun hdone => ?_⟩
    obtain ⟨reply, hr⟩ := Option.isSome_iff_exists.1 hdone
    exact ⟨reply, hr, isFrom_of_advance hb ha hr⟩
  · rw [advance_of_reply (hr ▸ rfl)] at ha
    cases ha

end Flight

namespace Host

/-- An operation looks for the session under an id, and changes nothing outside of it. What it leaves
is as for a session that it has found, or it has missed the session, and leaves all of them as they
were. -/
structure Consults {α : Type} (h : Host) (id : String) (found : Session → Host × α → Prop)
    (missed : α) (result : Host × α) : Prop where
  within : h.Within id result.1
  found : ∀ session, h.store.registry.find? id = some session → found session result
  missed : h.store.registry.find? id = none →
    result.2 = missed ∧ result.1.store.registry = h.store.registry

variable {h : Host} {id s : String} {session : Session}

theorem Consults.of_found {α : Type} {found : Session → Host × α → Prop} {missed : α}
    {result : Host × α} (hfind : h.store.registry.find? id = some session)
    (hw : h.Within id result.1) (hf : found session result) :
    h.Consults id found missed result where
  within := hw
  found other hsome := by
    cases hfind.symm.trans hsome
    exact hf
  missed hnone := by cases hfind.symm.trans hnone

theorem Consults.of_missed {α : Type} {found : Session → Host × α → Prop} {missed : α}
    {result : Host × α} (hfind : h.store.registry.find? id = none)
    (hw : h.Within id result.1) (hm : result.2 = missed)
    (hr : result.1.store.registry = h.store.registry) : h.Consults id found missed result where
  within := hw
  found other hsome := by cases hfind.symm.trans hsome
  missed _ := ⟨hm, hr⟩

/-- The registry after an access to a session. -/
def accessed (h : Host) (id : String) (session : Session) : Registry :=
  h.store.registry.put id (session.touch h.store.now)

/-- The verdict on a text in a session. -/
def verdictIn (h : Host) (source : String) (session : Session) : Verdict :=
  match Guard.checkSource source h.setup.policy with
  | .error v => .ofDiagnostics (Failure.guard v).diagnostics
  | .ok () =>
    .ofDiagnostics
      (reported (h.setup.compiler.compile source session.references session.continuation))

theorem context_of_find? (hid : Text.isBlankText id = false)
    (hfind : h.store.registry.find? id = some session) :
    h.context (some id) =
      .ok ({ h with store := h.store.withRegistry (h.accessed id session) },
        session.references, session.continuation) := by
  have huse : h.store.registry.use? id = .ok session := by
    simp only [Registry.use?, hid, hfind, Bool.false_eq_true, if_false]
  simp only [context, Registry.references, hfind, SessionStore.state, Registry.state, huse]
  rfl

theorem context_of_find?_none (hfind : h.store.registry.find? id = none) :
    h.context (some id) = .error ⟨id⟩ := by
  simp only [context, Registry.references, hfind]
  rfl

theorem validate_consults (source : String) (hs : requestedSession (some s) = some id) :
    h.Consults id
      (fun session x => x.2 = h.verdictIn source session ∧
        x.1.store.registry = h.accessed id session)
      (.ofDiagnostics (Failure.session ⟨id⟩).diagnostics) (h.validate source (some s)) := by
  cases hfind : h.store.registry.find? id with
  | none =>
      have hvalidate : h.validate source (some s) =
          (h, .ofDiagnostics (Failure.session ⟨id⟩).diagnostics) := by
        simp only [validate, hs, context_of_find?_none hfind]
      rw [hvalidate]
      exact .of_missed hfind (.refl id h) rfl rfl
  | some session =>
      have hc := context_of_find? (isBlankText_requestedSession hs) hfind
      have hwithin := Within.of_writes (writes_of_context hc)
      have hvalidate : (h.validate source (some s)).2 = h.verdictIn source session ∧
          ∃ n, (h.validate source (some s)).1 =
            { h with
              store := h.store.withRegistry (h.accessed id session), compilations := n } := by
        simp only [validate, hs, hc, verdictIn, compile]
        cases Guard.checkSource source h.setup.policy with
        | error v => exact ⟨rfl, _, rfl⟩
        | ok =>
            cases h.setup.compiler.compile source session.references session.continuation with
            | error ds => exact ⟨rfl, _, rfl⟩
            | ok compilation => exact ⟨rfl, _, rfl⟩
      obtain ⟨hverdict, n, hhost⟩ := hvalidate
      refine .of_found hfind ?_ ⟨hverdict, by rw [hhost]; rfl⟩
      rw [hhost]
      exact ⟨hwithin.setup, hwithin.closed, hwithin.ids, hwithin.drawn, hwithin.gate,
        hwithin.registry⟩

theorem inspect_consults (hs : requestedSession (some s) = some id) :
    h.Consults id
      (fun session x => x.2 = .ok (x.1.survey (some ((session.touch h.store.now).info id))) ∧
        x.1.store.registry = h.accessed id session)
      (.error (.session ⟨id⟩)) (h.inspect (some s)) := by
  cases hfind : h.store.registry.find? id with
  | none =>
      have htouch : (h.store.touch id).1 = h.store.withRegistry h.store.registry := by
        simp only [SessionStore.touch, Registry.touch, hfind]
      have hinspect : h.inspect (some s) =
          ({ h with store := (h.store.touch id).1 }, .error (.session ⟨id⟩)) := by
        simp only [inspect, hs, htouch, SessionStore.withRegistry, Registry.info?, hfind,
          Option.map_none]
      rw [hinspect]
      exact .of_missed hfind (.of_writes (writes_touch h id)) rfl (by rw [htouch]; rfl)
  | some session =>
      have htouch : (h.store.touch id).1 = h.store.withRegistry (h.accessed id session) := by
        simp only [SessionStore.touch, Registry.touch, hfind, accessed]
      have hinfo : (h.accessed id session).info? id =
          some ((session.touch h.store.now).info id) := by
        rw [Registry.info?, accessed, Registry.find?_put, if_pos rfl]
        rfl
      have hinspect : h.inspect (some s) = ({ h with store := (h.store.touch id).1 },
          .ok (survey { h with store := (h.store.touch id).1 }
            (some ((session.touch h.store.now).info id)))) := by
        simp only [inspect, hs, htouch, SessionStore.withRegistry, hinfo]
      rw [hinspect]
      exact .of_found hfind (.of_writes (writes_touch h id)) ⟨rfl, by rw [htouch]; rfl⟩

theorem reset_consults (hs : requestedSession (some s) = some id) :
    h.Consults id (fun _ x => x.2 = .session id true ∧ ¬ x.1.IsLive id) (.session id false)
      (h.reset (some s)) := by
  have hreset : h.reset (some s) = ({ h with store := (h.store.remove id).1 },
      .session id (h.store.registry.find? id).isSome) := by
    simp only [reset, hs]
    rfl
  rw [hreset]
  cases hfind : h.store.registry.find? id with
  | none =>
      refine .of_missed hfind (.of_writes (writes_remove h id)) rfl ?_
      exact congrArg Registry.mk (Table.erase_of_none hfind)
  | some session =>
      refine .of_found hfind (.of_writes (writes_remove h id)) ⟨rfl, fun hlive => hlive ?_⟩
      exact (Registry.find?_remove h.store.registry id id).trans (if_pos rfl)

end Host

namespace Flight

variable {id : String} {h : Host} {f : Flight} {a : Account} {p : Host → Prop}

/-- A request that is told that its session is not there. -/
def refusal (f : Flight) (id : String) : Flight :=
  { f with phase := .done (failureReply f.job none [] (.session ⟨id⟩)) }

/-- A request that starts looks for the session that it names, to queue at its gate. -/
theorem start_consults (hj : f.job.session? = some id) :
    ∃ after, f.start h = some after ∧
      h.Consults id (fun _ x => x = joinGate h f ⟨id, false⟩) (f.refusal id) after := by
  have hstart : f.start h = some (findBerth h f id) := by
    rw [start]
    cases hjob : f.job with
    | load other packages =>
        rw [hjob] at hj
        cases hj
        rfl
    | execute request =>
        rw [hjob] at hj
        simp only [show requestedSession request.session = some id from hj]
  refine ⟨findBerth h f id, hstart, ?_⟩
  rw [findBerth]
  cases hfind : h.store.registry.find? id with
  | none => exact .of_missed hfind (.refl id h) rfl rfl
  | some session => exact .of_found hfind (.of_changeGate id h _) rfl

/-- All along its way, a request that names a session has not started, keeps to that session, or was
refused because the session was not live. -/
theorem Travelled.keepsTo (ht : f.Travelled p a) (hj : f.job.session? = some id) :
    f.phase = .opening ∨ f.KeepsTo id ∨
      ∃ k, p k ∧ ¬ k.IsLive id ∧ f.phase = (f.refusal id).phase := by
  induction ht with
  | start hp => exact Or.inl hp
  | @step a f h now after _ hp ha ih =>
      have hjob : after.2.job = f.job := congrArg (·.job) (anew_of_advance ha)
      rw [hjob] at hj
      rcases ih hj with hopening | hkeeps | ⟨k, -, -, hphase⟩
      · rw [advance_of_opening hopening] at ha
        obtain ⟨x, hx, hconsults⟩ := start_consults (h := h) hj
        cases hx.symm.trans ha
        cases hfind : h.store.registry.find? id with
        | none =>
            obtain ⟨hmissed, -⟩ := hconsults.missed hfind
            refine Or.inr (Or.inr ⟨h, hp, fun hlive => hlive hfind, ?_⟩)
            rw [hmissed]
            rfl
        | some session =>
            rw [hconsults.found session hfind]
            exact Or.inr (Or.inl (Or.inl rfl))
      · exact Or.inr (Or.inl (hkeeps.advance ha).2)
      · rw [Flight.advance, hphase] at ha
        cases ha

/-- Each step of a request that names a session changes nothing outside of that session. -/
theorem Travelled.within {now : Nat} {after : Host × Flight} (ht : f.Travelled p a)
    (hj : f.job.session? = some id) (ha : f.advance h now = some after) :
    h.Within id after.1 := by
  rcases ht.keepsTo hj with hopening | hkeeps | ⟨k, -, -, hphase⟩
  · rw [advance_of_opening hopening] at ha
    obtain ⟨x, hx, hconsults⟩ := start_consults (h := h) hj
    cases hx.symm.trans ha
    exact hconsults.within
  · exact (hkeeps.advance ha).1
  · rw [Flight.advance, hphase] at ha
    cases ha

end Flight

/-- A job looks for the session under an id when it starts, and keeps to that session: it changes no
other, and the reply comes from there, unless the session was not live. -/
structure Job.GoesTo (job : Job) (h : Host) (id : String) : Prop where
  start : ∀ f : Flight, f.job = job → ∃ after, f.start h = some after ∧
    h.Consults id (fun _ x => x = Flight.joinGate h f ⟨id, false⟩) (f.refusal id) after
  within : ∀ {p : Host → Prop} {a : Account} {f : Flight} {k : Host} {now : Nat}
    {after : Host × Flight}, f.job = job → f.Travelled p a → f.advance k now = some after →
    k.Within id after.1
  reply : ∀ {orders : List Order} {i : Nat} {order : Order} {reply : JobReply},
    orders[i]? = some order → order.job = job → (h.serve orders).2[i]? = some (some reply) →
    reply.IsFrom id ∨ ∃ k, h.Serves orders k ∧ ¬ k.IsLive id ∧
      reply = Flight.failureReply job none [] (.session ⟨id⟩)

/-- A job goes to the session that it names. -/
theorem Job.goesTo_of_session? {job : Job} {id : String} (hj : job.session? = some id) (h : Host) :
    job.GoesTo h id where
  start f hf := Flight.start_consults (hf ▸ hj)
  within hf ht ha := ht.within (hf ▸ hj) ha
  reply := by
    intro orders i order reply ho hjob hr
    obtain ⟨a, f, ht, hf, hreply⟩ := Host.travelled_of_serve ho hr
    rcases ht.keepsTo (hf.trans hjob ▸ hj) with hopening | hkeeps | ⟨k, hk, hlive, hphase⟩
    · cases hopening.symm.trans (Flight.phase_of_reply hreply)
    · rcases hkeeps with hb | ⟨other, hother, hfrom⟩
      · rw [Flight.berth?_of_reply (hreply ▸ rfl)] at hb
        cases hb
      · cases hreply.symm.trans hother
        exact Or.inl hfrom
    · refine Or.inr ⟨k, hk, hlive, ?_⟩
      cases hphase.symm.trans (Flight.phase_of_reply hreply)
      rw [hf, hjob]

/-- To run a text in a session, to compile it only, to look at the session and to reset it all look
for the session under the trimmed name, and act on that session if it is live. To load packages only
looks under the name as it is. -/
theorem sessions_named (h : Host) {s : String} (hs : Text.isBlankText s = false) :
    (∀ request : Request, request.session = some s →
      (Job.execute request).GoesTo h (Text.trim s)) ∧
    (∀ source, h.Consults (Text.trim s)
      (fun session x => x.2 = h.verdictIn source session ∧
        x.1.store.registry = h.accessed (Text.trim s) session)
      (.ofDiagnostics (Failure.session ⟨Text.trim s⟩).diagnostics)
      (h.validate source (some s))) ∧
    h.Consults (Text.trim s)
      (fun session x =>
        x.2 = .ok (x.1.survey (some ((session.touch h.store.now).info (Text.trim s)))) ∧
        x.1.store.registry = h.accessed (Text.trim s) session)
      (.error (.session ⟨Text.trim s⟩)) (h.inspect (some s)) ∧
    h.Consults (Text.trim s)
      (fun _ x => x.2 = .session (Text.trim s) true ∧ ¬ x.1.IsLive (Text.trim s))
      (.session (Text.trim s) false) (h.reset (some s)) ∧
    ∀ packages, (Job.load s packages).GoesTo h s := by
  have hsession := requestedSession_of_not_blank hs
  refine ⟨?_, ?_, Host.inspect_consults hsession, Host.reset_consults hsession, ?_⟩
  · intro request hr
    apply Job.goesTo_of_session?
    rw [Job.session?, hr]
    exact hsession
  · intro source
    exact Host.validate_consults source hsession
  · intro packages
    exact Job.goesTo_of_session? rfl h

/-- A request by a name with blanks around it, on a host with the session `s`. -/
def paddedRequest : Request := ⟨"1", some " s ", [], false⟩

/-- With blanks around its name, a session is found to run a text in it, to compile, to look at and
to reset; to load packages it is there under its own name. -/
theorem sessions_named_padded :
    Text.isBlankText " s " = false ∧ usedHost.IsLive "s" ∧
      (∃ k, (Flight.new 0 (.execute paddedRequest) none).start usedHost =
        some (k, { Flight.new 0 (.execute paddedRequest) none with phase := .atGate ⟨"s", false⟩ })) ∧
      (∃ session, (usedHost.validate "1" (some " s ")).2 = usedHost.verdictIn "1" session) ∧
      (usedHost.inspect (some " s ")).2.isOk = true ∧
      (usedHost.reset (some " s ")).2 = .session "s" true ∧
      ∃ k, (Flight.new 0 (.load "s" []) none).start usedHost =
        some (k, { Flight.new 0 (.load "s" []) none with phase := .atGate ⟨"s", false⟩ }) := by
  have hs : Text.isBlankText " s " = false := by decide +kernel
  have htrim : Text.trim " s " = "s" := by decide +kernel
  have hfind : usedHost.store.registry.find? "s" =
      some ((Session.fresh 0).store (.foreign 7) 0) := by decide +kernel
  obtain ⟨hexecute, hvalidate, hinspect, hreset, -⟩ := sessions_named usedHost hs
  obtain ⟨-, -, -, -, hload⟩ := sessions_named usedHost (s := "s") (by decide +kernel)
  rw [htrim] at hexecute hvalidate hinspect hreset
  have hlive : usedHost.IsLive "s" := by
    rw [Host.IsLive, hfind]
    exact Option.some_ne_none _
  refine ⟨hs, hlive, ?_, ⟨_, ((hvalidate "1").found _ hfind).1⟩, ?_,
    (hreset.found _ hfind).1, ?_⟩
  · obtain ⟨after, hstart, hconsults⟩ := (hexecute paddedRequest rfl).start
      (.new 0 (.execute paddedRequest) none) rfl
    exact ⟨_, hconsults.found _ hfind ▸ hstart⟩
  · rw [(hinspect.found _ hfind).1]
    rfl
  · obtain ⟨after, hstart, hconsults⟩ := (hload []).start (.new 0 (.load "s" []) none) rfl
    exact ⟨_, hconsults.found _ hfind ▸ hstart⟩

/-- With blanks around its name, a session is not found to load packages. -/
theorem not_load_padded :
    usedHost.IsLive (Text.trim " s ") ∧ (usedHost.inspect (some " s ")).2.isOk = true ∧
      (usedHost.execute paddedRequest).reply.session = some "s" ∧
      (usedHost.load "s" [⟨"a", none⟩]).reply.success = true ∧
      (usedHost.load " s " [⟨"a", none⟩]).reply =
        ⟨false, none, [], (Failure.session ⟨" s "⟩).diagnostics, []⟩ := by
  refine ⟨?_, ?_, ?_, ?_, ?_⟩
  · show usedHost.store.registry.find? (Text.trim " s ") ≠ none
    decide +kernel
  all_goals decide +kernel

end ScriptHost
