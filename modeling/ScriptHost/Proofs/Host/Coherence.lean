import ScriptHost.Proofs.Host.Changes
import ScriptHost.Proofs.Host.Recording

/-!
# Coherent replies

A reply succeeds exactly when it has no errors; its errors are errors and its warnings are warnings,
and what packages and the compiler gave rise to is in it once, in order. So it is for every reply
of a host with the script compiler, whatever else happens to the host meanwhile.
-/

namespace ScriptHost

/-- A verdict on a text in a session says what the compiler has found, and no more than a failure
that came before. -/
structure Verdict.Coherent (h : Host) (source : String) (session : Option String) (v : Verdict) :
    Prop where
  valid : v.isValid = true ↔ v.errors = []
  severe : ∀ d ∈ v.errors, d.severity = .error
  mild : ∀ d ∈ v.warnings, d.severity = .warning
  /-- A text is valid when it can be compiled in its session, and is not refused before. -/
  compiles : v.isValid = true ↔ ∃ k references prior compilation,
    h.context (requestedSession session) = .ok (k, references, prior) ∧
      Guard.checkSource source h.setup.policy = .ok () ∧
      h.setup.compiler.compile source references prior = .ok compilation
  reported : ∀ {k references prior},
    h.context (requestedSession session) = .ok (k, references, prior) →
    Guard.checkSource source h.setup.policy = .ok () →
    v.errors = errorsOf (reported (h.setup.compiler.compile source references prior)) ∧
      v.warnings = warningsOf (reported (h.setup.compiler.compile source references prior))

namespace Host

variable {h k : Host} {source : String} {session : Option String}

theorem validate_of_context {references : List Resolved} {prior : Option Script.Continuation}
    (hc : h.context (requestedSession session) = .ok (k, references, prior))
    (hg : Guard.checkSource source h.setup.policy = .ok ()) :
    (h.validate source session).2 =
      .ofDiagnostics (reported (h.setup.compiler.compile source references prior)) := by
  have hsetup : k.setup = h.setup := congrArg View.setup (view_of_context hc "")
  simp only [validate, hc, compile, hsetup, hg]
  cases h.setup.compiler.compile source references prior with
  | error ds => rfl
  | ok compilation => rfl

/-- A text that is refused before it is compiled is not valid, and the verdict has one error. -/
theorem validate_of_refused
    (hrefused : ∀ k references prior,
      h.context (requestedSession session) = .ok (k, references, prior) →
      Guard.checkSource source h.setup.policy ≠ .ok ()) :
    ∃ d : Diagnostic, d.severity = .error ∧ (h.validate source session).2 = .ofDiagnostics [d] := by
  cases hc : h.context (requestedSession session) with
  | error e =>
      simp only [validate, hc]
      exact ⟨_, rfl, rfl⟩
  | ok found =>
      obtain ⟨k, references, prior⟩ := found
      have hsetup : k.setup = h.setup := congrArg View.setup (view_of_context hc "")
      cases hg : Guard.checkSource source h.setup.policy with
      | ok => exact absurd hg (hrefused k references prior hc)
      | error v =>
          simp only [validate, hc, hsetup, hg]
          exact ⟨_, Flight.severity_violation v, rfl⟩

theorem coherent_ofDiagnostics (ds : List Diagnostic) :
    let v := Verdict.ofDiagnostics ds
    (v.isValid = true ↔ v.errors = []) ∧ (∀ d ∈ v.errors, d.severity = .error) ∧
      ∀ d ∈ v.warnings, d.severity = .warning :=
  ⟨List.isEmpty_iff, fun _ => severity_of_mem_errorsOf, fun _ => severity_of_mem_warningsOf⟩

theorem coherent_validate (hgrades : h.setup.compiler.Grades) (source : String)
    (session : Option String) : (h.validate source session).2.Coherent h source session := by
  by_cases hcompiled : ∃ k references prior,
      h.context (requestedSession session) = .ok (k, references, prior) ∧
        Guard.checkSource source h.setup.policy = .ok ()
  · obtain ⟨k, references, prior, hc, hg⟩ := hcompiled
    rw [validate_of_context hc hg]
    obtain ⟨hvalid, hsevere, hmild⟩ := coherent_ofDiagnostics
      (reported (h.setup.compiler.compile source references prior))
    refine ⟨hvalid, hsevere, hmild, hvalid.trans ?_, ?_⟩
    · have hgraded := hgrades source references prior
      cases hcompile : h.setup.compiler.compile source references prior with
      | error ds =>
          rw [hcompile] at hgraded
          refine iff_of_false hgraded ?_
          rintro ⟨_, _, _, compilation, hc', -, hcompile'⟩
          cases hc.symm.trans hc'
          cases hcompile.symm.trans hcompile'
      | ok compilation =>
          rw [hcompile] at hgraded
          exact iff_of_true (errorsOf_eq_nil hgraded)
            ⟨k, references, prior, compilation, hc, hg, hcompile⟩
    · intro _ _ _ hc' _
      cases hc.symm.trans hc'
      exact ⟨rfl, rfl⟩
  · have hrefused : ∀ k references prior,
        h.context (requestedSession session) = .ok (k, references, prior) →
        Guard.checkSource source h.setup.policy ≠ .ok () :=
      fun k references prior hc hg => hcompiled ⟨k, references, prior, hc, hg⟩
    obtain ⟨d, herror, hv⟩ := validate_of_refused hrefused
    rw [hv]
    obtain ⟨hvalid, hsevere, hmild⟩ := coherent_ofDiagnostics [d]
    have hinvalid : errorsOf [d] ≠ [] := by
      rw [errorsOf_eq_self fun e he => List.mem_singleton.1 he ▸ herror]
      exact List.cons_ne_nil d []
    refine ⟨hvalid, hsevere, hmild, hvalid.trans (iff_of_false hinvalid ?_), ?_⟩
    · rintro ⟨k, references, prior, -, hc, hg, -⟩
      exact hrefused k references prior hc hg
    · intro k references prior hc hg
      exact absurd hg (hrefused k references prior hc)

end Host

namespace Flight

/-- Steps taken one after another on a host are travelled. -/
theorem travelled_of_follow {h : Host} {f : Flight} {moments : List Nat} {next : Host × Flight}
    (hp : f.phase = .opening) (hf : f.follow h moments = some next) :
    ∃ a, next.2.Travelled (fun k => k.setup = h.setup) a := by
  have hboth : next.1.setup = h.setup ∧ ∃ a, next.2.Travelled (fun k => k.setup = h.setup) a := by
    refine follow_preserves (p := fun k g => k.setup = h.setup ∧
      ∃ a, g.Travelled (fun k => k.setup = h.setup) a) ?_ ⟨rfl, .empty, .start hp⟩ hf
    rintro k g now after ⟨hsetup, a, ht⟩ ha
    exact ⟨(setup_of_advance ha).trans hsetup, _, ht.step hsetup ha⟩
  exact hboth.2

end Flight

namespace Fleet

variable {s m : Fleet} {e : Event} {id : String} {p q : Host → Prop} {ps : List Passage}

/-- The requests stay what their callers asked for, each in its place. -/
theorem anews_of_step (hd : (s.flights.map (·.ticket)).Nodup) (hstep : s.step e = some m) :
    m.flights.map Flight.anew = s.flights.map Flight.anew := by
  cases e with
  | operation o =>
      cases hstep
      rfl
  | turn ticket now =>
      obtain ⟨f, after, hfind, ha, rfl⟩ := step_turn hstep
      have hanew := Flight.anew_of_advance ha
      obtain ⟨hmem, -⟩ := mem_of_flight? hfind
      simp only [update, List.map_map]
      refine List.map_congr_left fun g hg => ?_
      simp only [Function.comp]
      split
      · rename_i hticket
        have hsame : g.ticket = f.ticket := hticket.trans (Flight.ticket_of_anew hanew)
        rw [List.inj_on_of_nodup_map hd hg hmem hsame, hanew]
      · rfl

theorem Run.setup (hr : Run id p s ps m) : m.host.setup = s.host.setup := by
  induction hr with
  | start => rfl
  | @step ps m s' e _ hstep _ ih =>
      cases e with
      | operation o =>
          cases hstep
          exact (o.effect_perform m.host).setup.trans ih
      | turn ticket now =>
          obtain ⟨f, after, -, ha, rfl⟩ := step_turn hstep
          exact (Flight.setup_of_advance ha).trans ih

theorem Run.anews (hr : Run id p s ps m) (hd : (s.flights.map (·.ticket)).Nodup) :
    (m.flights.map (·.ticket)).Nodup ∧ m.flights.map Flight.anew = s.flights.map Flight.anew := by
  induction hr with
  | start => exact ⟨hd, rfl⟩
  | step _ hstep _ ih =>
      obtain ⟨hnodup, hanews⟩ := ih
      exact ⟨tickets_of_step hstep ▸ hnodup, (anews_of_step hnodup hstep).trans hanews⟩

/-- The requests of a run that begins with all of them have travelled on its hosts. -/
theorem Run.travelled (hr : Run id p s ps m) (hopening : ∀ f ∈ s.flights, f.phase = .opening)
    (hq : ∀ {ps m}, Run id p s ps m → q m.host) : ∀ f ∈ m.flights, ∃ a, f.Travelled q a := by
  induction hr with
  | start => exact fun f hf => ⟨.empty, .start (hopening f hf)⟩
  | @step ps m s' e hrun hstep _ ih =>
      cases e with
      | operation o =>
          cases hstep
          exact ih
      | turn ticket now =>
          obtain ⟨f, after, hfind, ha, rfl⟩ := step_turn hstep
          intro g hg
          rcases mem_update_iff.1 hg with ⟨rfl, -⟩ | ⟨hg, -⟩
          · obtain ⟨a, ht⟩ := ih f (mem_of_flight? hfind).1
            exact ⟨_, ht.step (hq hrun) ha⟩
          · exact ih g hg

end Fleet

namespace Host

variable {h : Host} {orders : List Order} {i : Nat} {order : Order} {reply : JobReply}

/-- The jobs of orders, all of them about to start. -/
def opening (h : Host) (orders : List Order) : Fleet :=
  ⟨h, orders.zipIdx.map fun (o, ticket) => o.flight ticket⟩

/-- What a host may have become while orders are served. -/
def Serves (h : Host) (orders : List Order) (k : Host) : Prop :=
  ∃ ps s, Fleet.Run "" (fun _ => True) (h.opening orders) ps s ∧ s.host = k

/-- The reply to an order is that of a request which has travelled on the host that serves it. -/
theorem travelled_of_serve (ho : orders[i]? = some order)
    (hr : (h.serve orders).2[i]? = some (some reply)) :
    ∃ (a : Account) (f : Flight), f.Travelled (h.Serves orders) a ∧ f.job = order.job ∧
      f.reply? = some reply := by
  obtain ⟨ps, hrun⟩ := h.run_traffic orders ""
  have htickets : ((h.opening orders).flights.map (·.ticket)).Nodup := by
    rw [opening, List.map_map]
    show (orders.zipIdx.map Prod.snd).Nodup
    rw [List.zipIdx_map_snd]
    exact List.nodup_range'
  have hopening : ∀ f ∈ (h.opening orders).flights, f.phase = .opening := by
    intro f hf
    obtain ⟨⟨o, ticket⟩, -, rfl⟩ := List.mem_map.1 hf
    rfl
  have hreplies : ((h.traffic orders).flights.map (·.reply?))[i]? = some (some reply) := hr
  rw [List.getElem?_map] at hreplies
  obtain ⟨f, hf, hreply⟩ := Option.map_eq_some_iff.1 hreplies
  obtain ⟨-, hanews⟩ := hrun.anews htickets
  have hanew : f.anew = (order.flight i).anew := by
    have hplace := congrArg (·[i]?) hanews
    simp only [List.getElem?_map, List.getElem?_zipIdx, ho, Option.map_some,
      Nat.zero_add] at hplace
    rw [show (h.traffic orders).fleet.flights[i]? = some f from hf] at hplace
    exact Option.some.inj hplace
  have htravelled : ∃ a, f.Travelled (h.Serves orders) a :=
    hrun.travelled hopening (fun hm => ⟨_, _, hm, rfl⟩) f (List.mem_of_getElem? hf)
  obtain ⟨a, ht⟩ := htravelled
  exact ⟨a, f, ht, congrArg (·.job) hanew, hreply⟩

end Host

/-- With the script compiler, the reply to a request agrees with the record of what came up on its
way, on whatever hosts it took its steps; a verdict says what the compiler has found; and the
replies of a host that serves any orders are replies of such requests. -/
theorem replies_coherent :
    (∀ {a : Account} {f : Flight} {reply : JobReply},
      f.Travelled (fun h => h.setup.compiler = Script.compiler) a → f.reply? = some reply →
      reply.Coherent f.job a) ∧
    (∀ {h : Host} (source : String) (session : Option String),
      h.setup.compiler = Script.compiler →
      (h.validate source session).2.Coherent h source session) ∧
    ∀ {h : Host} {orders : List Order} {i : Nat} {order : Order} {reply : JobReply},
      h.setup.compiler = Script.compiler → orders[i]? = some order →
      (h.serve orders).2[i]? = some (some reply) →
      ∃ (a : Account) (f : Flight), f.Travelled (h.Serves orders) a ∧ f.job = order.job ∧
        f.reply? = some reply ∧ reply.Coherent order.job a := by
  have hgrades : ∀ h : Host, h.setup.compiler = Script.compiler → h.setup.compiler.Grades :=
    fun h hc => hc ▸ Script.grades_compiler
  have hcoherent : ∀ {p : Host → Prop} {a : Account} {f : Flight} {reply : JobReply},
      (∀ h, p h → h.setup.compiler = Script.compiler) → f.Travelled p a →
      f.reply? = some reply → reply.Coherent f.job a := by
    intro p a f reply hp ht hr
    have hrecorded := ht.recorded fun h hh => hgrades h (hp h hh)
    rw [Flight.phase_of_reply hr] at hrecorded
    cases hrecorded with
    | done hdone => exact hdone
  refine ⟨hcoherent fun _ hc => hc, ?_, ?_⟩
  · intro h source session hc
    exact Host.coherent_validate (hgrades h hc) source session
  · intro h orders i order reply hc ho hr
    obtain ⟨a, f, ht, hj, hreply⟩ := Host.travelled_of_serve ho hr
    refine ⟨a, f, ht, hj, hreply, hj ▸ hcoherent ?_ ht hreply⟩
    rintro k ⟨ps, s, hrun, rfl⟩
    rw [hrun.setup]
    exact hc

/-- A host with one package, and one session that a run has left something in. -/
def notedHost : Host :=
  .new ⟨.permissive, Script.compiler, (Catalogue.ofReleases [⟨"a", "1.0", ["a.dll"]⟩]).resolver,
      false, ⟨0, 0, 100, 100⟩, []⟩ 1
    { SessionStore.new 0 (fun _ => "fresh") with
      registry := Registry.empty.put "s" ((Session.fresh 0).store (.foreign 7) 0) }

/-- Two packages, one of which is not there, and a text with a directive too many. -/
def notedRequest : Request :=
  ⟨"using System; using System;", some " s ", [⟨"b", none⟩, ⟨"a", none⟩], true⟩

/-- The notes on the packages come before that on the text. -/
def notedReply : Reply :=
  ⟨true, none, "", [],
    [.warning Code.packageNotFound (ResolveError.notFound ⟨"b", none⟩).message,
      stateResetWarning [⟨"a", some "1.0"⟩],
      Script.Finding.diagnostic ⟨.repeatedUsing "System", ⟨1, 15⟩⟩], some "s", false⟩

/-- A package that is not there, a state that is dropped and a finding of the compiler: each is in
the reply once, step by step and when the request is served; the verdict has the last alone. -/
theorem replies_coherent_noted :
    (∃ (a : Account) (f : Flight), f.Travelled (fun h => h.setup.compiler = Script.compiler) a ∧
      f.reply? = some (.executed notedReply) ∧ a.warnings false = notedReply.warnings) ∧
    (notedHost.validate notedRequest.source notedRequest.session).2.Coherent notedHost
      notedRequest.source notedRequest.session ∧
    ∃ (a : Account) (f : Flight),
      f.Travelled (notedHost.Serves [.ofJob (.execute notedRequest)]) a ∧
        f.reply? = some (.executed notedReply) ∧ a.warnings false = notedReply.warnings := by
  refine ⟨?_, replies_coherent.2.1 _ _ rfl, ?_⟩
  · have hrun : ((Flight.new 0 (.execute notedRequest) none).follow notedHost
        (List.replicate 8 0)).map (·.2.reply?) = some (some (.executed notedReply)) := by
      decide +kernel
    obtain ⟨⟨k, f⟩, hfollow, hreply⟩ := Option.map_eq_some_iff.1 hrun
    obtain ⟨a, ht⟩ := Flight.travelled_of_follow rfl hfollow
    have hcompiler : f.Travelled (fun h => h.setup.compiler = Script.compiler) a :=
      ht.mono fun h hsetup => congrArg Setup.compiler hsetup
    obtain ⟨-, htold, -⟩ := replies_coherent.1 hcompiler hreply
    exact ⟨a, f, hcompiler, hreply, htold.noted.symm⟩
  · have hserve : (notedHost.serve [.ofJob (.execute notedRequest)]).2 =
        [some (.executed notedReply)] := by decide +kernel
    have hfirst : (notedHost.serve [.ofJob (.execute notedRequest)]).2[0]? =
        some (some (.executed notedReply)) := by rw [hserve]; rfl
    obtain ⟨a, f, ht, -, hreply, -, htold, -⟩ := replies_coherent.2.2 rfl rfl hfirst
    exact ⟨a, f, ht, hreply, htold.noted.symm⟩

end ScriptHost
