import ScriptHost.Proofs.Host.Approach
import ScriptHost.Proofs.Host.Independence
import ScriptHost.Proofs.Host.Naming

/-!
# Requests that are let in

A request that is served by itself finds the gate of its session open. If its caller does not abort
at once, it passes the gate before an abort can come, and then looks for all of its packages before
it can come again.
-/

namespace ScriptHost

open Traffic (upNext)

/-! ## Up to the gate -/

/-- Whoever is to abort a request has a turn before it, and waits. -/
theorem Traffic.step_of_abort {h : Host} {f : Flight} (hr : f.reply? = none) (ticket : Ticket)
    (ms : Nat) : (⟨h, [f], ⟨0, [.later (ms + 1) (.abort ticket), .request f.ticket], [], [], 0⟩⟩ :
      Traffic).step = some (upNext h f [⟨0 + waitOf (ms + 1), .abort ticket⟩] 1) := by
  rw [step, skipSamples_of_busy rfl, isOver_singleton, hr,
    Agenda.next?_of_ready rfl (Nat.succ_pos _)]
  rfl

/-- Before time passes, nothing comes before the first step of a request whose caller does not abort
at once. -/
theorem Host.traffic_upNext {h : Host} {o : Order} (hh : h.removals = []) (ho : o.removal = none)
    (hlate : ∀ abort, o.abort = some abort → 0 < abort.ms) : ∃ timers streak,
      (∀ timer ∈ timers, timer.task = .abort 0) ∧ streak < Agenda.longStreak ∧
        h.traffic [o] = (upNext h (o.flight 0) timers streak).finish := by
  have hsole := h.sole_opening o
  obtain ⟨job, abort, removal⟩ := o
  obtain rfl : removal = none := ho
  rcases abort with _ | _ | _ | ms
  · have hagenda : h.openingAgenda [⟨job, none, none⟩] = ⟨0, [.request 0], [], [], 0⟩ := by
      rw [openingAgenda, hh]
      rfl
    refine ⟨[], 0, List.forall_mem_nil _, Nat.succ_pos _, ?_⟩
    rw [traffic, hagenda]
    rfl
  · exact absurd (hlate _ rfl) (Nat.lt_irrefl 0)
  · exact absurd (hlate _ rfl) (Nat.lt_irrefl 0)
  · have hagenda : h.openingAgenda [⟨job, some (.after (ms + 1)), none⟩] =
        ⟨0, [.later (ms + 1) (.abort 0), .request 0], [], [], 0⟩ := by
      rw [openingAgenda, hh]
      rfl
    rw [hagenda] at hsole
    refine ⟨[⟨0 + waitOf (ms + 1), .abort 0⟩], 1, ?_, by decide, ?_⟩
    · intro timer htimer
      rw [List.mem_singleton.1 htimer]
    · rw [traffic, hagenda]
      exact hsole.finish_of_step (Traffic.step_of_abort rfl 0 ms)

namespace Flight

variable {h k : Host} {f g : Flight} {id : String} {c : Contents} {x y : Host × Flight}
  {setup : Setup} {request : Request} {rs : List Resolved} {b : Berth}

/-- A request has joined the gate of a session that is to be kept and holds some contents; nobody
else is there. -/
structure Joins (id : String) (c : Contents) (h : Host) (f : Flight) (x : Host × Flight) :
    Prop where
  start : f.start h = some x
  phase : x.2.phase = .atGate ⟨id, false⟩
  contents : x.1.store.registry.contents? id = some c
  gate : x.1.store.gate id = (Semaphore.new 1).join f.ticket

theorem joins_joinGate (store : SessionStore) (hgate : store.gate id = .new 1)
    (hc : store.registry.contents? id = some c)
    (hs : f.start h = some (joinGate { h with store := store } f ⟨id, false⟩)) :
    Joins id c h f (joinGate { h with store := store } f ⟨id, false⟩) := by
  refine ⟨hs, rfl, hc, ?_⟩
  rw [← hgate]
  exact SessionStore.gate_changeGate_self store id _

/-- A request joins the gate of the live session that it names. -/
theorem joins_of_session (hi : h.Idle) (hj : f.job.session? = some id)
    (hc : h.store.registry.contents? id = some c) :
    Joins id c h f (joinGate h f ⟨id, false⟩) :=
  joins_joinGate h.store (hi.gates id) hc
    (start_eq_joinGate hj (Registry.find?_ne_none hc))

/-- A request without a session joins the gate of the one that is created for it. -/
theorem joins_of_create (hi : h.Idle) (hj : f.job = .execute request)
    (hsession : requestedSession request.session = none) (hpersist : request.persist = true)
    (hs : f.start h = some x) : ∃ id, Joins id ⟨0, false, none, []⟩ h f x := by
  have hstart := hs
  rw [start, hj] at hstart
  simp only [hsession, createBerth, hpersist, Bool.not_true] at hstart
  split at hstart
  · rename_i store id hcreate
    cases hstart
    obtain ⟨n, now, -, -, -, rfl⟩ := SessionStore.createWithin_eq_some hcreate
    refine ⟨id, joins_joinGate _ (hi.gates id) ?_ hs⟩
    show (h.store.registry.put id (.fresh now)).contents? id = _
    rw [Registry.contents?_put, if_pos rfl]
    rfl
  · cases hstart

theorem Joins.tracks (hx : Joins id c h f x) :
    Tracks id setup request c [] x.1 x.2.phase := by
  rw [hx.phase]
  exact .atGate ⟨rfl, fun he => absurd he Bool.false_ne_true⟩ (Or.inr hx.contents)

theorem Joins.keeps (hx : Joins id c h f x) : Keeps id x.1 x.2 where
  live := Registry.find?_ne_none hx.contents
  started := by
    rw [hx.phase]
    nofun
  ephemeral b hb he := by
    rw [berth?, hx.phase] at hb
    cases hb
    cases he

/-- A request that is not aborted passes the gate if its packages may be used. -/
theorem Joins.entered (hx : Joins id c h f x) (habort : f.isAborted 0 = false)
    (hpass : Guard.checkPackages f.job.packages h.setup.policy = .ok ()) : ∃ y,
      x.2.advance x.1 0 = some y ∧ y.2.phase = .resolving ⟨id, false⟩ f.job.packages [] [] := by
  have hanew : x.2.anew = f.anew := anew_of_start hx.start
  have hjob : x.2.job = f.job := job_of_anew hanew
  have hgoes : x.2.isAborted 0 = false := by
    rw [isAborted, show x.2.abortAt = f.abortAt from congrArg (·.abortAt) hanew]
    exact habort
  have hmay : (x.1.store.gate id).mayEnter x.2.ticket = true := by
    rw [hx.gate, ticket_of_anew hanew]
    simp [Semaphore.join, Semaphore.mayEnter, Semaphore.new]
  have hcheck : Guard.checkPackages x.2.job.packages x.1.setup.policy = .ok () := by
    rw [hjob, setup_of_start hx.start, hpass]
  have hstep : x.2.advance x.1 0 =
      some ({ x.1 with store := x.1.store.changeGate id (·.enter x.2.ticket) },
        { x.2 with phase := .resolving ⟨id, false⟩ x.2.job.packages [] [] }) := by
    rw [advance, hx.phase]
    show passGate x.1 x.2 0 ⟨id, false⟩ = _
    rw [passGate, hgoes, if_neg Bool.false_ne_true, if_pos hmay]
    simp only [hcheck]
  exact ⟨_, hstep, by rw [hjob]⟩

/-- From behind the gate on, a request that is served by itself takes its steps. -/
theorem Joins.solitary {o : Order} (hh : h.removals = []) (ho : o.removal = none)
    (hlate : ∀ abort, o.abort = some abort → 0 < abort.ms) (hx : Joins id c h (o.flight 0) x)
    (hy : x.2.advance x.1 0 = some y) {packages : List Reference}
    (hentered : y.2.phase = .resolving ⟨id, false⟩ packages [] []) :
    Traffic.Solitary y.1 y.2 (h.traffic [o]) := by
  obtain ⟨timers, streak, haborts, hstreak, htraffic⟩ := Host.traffic_upNext hh ho hlate
  have htimers : ∀ timer ∈ timers, timer.task.IsPlain ∧ timer.task.isSample = false := by
    intro timer htimer
    rw [haborts timer htimer]
    exact ⟨trivial, rfl⟩
  have hstart : (o.flight 0).advance h 0 = some x := (advance_of_opening rfl).trans hx.start
  have hgate : 1 < x.2.stepsLeft := by
    rw [stepsLeft, hx.phase]
    exact Nat.succ_lt_succ (Nat.succ_pos _)
  have hlooks : 1 < y.2.stepsLeft := by
    rw [stepsLeft, hentered]
    exact Nat.succ_lt_succ (Nat.succ_pos _)
  have hquiet : (x.2.isResolving && y.1.setup.readsFiles) = false := by
    rw [isResolving, hx.phase, Bool.false_and]
  rw [htraffic, Traffic.finish_upNext htimers hstreak hstart hgate rfl,
    Traffic.finish_upNext htimers hstreak hy hlooks hquiet]
  have hunremoved : (upNext y.1 y.2 timers streak).Unremoved := by
    apply Traffic.all_upNext (p := fun task => task.isRemoval = false) rfl
    intro timer htimer
    rw [haborts timer htimer]
    rfl
  exact Traffic.Solitary.settle ⟨hunremoved, [], y.2, rfl, rfl⟩ _

/-! ## Behind the gate -/

/-- A request that has resolved some references looks for the rest of its packages, or has looked
for all of them. -/
inductive LooksFor (setup : Setup) (packages : List Reference) (rs : List Resolved) (f : Flight) :
    Prop
  | looking {b : Berth} {pending : List Reference} {found : List Resolved}
      {failures : List Diagnostic} (hp : f.phase = .resolving b pending found failures)
      (hrest : rs ++ setup.resolved pending = setup.resolved packages)
  | looked (hbehind : f.stepsLeft ≤ 3) (hall : rs = setup.resolved packages)

theorem resolves_of_behind (hf : f.stepsLeft ≤ 3) (h : Host) : f.resolves h = [] := by
  rw [resolves]
  split
  · rename_i hp
    rw [stepsLeft, hp] at hf
    exact absurd hf (Nat.not_le_of_lt (Nat.le_add_left 4 _))
  · rfl

theorem LooksFor.advance {packages : List Reference} {now : Nat} {after : Host × Flight}
    (hl : LooksFor h.setup packages rs f) (ha : f.advance h now = some after) :
    LooksFor h.setup packages (rs ++ f.resolves h) after.2 := by
  have hless := stepsLeft_of_advance ha
  cases hl with
  | looked hbehind hall =>
      rw [resolves_of_behind hbehind, List.append_nil]
      exact .looked (by omega) hall
  | @looking b pending found failures hp hrest =>
      cases pending with
      | nil =>
          have hleft : f.stepsLeft = 4 := by rw [stepsLeft, hp]; rfl
          rw [resolves, hp]
          exact .looked (by omega) hrest
      | cons r pending =>
          have hresolves : f.resolves h = (h.setup.resolver r).toOption.toList := by
            rw [resolves, hp]
          rw [Flight.advance, hp] at ha
          cases ha
          rw [hresolves, resolveNext]
          cases hr : h.setup.resolver r with
          | ok resolved =>
              rw [Setup.resolved_of_ok hr] at hrest
              exact .looking rfl ((List.append_assoc _ _ _).trans hrest)
          | error e =>
              rw [Setup.resolved_of_error hr] at hrest
              exact .looking rfl ((List.append_assoc _ _ _).trans hrest)

/-- A request that has been let in has looked for all of its packages when it has its reply. -/
theorem Journey.looked {packages : List Reference} (hjourney : Journey id h f rs k g)
    (hp : f.phase = .resolving b packages [] []) (hr : g.reply?.isSome) :
    rs = h.setup.resolved packages := by
  have hend : k.setup = h.setup ∧ LooksFor h.setup packages rs g := by
    clear hr
    induction hjourney with
    | start => exact ⟨rfl, .looking hp rfl⟩
    | step _ ha ih =>
        obtain ⟨hsetup, hlooks⟩ := ih
        rw [← hsetup] at hlooks ⊢
        exact ⟨setup_of_advance ha, hlooks.advance ha⟩
    | elsewhere _ he ih => exact ⟨he.setup.trans ih.1, ih.2⟩
  cases hend.2 with
  | looked _ hall => exact hall
  | looking hp' =>
      rw [reply?, hp'] at hr
      cases hr

end Flight

/-! ## The session of a request -/

/-- A request runs in a session that is to be kept: in the live one that it names, or in one that is
created for it and that its reply names. -/
def Request.RunsIn (request : Request) (h : Host) (id : String) (reply : Reply) : Prop :=
  requestedSession request.session = some id ∧ h.IsLive id ∨
    requestedSession request.session = none ∧ request.persist = true ∧
      Text.isBlankText id = false ∧ reply.session = some id

theorem Request.RunsIn.named {request : Request} {h : Host} {id : String} {reply : Reply}
    (hin : request.RunsIn h id reply) : Text.isBlankText id = false := by
  rcases hin with ⟨hsession, -⟩ | ⟨-, -, hnamed, -⟩
  · exact isBlankText_requestedSession hsession
  · exact hnamed

namespace Flight

variable {h k : Host} {f g : Flight} {id : String} {c : Contents} {x : Host × Flight}
  {request : Request} {reply : Reply} {moments : List Nat}

/-- A request that has its reply has joined the gate of its session. -/
theorem joins_of_follow (hi : h.Idle) (hp : f.phase = .opening) (hj : f.job = .execute request)
    (hin : request.RunsIn h id reply) (hr : g.reply? = some (.executed reply))
    (hf : f.follow h moments = some (k, g)) : ∃ c x rest,
      Joins id c h f x ∧ x.2.follow x.1 rest = some (k, g) := by
  obtain ⟨x, rest, hs, hrest⟩ := start_of_follow hp (hr ▸ rfl) hf
  rcases hin with ⟨hsession, hl⟩ | ⟨hsession, hpersist, -, hnames⟩
  · obtain ⟨c, hc⟩ := Option.ne_none_iff_exists'.1 (Host.isLive_iff.1 hl)
    have hid : f.job.session? = some id := by rwa [hj]
    have hx := joins_of_session hi hid hc
    cases hx.start.symm.trans hs
    exact ⟨c, _, rest, hx, hrest⟩
  · obtain ⟨other, hx⟩ := joins_of_create hi hj hsession hpersist hs
    have hkeeps : g.KeepsTo other := by
      apply follow_preserves (p := fun _ g => g.KeepsTo other) ?_ ?_ hrest
      · exact fun hk ha => (hk.advance ha).2
      · exact Or.inl (by rw [berth?, hx.phase])
    obtain rfl : other = id := by
      rcases hkeeps with hb | ⟨_, hreply, hfrom⟩
      · cases (berth?_of_reply (hr ▸ rfl)).symm.trans hb
      · cases hr.symm.trans hreply
        exact Option.some.inj (hfrom.symm.trans hnames)
    exact ⟨_, x, rest, hx, hrest⟩

/-- The reply to a request in a session that is there and to be kept announces what is there
then. -/
theorem announced_of_follow {setup : Setup} {reply : JobReply} (hj : f.job = .execute request)
    (hsetup : h.setup = setup) (hnamed : Text.isBlankText id = false) (hkeeps : Keeps id h f)
    (htracks : Tracks id setup request c [] h f.phase) (hr : g.reply? = some reply)
    (hf : f.follow h moments = some (k, g)) : ∃ rs added r c', Journey id h f rs k g ∧
      reply = .executed r ∧ k.store.registry.contents? id = some c' ∧
        Announced setup request rs c c' added r := by
  obtain ⟨rs, hjourney⟩ := journey_of_follow id hf
  obtain ⟨-, -, hend⟩ := hjourney.tracks hj hsetup htracks
  have hlive : Keeps id k g := follow_preserves keeps_advance hkeeps hf
  obtain ⟨c', hc'⟩ := Option.ne_none_iff_exists'.1 (Host.isLive_iff.1 hlive.live)
  obtain ⟨added, r, hexecuted, hannounced⟩ := hend.announced hnamed (phase_of_reply hr) hc'
  exact ⟨rs, added, r, c', hjourney, hexecuted, hc', hannounced⟩

/-- So does that to a request that has joined the gate; if its run succeeds, it has all of its
packages attached. -/
theorem Joins.announced {reply : JobReply} (hx : Joins id c h f x) (hj : f.job = .execute request)
    (hnamed : Text.isBlankText id = false) (hr : g.reply? = some reply)
    (hf : x.2.follow x.1 moments = some (k, g)) : ∃ rs added r c', reply = .executed r ∧
      k.store.registry.contents? id = some c' ∧ Announced h.setup request rs c c' added r ∧
        (r.success = true →
          ¬ h.setup.Rejects request.packages ∧ rs = h.setup.resolved request.packages) := by
  have hjob : x.2.job = .execute request := (job_of_anew (anew_of_start hx.start)).trans hj
  have hsetup := setup_of_start hx.start
  obtain ⟨rs, added, r, c', hjourney, rfl, hc', hannounced⟩ :=
    announced_of_follow hjob hsetup hnamed hx.keeps hx.tracks hr hf
  have hopen : x.2.reply? = none := by rw [reply?, hx.phase]
  exact ⟨rs, added, r, c', rfl, hc', hannounced,
    hjourney.accepted hjob hsetup hx.tracks hopen hr⟩

/-- The reply to a request that was let in announces what was attached of all of its packages. -/
theorem Joins.announced_of_entered {y : Host × Flight} {reply : JobReply} (hx : Joins id c h f x)
    (hj : f.job = .execute request) (hnamed : Text.isBlankText id = false)
    (hy : x.2.advance x.1 0 = some y)
    (hentered : y.2.phase = .resolving ⟨id, false⟩ request.packages [] [])
    (hr : g.reply? = some reply) (hf : y.2.follow y.1 moments = some (k, g)) : ∃ added r c',
      reply = .executed r ∧ k.store.registry.contents? id = some c' ∧
        Announced h.setup request (h.setup.resolved request.packages) c c' added r := by
  have hjob : x.2.job = .execute request := (job_of_anew (anew_of_start hx.start)).trans hj
  have hsetup : y.1.setup = h.setup := (setup_of_advance hy).trans (setup_of_start hx.start)
  have htracks : Tracks id h.setup request c [] y.1 y.2.phase := by
    have hadvanced := tracks_advance hjob (setup_of_start hx.start) hx.tracks hy
    rwa [resolves, hx.phase] at hadvanced
  obtain ⟨rs, added, r, c', hjourney, rfl, hc', hannounced⟩ :=
    announced_of_follow ((job_of_anew (anew_of_advance hy)).trans hjob) hsetup hnamed
      (keeps_advance hx.keeps hy) htracks hr hf
  obtain rfl := hjourney.looked hentered (hr ▸ rfl)
  rw [hsetup] at hannounced
  exact ⟨added, r, c', rfl, hc', hannounced⟩

end Flight

end ScriptHost
