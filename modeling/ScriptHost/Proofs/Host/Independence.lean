import ScriptHost.Proofs.Host.Leaving
import ScriptHost.Proofs.Host.Removals

/-!
# Sessions do not influence each other

Requests are made one after another, each when the one before it has its reply. Those addressed to
a session are answered as if the others had not been made, and leave in the session what they would
have left. A request that runs in a session of its own leaves no trace of it.

## Implementation notes

The two hosts that are compared may differ in everything but what the session sees: in other sessions,
in the count of units and of compilations, and in the ids that are drawn. Both are idle between
requests, so a request finds its gate open and a unit free on each of them.
-/

namespace ScriptHost

/-- What can be asked of a host that leaves the sessions of others alone. -/
inductive Ask where
  | execute (request : Request) (abort : Option Abort)
  | load (session : String) (packages : List Reference)
  | validate (source : String) (session : Option String)
deriving DecidableEq, Repr

inductive Answer where
  | reply (r : JobReply)
  | verdict (v : Verdict)
deriving DecidableEq, Repr

/-- Serve an order by itself; no answer if it would wait for ever. -/
def Host.answer (h : Host) (o : Order) : Option (Host × Answer) :=
  match h.serve [o] with
  | (h, [some reply]) => some (h, .reply reply)
  | _ => none

namespace Ask

/-- The session that is addressed. -/
def session? : Ask → Option String
  | execute request _ => requestedSession request.session
  | load session _ => some session
  | validate _ session => requestedSession session

/-- The host after the answer, and the answer. -/
def perform (h : Host) : Ask → Option (Host × Answer)
  | execute request abort => h.answer ⟨.execute request, abort, none⟩
  | load session packages => h.answer (.ofJob (.load session packages))
  | validate source session =>
    let result := h.validate source session
    some (result.1, .verdict result.2)

end Ask

namespace Host

/-- Ask one after another, each when the one before is answered. -/
def askAll (h : Host) : List Ask → Option (Host × List Answer)
  | [] => some (h, [])
  | ask :: asks => do
    let (h, answer) ← ask.perform h
    let (h, answers) ← h.askAll asks
    return (h, answer :: answers)

/-- Nobody is served, and nothing is to come. -/
structure Idle (h : Host) : Prop where
  gates : ∀ id, h.store.gate id = .new 1
  slots : ∃ units, h.domain.slots = ⟨units + 1, []⟩
  removals : h.removals = []

/-- The id is that of a live session, or is never drawn for a new one. -/
def Reserves (h : Host) (id : String) : Prop :=
  h.IsLive id ∨ ∀ n, h.store.drawn ≤ n → h.store.ids n ≠ id

theorem idle_new (setup : Setup) (maxUnits : Nat) (clock : Instant) (ids : Nat → String) :
    (Host.new setup maxUnits (.new clock ids)).Idle where
  gates _ := rfl
  slots := ⟨max maxUnits 1 - 1, by
    show (⟨max maxUnits 1, []⟩ : Semaphore) = _
    rw [Nat.sub_add_cancel (Nat.le_max_right maxUnits 1)]⟩
  removals := rfl

variable {h h' k : Host} {id other : String} {o : Order} {answer : Answer}

theorem answer_eq_some (ha : h.answer o = some (h', answer)) : ∃ reply,
    h.serve [o] = (h', [some reply]) ∧ answer = .reply reply := by
  rw [Host.answer] at ha
  split at ha
  · rename_i k reply hserve
    cases ha
    exact ⟨reply, hserve, rfl⟩
  · cases ha

theorem answer_of_serve {reply : JobReply} (hs : h.serve [o] = (h', [some reply])) :
    h.answer o = some (h', .reply reply) := by
  rw [Host.answer, hs]

/-- What a request that is served by itself has done since some step. -/
theorem follow_of_solitary {f : Flight} (hs : Traffic.Solitary k f (h.traffic [o]))
    (ha : h.answer o = some (h', answer)) : ∃ reply moments k' g,
      f.follow k moments = some (k', g) ∧ g.reply? = some reply ∧
        answer = .reply reply ∧ h' = { k' with removals := [] } := by
  obtain ⟨reply, hserve, hanswer⟩ := answer_eq_some ha
  obtain ⟨hunremoved, moments, g, hflights, hfollow⟩ := hs
  rw [serve] at hserve
  obtain ⟨hhost, hreplies⟩ := Prod.mk.inj hserve
  rw [hunremoved.hostAfter] at hhost
  rw [hflights] at hreplies
  exact ⟨reply, moments, _, g, hfollow, List.singleton_inj.1 hreplies, hanswer, hhost.symm⟩

theorem follow_of_answer (hh : h.removals = []) (ho : o.removal = none)
    (ha : h.answer o = some (h', answer)) : ∃ reply moments k g,
      (o.flight 0).follow h moments = some (k, g) ∧ g.reply? = some reply ∧
        answer = .reply reply ∧ h' = { k with removals := [] } :=
  follow_of_solitary (solitary_traffic hh ho) ha

end Host

namespace Flight

variable {h k : Host} {f g : Flight} {id other : String} {moments : List Nat} {units : Nat}

theorem job_of_anew (hfg : f.anew = g.anew) : f.job = g.job := by
  show f.anew.job = g.anew.job
  rw [hfg]

/-- A request that has its reply has started. -/
theorem start_of_follow (hp : f.phase = .opening) (hr : g.reply?.isSome)
    (hf : f.follow h moments = some (k, g)) :
    ∃ x rest, f.start h = some x ∧ x.2.follow x.1 rest = some (k, g) := by
  cases moments with
  | nil =>
      cases hf
      rw [reply?, hp] at hr
      cases hr
  | cons now rest =>
      rw [follow, List.foldlM_cons] at hf
      obtain ⟨x, ha, hrest⟩ := Option.bind_eq_some_iff.1 hf
      rw [advance_of_opening hp] at ha
      exact ⟨x, rest, ha, hrest⟩

theorem started_of_start {x : Host × Flight} (hs : f.start h = some x) : x.2.phase ≠ .opening := by
  rcases start_cases hs with ⟨_, -, -, rfl⟩ | ⟨_, -, -, rfl⟩ | ⟨_, _, _, -, -, rfl⟩
  · rintro ⟨⟩
  · rintro ⟨⟩
  · rintro ⟨⟩

/-- A request that has left the opening does not return there. -/
theorem Stays.started {b : Berth} {after : Host × Flight} (hs : Stays h f b after) :
    after.2.phase ≠ .opening := by
  intro hp
  rcases hs.flight with hsame | hreply
  · rw [berth?, hp] at hsame
    cases hsame
  · rw [reply?, hp] at hreply
    cases hreply

/-- A request changes into no other session. -/
theorem Stays.berth {b c : Berth} {after : Host × Flight} (hs : Stays h f b after)
    (hc : after.2.berth? = some c) : c = b := by
  rcases hs.flight with hsame | hreply
  · exact Option.some.inj (hc.symm.trans hsame)
  · cases (berth?_of_reply hreply).symm.trans hc

/-- A request that has started takes its steps in a session. -/
theorem stays_of_started {now : Nat} {after : Host × Flight} (hf : f.phase ≠ .opening)
    (ha : f.advance h now = some after) : ∃ b, f.berth? = some b ∧ Stays h f b after := by
  rcases start_or_stays ha with ⟨hp, -⟩ | hstays
  · exact absurd hp hf
  · exact hstays

/-- A request stays the only one on its host. -/
theorem ready_advance {now : Nat} {after : Host × Flight} (hr : Ready id units h f)
    (ha : f.advance h now = some after) : Ready id units after.1 after.2 := by
  rcases abreast_advance ⟨rfl, rfl, hr, hr⟩ now with ⟨hnone, -⟩ | ⟨x, y, hx, -, hxy⟩
  · cases hnone.symm.trans ha
  · obtain rfl := Option.some.inj (hx.symm.trans ha)
    exact hxy.left

/-- The request has started, and is the only one on its host, whose other gates are open. -/
structure Onstage (id : String) (units : Nat) (h : Host) (f : Flight) : Prop where
  ready : Ready id units h f
  started : f.phase ≠ .opening
  gates : ∀ other, other ≠ id → h.store.gate other = .new 1

theorem Onstage.berth {b : Berth} (hf : Onstage id units h f) (hb : f.berth? = some b) :
    b.id = id := by
  have hready := hf.ready
  simp only [Ready, Alone] at hready
  rw [berth?] at hb
  cases hp : f.phase with
  | opening | done =>
      rw [hp] at hb
      cases hb
  | atGate | resolving | compiling | queued | running =>
      rw [hp] at hb hready
      cases hb
      exact hready.1

theorem Onstage.advance {now : Nat} {after : Host × Flight} (hf : Onstage id units h f)
    (ha : f.advance h now = some after) : Onstage id units after.1 after.2 := by
  obtain ⟨b, hb, hstays⟩ := stays_of_started hf.started ha
  refine ⟨ready_advance hf.ready ha, hstays.started, ?_⟩
  intro other hne
  rw [hstays.host.gate other (hf.berth hb ▸ hne)]
  exact hf.gates other hne

theorem onstage_start {x : Host × Flight} (hi : h.Idle) (hs : f.start h = some x) :
    ∃ id units, Onstage id units x.1 x.2 := by
  obtain ⟨units, hslots⟩ := hi.slots
  have hgates : ∀ (b : Berth) (store : SessionStore), (∀ id, store.gate id = h.store.gate id) →
      Onstage b.id units (joinGate { h with store := store } f b).1
        (joinGate { h with store := store } f b).2 := by
    intro b store hstore
    have hpermits : ({ h with store := store } : Host).Permits b.id (.new 1) ⟨units + 1, []⟩ :=
      ⟨(hstore b.id).trans (hi.gates b.id), hslots⟩
    refine ⟨ready_joinGate hpermits f, by rintro ⟨⟩, ?_⟩
    intro other hne
    show (store.changeGate b.id _).gate other = _
    rw [SessionStore.gate_changeGate, if_neg hne, hstore other, hi.gates other]
  rcases start_cases hs with ⟨id, -, -, rfl⟩ | ⟨id, -, -, rfl⟩ | ⟨store, id, ephemeral, -, hc, rfl⟩
  · exact ⟨id, units, hgates ⟨id, false⟩ h.store fun _ => rfl⟩
  · exact ⟨id, units, ⟨hi.gates id, hslots⟩, started_of_start hs, fun other _ => hi.gates other⟩
  · obtain ⟨n, now, -, -, -, rfl⟩ := SessionStore.createWithin_eq_some hc
    exact ⟨id, units, hgates ⟨id, ephemeral⟩ _ fun _ => rfl⟩

/-- A host is idle again when its only request has its reply. -/
theorem idle_of_follow (hi : h.Idle) (hp : f.phase = .opening) (hr : g.reply?.isSome)
    (hf : f.follow h moments = some (k, g)) : { k with removals := [] }.Idle := by
  obtain ⟨x, rest, hs, hrest⟩ := start_of_follow hp hr hf
  obtain ⟨id, units, hx⟩ := onstage_start hi hs
  have hend : Onstage id units k g := follow_preserves Onstage.advance hx hrest
  have hpermits : k.Permits id (.new 1) ⟨units + 1, []⟩ := by
    obtain ⟨reply, hreply⟩ := Option.isSome_iff_exists.1 hr
    have hready := hend.ready
    simp only [Ready, Alone, phase_of_reply hreply] at hready
    exact hready
  refine ⟨fun other => ?_, ⟨units, hpermits.slots⟩, rfl⟩
  by_cases heq : other = id
  · rw [heq]
    exact hpermits.gate
  · exact hend.gates other heq

/-- A request that is addressed elsewhere gets another session, and the start of it shows nothing
in this one. -/
theorem start_elsewhere {x : Host × Flight} (hA : h.Reserves id) (hj : f.job.session? ≠ some id)
    (hs : f.start h = some x) :
    x.1.view id = h.view id ∧ ∀ b, x.2.berth? = some b → b.id ≠ id := by
  have hjoin : ∀ (k : Host) (b : Berth), b.id ≠ id → (joinGate k f b).1.view id = k.view id :=
    fun k b hne => (Host.Within.of_changeGate b.id k _).view_of_ne hne.symm
  rcases start_cases hs with ⟨other, hother, -, rfl⟩ | ⟨other, hother, -, rfl⟩ |
    ⟨store, other, ephemeral, -, hc, rfl⟩
  · have hne : other ≠ id := fun heq => hj (heq ▸ hother)
    refine ⟨hjoin h ⟨other, false⟩ hne, ?_⟩
    rintro b ⟨⟩
    exact hne
  · refine ⟨rfl, ?_⟩
    rintro b ⟨⟩
  · obtain ⟨n, now, hn, rfl, hfree, rfl⟩ := SessionStore.createWithin_eq_some hc
    have hne : h.store.ids n ≠ id := by
      rcases hA with hl | hnever
      · intro heq
        exact hl (heq ▸ hfree)
      · exact hnever n hn
    refine ⟨(hjoin _ ⟨_, ephemeral⟩ hne).trans ?_, ?_⟩
    · rw [Host.view, Host.view]
      congr 1
      show (h.store.registry.put (h.store.ids n) (.fresh now)).contents? id = _
      rw [Registry.contents?_put, if_neg hne.symm]
    · rintro b ⟨⟩
      exact hne

/-- A request shows nothing in a session that it is not addressed to. -/
theorem view_of_follow (hA : h.Reserves id) (hp : f.phase = .opening)
    (hj : f.job.session? ≠ some id) (hr : g.reply?.isSome)
    (hf : f.follow h moments = some (k, g)) : k.view id = h.view id := by
  obtain ⟨x, rest, hs, hrest⟩ := start_of_follow hp hr hf
  obtain ⟨hview, hberth⟩ := start_elsewhere hA hj hs
  have hend : k.view id = h.view id ∧ g.phase ≠ .opening ∧ ∀ b, g.berth? = some b → b.id ≠ id := by
    apply follow_preserves (p := fun k g => k.view id = h.view id ∧ g.phase ≠ .opening ∧
      ∀ b, g.berth? = some b → b.id ≠ id) ?_ ⟨hview, started_of_start hs, hberth⟩ hrest
    rintro k g now after ⟨hview, hstarted, hberth⟩ ha
    obtain ⟨b, hb, hstays⟩ := stays_of_started hstarted ha
    refine ⟨(hstays.host.view_of_ne (hberth b hb).symm).trans hview, hstays.started, ?_⟩
    intro c hc
    rw [hstays.berth hc]
    exact hberth b hb
  exact hend.1

/-- A session that is live, and was not created for the request only, is not taken away by it. -/
structure Keeps (id : String) (h : Host) (f : Flight) : Prop where
  live : h.IsLive id
  started : f.phase ≠ .opening
  ephemeral : ∀ b, f.berth? = some b → b.ephemeral = true →
    b.id ≠ id ∧ ∀ other packages, f.job ≠ .load other packages

theorem keeps_advance {now : Nat} {after : Host × Flight} (hf : Keeps id h f)
    (ha : f.advance h now = some after) : Keeps id after.1 after.2 := by
  obtain ⟨b, hb, hstays⟩ := stays_of_started hf.started ha
  have hjob : after.2.job = f.job := job_of_anew (anew_of_advance ha)
  refine ⟨?_, hstays.started, ?_⟩
  -- A step in the session itself does not close it, and one elsewhere does not show in it.
  · by_cases heq : b.id = id
    · have hkept : b.ephemeral = false := by
        by_contra he
        exact (hf.ephemeral b hb (eq_true_of_ne_false he)).1 heq
      obtain ⟨k, hlive, hregistry⟩ := leaves_of_advance hb (fun _ _ _ => hkept) ha
      have hsame : closeBerth k b = k := by
        rw [closeBerth, hkept]
        rfl
      rw [hsame, ite_self] at hregistry
      rw [Host.IsLive, hregistry]
      exact heq ▸ hlive (heq ▸ hf.live)
    · have hview := hstays.host.view_of_ne (Ne.symm heq)
      exact Host.isLive_of_view hview.symm hf.live
  · intro c hc
    rw [hstays.berth hc, hjob]
    exact hf.ephemeral b hb

end Flight

namespace Host

variable {h h' k : Host} {id : String} {o : Order} {ask : Ask} {answer : Answer}

theorem Idle.writes (hi : h.Idle) (hw : h.Writes id k) (compilations : Nat) :
    { k with compilations := compilations }.Idle := by
  cases hw
  exact ⟨hi.gates, hi.slots, hi.removals⟩

theorem idle_of_answer (hi : h.Idle) (ho : o.removal = none) (ha : h.answer o = some (h', answer)) :
    h'.Idle := by
  obtain ⟨reply, moments, k, g, hfollow, hreply, -, rfl⟩ := follow_of_answer hi.removals ho ha
  exact Flight.idle_of_follow hi rfl (Option.isSome_of_eq_some hreply) hfollow

theorem view_of_answer (hi : h.Idle) (hA : h.Reserves id) (ho : o.removal = none)
    (hj : o.job.session? ≠ some id) (ha : h.answer o = some (h', answer)) :
    h'.view id = h.view id := by
  obtain ⟨reply, moments, k, g, hfollow, hreply, -, rfl⟩ := follow_of_answer hi.removals ho ha
  have hsame : k.view id = h.view id :=
    Flight.view_of_follow hA rfl hj (Option.isSome_of_eq_some hreply) hfollow
  exact hsame

theorem idle_perform (hi : h.Idle) (ha : ask.perform h = some (h', answer)) : h'.Idle := by
  cases ask with
  | execute request abort => exact idle_of_answer hi rfl ha
  | load session packages => exact idle_of_answer hi rfl ha
  | validate source session =>
      cases ha
      obtain ⟨other, k, compilations, hw, -, -, heq⟩ := Operation.access_validate h source session
      rw [heq]
      exact hi.writes hw compilations

/-- Those in a session see nothing of what is asked in others. -/
theorem view_perform (hi : h.Idle) (hA : h.Reserves id) (hother : ask.session? ≠ some id)
    (ha : ask.perform h = some (h', answer)) : h'.view id = h.view id := by
  cases ask with
  | execute request abort =>
      exact view_of_answer (o := ⟨.execute request, abort, none⟩) hi hA rfl hother ha
  | load session packages =>
      exact view_of_answer (o := .ofJob (.load session packages)) hi hA rfl hother ha
  | validate source session =>
      cases ha
      obtain ⟨other, k, compilations, -, hview, -, heq⟩ :=
        Operation.access_validate h source session
      rw [heq]
      exact hview id

theorem askAll_cons_eq_some {asks : List Ask} {answers : List Answer} :
    h.askAll (ask :: asks) = some (k, answers) ↔ ∃ h' answer more,
      ask.perform h = some (h', answer) ∧ h'.askAll asks = some (k, more) ∧
        answers = answer :: more := by
  rw [askAll]
  constructor
  · intro ha
    obtain ⟨⟨h', answer⟩, hfirst, hrest⟩ := Option.bind_eq_some_iff.1 ha
    obtain ⟨⟨k, more⟩, hmore, heq⟩ := Option.bind_eq_some_iff.1 hrest
    cases heq
    exact ⟨h', answer, more, hfirst, hmore, rfl⟩
  · rintro ⟨h', answer, more, hfirst, hmore, rfl⟩
    refine Option.bind_eq_some_iff.2 ⟨_, hfirst, ?_⟩
    exact Option.bind_eq_some_iff.2 ⟨_, hmore, rfl⟩

end Host

end ScriptHost
