import ScriptHost.Proofs.Host.Alone
import ScriptHost.Proofs.Host.Removals

/-!
# Requests in one session, one after another

Whatever the order in which requests in flight take their steps, those in one session do what
they would do one after another, in the order in which they pass the gate. Only the one beyond
the gate changes what the session shows: the steps of all others leave it as it is.
-/

namespace ScriptHost

namespace Flight

variable {id : String} {h : Host} {f : Flight} {now : Nat}

/-- The request has not passed the gate of a session. -/
inductive Unpassed (f : Flight) (id : String) : Prop
  | outside (hj : f.job.session? ≠ some id) (hb : ∀ b, f.berth? = some b → b.id ≠ id)
  | opening (hj : f.job.session? = some id) (hp : f.phase = .opening)
  | waiting (hj : f.job.session? = some id) (hp : f.phase = .atGate ⟨id, false⟩)
  /-- The session was created for the request. -/
  | created {b : Berth} (hj : f.job.session? = none) (hp : f.phase = .atGate b) (hb : b.id = id)
  | aborted (hj : f.job.session? = some id) (ha : f.abortAt.isSome)
      (hr : f.reply? = some (failureReply f.job (some id) [] .cancelled))

theorem session?_of_anew {g : Flight} (h : f.anew = g.anew) :
    f.job.session? = g.job.session? :=
  congrArg (·.job.session?) h

/-- The start of a request shows nothing to a live session, and leaves the request in front of
its gate, if it wants to go there. -/
theorem unpassed_of_start {after : Host × Flight} (hs : f.start h = some after)
    (hl : h.IsLive id) : after.2.Unpassed id := by
  rcases start_cases hs with ⟨other, hj, -, rfl⟩ | ⟨other, hj, hn, rfl⟩ |
    ⟨store, other, ephemeral, hj, hc, rfl⟩
  · by_cases heq : other = id
    · subst heq
      exact .waiting hj rfl
    · refine .outside (fun hid => heq (Option.some.inj (hj.symm.trans hid))) ?_
      rintro b ⟨⟩
      exact heq
  · refine .outside (fun hid => ?_) (fun b hb => nomatch hb)
    obtain rfl := Option.some.inj (hj.symm.trans hid)
    exact hl hn
  · refine .outside (fun hid => nomatch hj.symm.trans hid) ?_
    rintro b ⟨⟩ heq
    obtain ⟨n, now, -, -, hn, rfl⟩ := SessionStore.createWithin_eq_some hc
    exact hl (heq ▸ hn)

/-- A request that does not pass the gate of a session that stays has been aborted there. -/
theorem abort_at_gate {b : Berth} (hp : f.phase = .atGate b) (hb : b.id = id)
    (hpass : f.passing? id now = none) {after : Host × Flight}
    (ha : f.advance h now = some after) (hl : after.1.IsLive id) :
    after.1.view id = h.view id ∧ f.abortAt.isSome ∧
      after.2 = { f with phase := .done (failureReply f.job (some id) [] .cancelled) } := by
  have habort : f.isAborted now = true := by
    rw [passing?, hp] at hpass
    simpa [hb] using hpass
  have hat : f.abortAt.isSome := by
    rw [isAborted, stopDue] at habort
    cases hat : f.abortAt with
    | some ms => rfl
    | none =>
        rw [hat] at habort
        cases habort
  rw [advance, hp] at ha
  simp only [passGate, if_pos habort] at ha
  cases ha
  subst hb
  cases he : b.ephemeral with
  | true =>
      refine absurd ?_ hl
      simp only [closeBerth, he, if_true]
      exact (Registry.find?_remove _ b.id b.id).trans (if_pos rfl)
  | false =>
      refine ⟨?_, hat, ?_⟩
      · simp only [closeBerth, he, Bool.false_eq_true, if_false, Host.view,
          SessionStore.gate_changeGate_self]
        rfl
      · simp only [namedSession, he, Bool.false_eq_true, if_false]

/-- A step that does not pass the gate shows nothing in the session. -/
theorem step_unpassed (hu : f.Unpassed id) (hpass : f.passing? id now = none) (hl : h.IsLive id)
    {after : Host × Flight} (ha : f.advance h now = some after) (hl' : after.1.IsLive id) :
    after.1.view id = h.view id ∧ after.2.Unpassed id := by
  cases hu with
  | outside hj hb =>
      rcases start_or_stays ha with ⟨-, hs⟩ | ⟨b, hberth, hstays⟩
      · exact ⟨Host.view_of_start hs hl, unpassed_of_start hs hl⟩
      · have hne : id ≠ b.id := fun heq => hb b hberth heq.symm
        refine ⟨hstays.host.view_of_ne hne, .outside ?_ ?_⟩
        · rwa [session?_of_anew hstays.anew]
        · intro c hc heq
          rcases hstays.flight with hsame | hreply
          · obtain rfl := Option.some.inj (hsame.symm.trans hc)
            exact hne heq.symm
          · exact nomatch (berth?_of_reply hreply).symm.trans hc
  | opening hj hp =>
      rw [advance_of_opening hp] at ha
      exact ⟨Host.view_of_start ha hl, unpassed_of_start ha hl⟩
  | waiting hj hp =>
      obtain ⟨hview, habort, hafter⟩ := abort_at_gate hp rfl hpass ha hl'
      rw [hafter]
      exact ⟨hview, .aborted hj habort rfl⟩
  | created hj hp hb =>
      obtain ⟨hview, -, hafter⟩ := abort_at_gate hp hb hpass ha hl'
      rw [hafter]
      exact ⟨hview, .outside (fun hid => nomatch hj.symm.trans hid) (fun _ hb => nomatch hb)⟩
  | aborted hj habort hr =>
      rw [advance_of_reply (by rw [hr]; rfl)] at ha
      cases ha

/-- A request that is about to pass the gate stands there, and goes there alone as well. -/
theorem approach_of_passing {k : Host} (hu : f.Unpassed id) {b : Berth}
    (hpass : f.passing? id now = some b) (hl : k.store.registry.find? id ≠ none)
    (moments : List Nat) :
    f.phase = .atGate b ∧ b.id = id ∧ f.isAborted now = false ∧
      (⟨f.anew, b, moments⟩ : Passage).approach k = some ((joinGate k f b).1, f) := by
  rw [passing?] at hpass
  split at hpass
  · rename_i c hp
    split at hpass
    · rename_i hc
      obtain rfl := Option.some.inj hpass
      refine ⟨hp, hc.1, hc.2, ?_⟩
      have hjoin : joinGate k f.anew c = ((joinGate k f c).1, f) := by
        rw [joinGate, joinGate, ← hp]
        rfl
      rw [Passage.approach, ← hjoin]
      cases hu with
      | outside hj hb => exact absurd hc.1 (hb c (by rw [berth?, hp]))
      | opening hj hop =>
          rw [hp] at hop
          cases hop
      | waiting hj hw =>
          obtain rfl : c = ⟨id, false⟩ := by
            rw [hp] at hw
            exact Phase.atGate.inj hw
          have hj' : f.anew.job.session? = some id := hj
          simp only [hj']
          exact start_eq_joinGate hj' hl
      | created hj _ _ =>
          have hj' : f.anew.job.session? = none := hj
          simp only [hj']
      | aborted hj ha hr =>
          rw [reply?, hp] at hr
          cases hr
    · cases hpass
  · cases hpass

theorem passing?_eq {g : Flight} (hfg : f.unnumbered = g.unnumbered) :
    f.passing? id now = g.passing? id now := by
  have hpassing : ∀ f : Flight, f.unnumbered.passing? id now = f.passing? id now := by
    rintro ⟨ticket, job, abortAt, phase⟩
    cases phase with
    | opening | atGate | resolving | compiling | queued | running | done => rfl
  rw [← hpassing f, hfg, hpassing]

theorem Alone.passing? {units : Nat} (ha : Alone id units h f) (other : String) (now : Nat) :
    f.passing? other now = none := by
  rw [Alone] at ha
  rw [Flight.passing?]
  split
  · rename_i b hp
    rw [hp] at ha
    exact ha.elim
  · rfl

/-- Those who have passed the gate have replied, but for the last, who may be alone beyond it. -/
inductive InTurn (id : String) (units : Nat) (k : Host) : List Flight → Prop
  | idle {gs : List Flight} (replied : ∀ g ∈ gs, g.reply?.isSome)
      (hk : k.Permits id (.new 1) ⟨units + 1, []⟩) : InTurn id units k gs
  | busy {before : List Flight} {g : Flight} (replied : ∀ x ∈ before, x.reply?.isSome)
      (hg : g.reply? = none) (ha : Alone id units k g) : InTurn id units k (before ++ [g])

theorem InTurn.of_alone {units : Nat} {before : List Flight} {g : Flight}
    (replied : ∀ x ∈ before, x.reply?.isSome) (ha : Alone id units h g) :
    InTurn id units h (before ++ [g]) := by
  rcases ha.reply_or_busy with ⟨hr, hk⟩ | ⟨hr, -⟩
  · refine .idle ?_ hk
    intro x hx
    rcases List.mem_append.1 hx with hx | hx
    · exact replied x hx
    · rw [List.mem_singleton.1 hx]
      exact hr
  · exact .busy replied hr ha

/-- Where a request stands, when `gs` are those that have passed the gate, alone. -/
inductive Stands (f : Flight) (id : String) (gs : List Flight) : Prop
  | before (hu : f.Unpassed id) (hg : ∀ g ∈ gs, g.ticket ≠ f.ticket)
  | passed {g : Flight} (hg : g ∈ gs) (hfg : f.unnumbered = g.unnumbered)

/-- Where a request stands does not depend on another that is the last to have passed. -/
theorem Stands.snoc {gs : List Flight} {last : Flight} (h : f.Stands id gs)
    (hne : last.ticket ≠ f.ticket) : f.Stands id (gs ++ [last]) := by
  cases h with
  | before hu hgs =>
      refine .before hu ?_
      intro g hg
      rcases List.mem_append.1 hg with hg | hg
      · exact hgs g hg
      · rwa [List.mem_singleton.1 hg]
  | passed hg hfg => exact .passed (List.mem_append_left _ hg) hfg

theorem Stands.init {gs : List Flight} {last : Flight} (h : f.Stands id (gs ++ [last]))
    (hne : last.ticket ≠ f.ticket) : f.Stands id gs := by
  cases h with
  | before hu hgs => exact .before hu fun g hg => hgs g (List.mem_append_left _ hg)
  | passed hg hfg =>
      rcases List.mem_append.1 hg with hg | hg
      · exact .passed hg hfg
      · rw [List.mem_singleton.1 hg] at hfg
        exact absurd (ticket_of_anew (anew_eq hfg)).symm hne

end Flight

/-- The requests in traffic are where they would be one after another: what the session shows
is the same, and at most the last of those that have passed the gate is under way. -/
structure Fleet.Sync (id : String) (units : Nat) (alone : Host) (s : Fleet)
    (ps : List Passage) (k : Host) (gs : List Flight) : Prop where
  tickets : (s.flights.map (·.ticket)).Nodup
  ids : s.host.store.registry.ids.Nodup
  serial : Serially alone ps k gs
  view : s.host.view id = k.view id
  turn : Flight.InTurn id units k gs
  stands : ∀ f ∈ s.flights, f.Stands id gs
  matched : ∀ g ∈ gs, ∃ f ∈ s.flights, f.unnumbered = g.unnumbered

namespace Fleet

variable {id : String} {units : Nat} {alone k k' : Host} {s s' : Fleet} {ps ps' : List Passage}
  {gs gs' : List Flight} {f : Flight} {now : Nat} {after : Host × Flight}

theorem note_of_passing {b : Berth} (hf : s.flight? f.ticket = some f)
    (hpass : f.passing? id now = some b) (ps : List Passage) :
    s.note id (.turn f.ticket now) ps = ps ++ [⟨f.anew, b, [now]⟩] := by
  simp only [note, hf, hpass]

theorem note_of_not_passing (hf : s.flight? f.ticket = some f)
    (hpass : f.passing? id now = none) (ps : List Passage) :
    s.note id (.turn f.ticket now) ps = ps.map (·.extend f.ticket now) := by
  simp only [note, hf, hpass]

theorem Sync.find?_ne_none (hs : Sync id units alone s ps k gs) (hl : s.host.IsLive id) :
    k.store.registry.find? id ≠ none := by
  have hc : s.host.store.registry.contents? id = k.store.registry.contents? id :=
    congrArg View.contents hs.view
  intro hn
  rw [Registry.contents?_eq_none_iff.2 hn] at hc
  exact hl (Registry.contents?_eq_none_iff.1 hc)

theorem Sync.operation (hs : Sync id units alone s ps k gs) (o : Operation)
    (hl : (o.perform s.host).IsLive id) :
    Sync id units alone { s with host := o.perform s.host } ps k gs where
  tickets := hs.tickets
  ids := (o.effect_perform s.host).nodup hs.ids
  serial := hs.serial
  view := ((o.effect_perform s.host).view hs.ids hl).trans hs.view
  turn := hs.turn
  stands := hs.stands
  matched := hs.matched

/-- The requests are in step again when one of them has taken a step: it stands where it
should, and so do the others, which have not moved. -/
theorem Sync.update (hs : Sync id units alone s ps k gs) (hf : f ∈ s.flights)
    (ha : f.advance s.host now = some after) (serial : Serially alone ps' k' gs')
    (view : after.1.view id = k'.view id)
    (turn : Flight.InTurn id units k' gs')
    (stands : after.2.Stands id gs')
    (others : ∀ x : Flight, x.ticket ≠ f.ticket → x.Stands id gs → x.Stands id gs')
    (matched : ∀ g ∈ gs', after.2.unnumbered = g.unnumbered ∨
      ∃ x ∈ s.flights, x.ticket ≠ f.ticket ∧ x.unnumbered = g.unnumbered) :
    Sync id units alone (s.update after) ps' k' gs' := by
  have hticket : after.2.ticket = f.ticket :=
    Flight.ticket_of_anew (Flight.anew_of_advance ha)
  refine ⟨?_, Flight.nodup_of_advance ha hs.ids, serial, view, turn, ?_, ?_⟩
  · rw [tickets_update]
    exact hs.tickets
  · intro x hx
    rcases mem_update_iff.1 hx with ⟨rfl, -⟩ | ⟨hmem, hne⟩
    · exact stands
    · exact others x (hticket ▸ hne) (hs.stands x hmem)
  · intro g hg
    rcases matched g hg with heq | ⟨x, hx, hne, heq⟩
    · exact ⟨after.2, mem_update_iff.2 (Or.inl ⟨rfl, f, hf, hticket.symm⟩), heq⟩
    · exact ⟨x, mem_update_iff.2 (Or.inr ⟨hx, hticket ▸ hne⟩), heq⟩

/-- Another request is in traffic as it is alone. -/
theorem Sync.matched_of_ne (hs : Sync id units alone s ps k gs) {g : Flight} (hg : g ∈ gs)
    (hne : g.ticket ≠ f.ticket) :
    ∃ x ∈ s.flights, x.ticket ≠ f.ticket ∧ x.unnumbered = g.unnumbered := by
  obtain ⟨x, hx, hxg⟩ := hs.matched g hg
  refine ⟨x, hx, ?_, hxg⟩
  rwa [Flight.ticket_of_anew (Flight.anew_eq hxg)]

/-- The requests are in step again when one of them has done what it does alone, as the last that
has passed the gate. -/
theorem Sync.follow {before : List Flight} {after' : Host × Flight}
    (hs : Sync id units alone s ps k gs) (hf : f ∈ s.flights)
    (ha : f.advance s.host now = some after)
    (serial : Serially alone ps' after'.1 (before ++ [after'.2]))
    (replied : ∀ g ∈ before, g.reply?.isSome) (hfollows : Flight.Follows id units after after')
    (hsub : ∀ g ∈ before, g ∈ gs ∧ g.ticket ≠ f.ticket)
    (others : ∀ x : Flight, x.ticket ≠ f.ticket → x.Stands id gs → x.Stands id before) :
    Sync id units alone (s.update after) ps' after'.1 (before ++ [after'.2]) := by
  have hsame : after'.2.ticket = f.ticket :=
    (Flight.ticket_of_anew (Flight.anew_eq hfollows.flight)).symm.trans
      (Flight.ticket_of_anew (Flight.anew_of_advance ha))
  refine hs.update hf ha serial hfollows.view (.of_alone replied hfollows.alone)
    (.passed (List.mem_append_right _ (List.mem_singleton_self _)) hfollows.flight) ?_ ?_
  · intro x hne hx
    refine (others x hne hx).snoc ?_
    rw [hsame]
    exact hne.symm
  · intro g hg
    rcases List.mem_append.1 hg with hg | hg
    · exact Or.inr (hs.matched_of_ne (hsub g hg).1 (hsub g hg).2)
    · rw [List.mem_singleton.1 hg]
      exact Or.inl hfollows.flight

/-- A step that does not pass the gate, of a request that has not passed it. -/
theorem Sync.unpassed (hs : Sync id units alone s ps k gs) (hf : s.flight? f.ticket = some f)
    (hl : s.host.IsLive id) (hu : f.Unpassed id) (hg : ∀ g ∈ gs, g.ticket ≠ f.ticket)
    (hpass : f.passing? id now = none) (ha : f.advance s.host now = some after)
    (hl' : after.1.IsLive id) :
    Sync id units alone (s.update after) (s.note id (.turn f.ticket now) ps) k gs := by
  obtain ⟨hview, hu'⟩ := Flight.step_unpassed hu hpass hl ha hl'
  have hticket : after.2.ticket = f.ticket :=
    Flight.ticket_of_anew (Flight.anew_of_advance ha)
  rw [note_of_not_passing hf hpass, hs.serial.extend_of_ne hg]
  refine hs.update (mem_of_flight? hf).1 ha hs.serial (hview.trans hs.view) hs.turn
    (.before hu' ?_) (fun x _ hx => hx) ?_
  · rwa [hticket]
  · intro g hmem
    exact Or.inr (hs.matched_of_ne hmem (hg g hmem))

/-- A step that passes the gate: nobody else is beyond it, and the request starts alone. -/
theorem Sync.passing (hs : Sync id units alone s ps k gs) (hf : s.flight? f.ticket = some f)
    (hl : s.host.IsLive id) (hu : f.Unpassed id) (hg : ∀ g ∈ gs, g.ticket ≠ f.ticket)
    {b : Berth} (hpass : f.passing? id now = some b) (ha : f.advance s.host now = some after) :
    ∃ k' gs', Sync id units alone (s.update after) (s.note id (.turn f.ticket now) ps) k' gs' := by
  obtain ⟨hp, rfl, habort, happroach⟩ :=
    Flight.approach_of_passing hu hpass (hs.find?_ne_none hl) [now]
  have hgate : Flight.passGate s.host f now b = some after := by
    rw [← ha, Flight.advance, hp]
  have hfree : 0 < (k.store.gate b.id).free := by
    have hpos := Semaphore.free_pos_of_mayEnter (Flight.mayEnter_of_passGate habort hgate)
    rwa [show (s.host.store.gate b.id).free = (k.store.gate b.id).free from
      congrArg View.free hs.view] at hpos
  cases hs.turn with
  | busy _ hr halone =>
      rcases halone.reply_or_busy with ⟨hsome, -⟩ | ⟨-, hzero⟩
      · rw [hr] at hsome
        cases hsome
      · omega
  | idle replied hk =>
      obtain ⟨hview, hpermits⟩ := Flight.joinGate_alone f hk
      obtain ⟨after', hafter, hfollows⟩ :=
        Flight.follows_passGate (hs.view.trans hview.symm) hpermits habort hgate
      have hrun : (⟨f.anew, b, [now]⟩ : Passage).alone k = some after' := by
        refine Option.bind_eq_some_iff.2 ⟨_, happroach, ?_⟩
        rw [Flight.follow, List.foldlM_cons]
        refine Option.bind_eq_some_iff.2 ⟨after', ?_, rfl⟩
        rw [← hafter]
        show Flight.advance _ f now = _
        rw [Flight.advance, hp]
      refine ⟨after'.1, gs ++ [after'.2], ?_⟩
      rw [note_of_passing hf hpass]
      exact hs.follow (mem_of_flight? hf).1 ha (.snoc hs.serial replied hrun) replied hfollows
        (fun g hmem => ⟨hmem, hg g hmem⟩) (fun x _ hx => hx)

/-- A step beyond the gate, which the request takes alone as well. -/
theorem Sync.passed (hs : Sync id units alone s ps k gs) (hf : s.flight? f.ticket = some f)
    {g : Flight} (hg : g ∈ gs) (hfg : f.unnumbered = g.unnumbered)
    (ha : f.advance s.host now = some after) :
    ∃ k' gs', Sync id units alone (s.update after) (s.note id (.turn f.ticket now) ps) k' gs' := by
  have hflying : f.reply? = none := by
    cases hr : f.reply? with
    | none => rfl
    | some reply =>
        rw [Flight.advance_of_reply (by rw [hr]; rfl)] at ha
        cases ha
  have hticket : g.ticket = f.ticket := (Flight.ticket_of_anew (Flight.anew_eq hfg)).symm
  have unreplied : ∀ x : Flight, x.reply?.isSome → f.unnumbered ≠ x.unnumbered := by
    intro x hx heq
    rw [← Flight.reply?_eq heq, hflying] at hx
    cases hx
  have hmem := (mem_of_flight? hf).1
  cases hs.turn with
  | idle replied _ => exact absurd hfg (unreplied g (replied g hg))
  | @busy before last replied hr halone =>
      have hlast : g = last := by
        rcases List.mem_append.1 hg with hg | hg
        · exact absurd hfg (unreplied g (replied g hg))
        · exact List.mem_singleton.1 hg
      subst hlast
      have others : ∀ x ∈ before, x.ticket ≠ g.ticket := by
        intro x hx heq
        obtain ⟨y, hy, hyx⟩ := hs.matched x (List.mem_append_left _ hx)
        have hsame : y.ticket = f.ticket :=
          (Flight.ticket_of_anew (Flight.anew_eq hyx)).trans (heq.trans hticket)
        obtain rfl := List.inj_on_of_nodup_map hs.tickets hy hmem hsame
        exact unreplied x (replied x hx) hyx
      obtain ⟨after', hafter, hfollows⟩ := Flight.follows_advance hfg hs.view halone ha
      have hpass : f.passing? id now = none := by
        rw [Flight.passing?_eq hfg]
        exact halone.passing? id now
      refine ⟨after'.1, before ++ [after'.2], ?_⟩
      rw [note_of_not_passing hf hpass, ← hticket]
      refine hs.follow hmem ha (hs.serial.extend_last others hafter) replied hfollows ?_ ?_
      · intro x hx
        exact ⟨List.mem_append_left _ hx, hticket ▸ others x hx⟩
      · intro x hne hx
        refine hx.init ?_
        rw [hticket]
        exact hne.symm

theorem Sync.step (hs : Sync id units alone s ps k gs) (hl : s.host.IsLive id) {e : Event}
    (hstep : s.step e = some s') (hl' : s'.host.IsLive id) :
    ∃ k' gs', Sync id units alone s' (s.note id e ps) k' gs' := by
  cases e with
  | operation o =>
      cases hstep
      exact ⟨k, gs, hs.operation o hl'⟩
  | turn ticket now =>
      obtain ⟨f, after, hf, ha, rfl⟩ := step_turn hstep
      obtain ⟨hmem, rfl⟩ := mem_of_flight? hf
      cases hs.stands f hmem with
      | before hu hg =>
          cases hpass : f.passing? id now with
          | some b => exact hs.passing hf hl hu hg hpass ha
          | none => exact ⟨k, gs, hs.unpassed hf hl hu hg hpass ha hl'⟩
      | passed hg hfg => exact hs.passed hf hg hfg ha

/-- No request has passed the gate of a session. -/
structure Fresh (id : String) (s : Fleet) : Prop where
  tickets : (s.flights.map (·.ticket)).Nodup
  ids : s.host.store.registry.ids.Nodup
  flights : ∀ f ∈ s.flights, f.Unpassed id

theorem Fresh.sync (hs : s.Fresh id) (hview : s.host.view id = alone.view id)
    (hidle : alone.Permits id (.new 1) ⟨units + 1, []⟩) :
    Sync id units alone s [] alone [] where
  tickets := hs.tickets
  ids := hs.ids
  serial := .nil
  view := hview
  turn := .idle (fun _ hg => nomatch hg) hidle
  stands f hf := .before (hs.flights f hf) (fun _ hg => nomatch hg)
  matched := fun _ hg => nomatch hg

theorem Run.live {p : Host → Prop} (h : Run id p s ps s') : p s'.host := by
  cases h with
  | start h => exact h
  | step _ _ h => exact h

theorem Run.sync (hs : s.Fresh id) (hview : s.host.view id = alone.view id)
    (hidle : alone.Permits id (.new 1) ⟨units + 1, []⟩)
    (h : Run id (Host.IsLive id) s ps s') :
    ∃ k gs, Sync id units alone s' ps k gs := by
  induction h with
  | start => exact ⟨alone, [], hs.sync hview hidle⟩
  | step run hstep hlive ih =>
      obtain ⟨k, gs, hsync⟩ := ih
      exact hsync.step run.live hstep hlive

/-- The fleet ends as the requests that have passed the gate of a session do when they are run one
after another. The session holds the same then, and they have the same replies; the others in
the session have no reply, or were aborted at the gate. -/
structure Matches (id : String) (after : Host) (flights : List Flight) (s : Fleet) : Prop where
  contents : s.host.store.registry.contents? id = after.store.registry.contents? id
  replies : ∀ g ∈ flights, s.reply? g.ticket = g.reply?
  others : ∀ f ∈ s.flights, f.job.session? = some id → ∀ reply, f.reply? = some reply →
    (∃ g ∈ flights, g.ticket = f.ticket) ∨
      f.abortAt.isSome ∧ reply = Flight.failureReply f.job (some id) [] .cancelled

theorem Sync.matches (hs : Sync id units alone s ps k gs) : s.Matches id k gs where
  contents := congrArg View.contents hs.view
  replies := by
    intro g hg
    obtain ⟨f, hf, hfg⟩ := hs.matched g hg
    rw [← Flight.ticket_of_anew (Flight.anew_eq hfg), ← Flight.reply?_eq hfg, reply?,
      flight?_of_mem hs.tickets hf]
    rfl
  others := by
    intro f hf hj reply hr
    cases hs.stands f hf with
    | before hu hg =>
        cases hu with
        | outside hne => exact absurd hj hne
        | created hnone => exact nomatch hnone.symm.trans hj
        | opening _ hp | waiting _ hp =>
            rw [Flight.reply?, hp] at hr
            cases hr
        | aborted _ ha hcancelled =>
            exact Or.inr ⟨ha, Option.some.inj (hr.symm.trans hcancelled)⟩
    | passed hg hfg =>
        exact Or.inl ⟨_, hg, (Flight.ticket_of_anew (Flight.anew_eq hfg)).symm⟩

/-- Requests in a session are serializable while it stays live: they do what they do one after
another, in the order in which they pass its gate, on any host that shows the same to the session
and serves nobody else. A session that is gone stays away, unless its id is drawn anew, and
those who were to leave something there say that it is gone. -/
theorem serializable (id : String) :
    (∀ {units : Nat} {start finish : Fleet} {passages : List Passage} {alone : Host},
      start.Fresh id → start.host.view id = alone.view id →
      alone.Permits id (.new 1) ⟨units + 1, []⟩ →
      Run id (Host.IsLive id) start passages finish →
      ∃ after flights, Serially alone passages after flights ∧ finish.Matches id after flights) ∧
    ∀ {start finish : Fleet} {passages : List Passage} {p : Host → Prop},
      ¬ start.host.IsLive id → Run id p start passages finish →
      (finish.host.IsLive id → ∃ n, start.host.store.drawn ≤ n ∧ n < finish.host.store.drawn ∧
        start.host.store.ids n = id) ∧
      (¬ finish.host.IsLive id → ∀ f ∈ finish.flights, f.ReportsLoss finish.host id) := by
  constructor
  · intro units start finish passages alone hfresh hview hidle hrun
    obtain ⟨after, gs, hsync⟩ := hrun.sync hfresh hview hidle
    exact ⟨after, gs, hsync.serial, hsync.matches⟩
  · intro start finish passages p hgone hrun
    exact ⟨hrun.onward.gone id hgone, fun hfinish f _ => f.reportsLoss_of_gone hfinish⟩

/-- A host with one session, and the compiler of the script language. -/
def sampleHost : Host :=
  .new ⟨.permissive, Script.compiler, fun r => .ok ⟨r, []⟩, false, ⟨0, 0, 100, 100⟩, []⟩ 1
    { SessionStore.new 0 toString with registry := Registry.empty.put "s" (.fresh 0) }

/-- A package to attach to the session, and a text to run there. -/
def sampleFleet : Fleet :=
  ⟨sampleHost,
    [.new 0 (.load "s" [⟨"a", none⟩]) none, .new 1 (.execute ⟨"", some "s", [], true⟩) none]⟩

/-- Both requests come to the gate before one of them passes it; the session is asked for between
their steps. -/
def sampleEvents : List Event :=
  [.turn 1 0, .turn 0 0, .turn 1 1, .turn 1 2, .operation (.inspect (some "s")), .turn 1 3,
    .turn 1 4, .turn 1 5, .turn 0 6, .turn 0 7, .turn 0 8]

/-- The requests are served as they would be one after another. When the session is removed while
the text runs, its run reports that. -/
theorem serializable_sample :
    (∃ passages finish after flights, Run "s" (Host.IsLive "s") sampleFleet passages finish ∧
      passages.map (·.flight.ticket) = [1, 0] ∧ finish.flights.all (·.reply?.isSome) = true ∧
      Serially sampleHost passages after flights ∧ finish.Matches "s" after flights) ∧
    ∃ passages running, play "s" [] sampleFleet (sampleEvents.take 7) = some (passages, running) ∧
      ∀ f ∈ running.flights,
        f.ReportsLoss ((Operation.reset (some "s")).perform running.host) "s" := by
  constructor
  · obtain ⟨⟨passages, finish⟩, hplay⟩ := Option.isSome_iff_exists.1
      (show (play "s" [] sampleFleet sampleEvents).isSome = true by decide +kernel)
    have hlive : Host.IsLive "s" sampleFleet.host :=
      Option.isSome_iff_ne_none.1 (by decide +kernel)
    have hrun := run_of_play (.start hlive) hplay
    have horder : (play "s" [] sampleFleet sampleEvents).map
        (fun x => x.1.map (·.flight.ticket)) = some [1, 0] := by decide +kernel
    have hreplies : (play "s" [] sampleFleet sampleEvents).map
        (fun x => x.2.flights.all (·.reply?.isSome)) = some true := by decide +kernel
    rw [hplay] at horder hreplies
    have hfresh : sampleFleet.Fresh "s" := by
      refine ⟨by decide, by decide, ?_⟩
      intro f hf
      have hopening : f.phase = .opening ∧ f.job.session? = some "s" := by
        rcases List.mem_pair.1 hf with rfl | rfl
        · exact ⟨rfl, rfl⟩
        · exact ⟨rfl, by decide +kernel⟩
      exact .opening hopening.2 hopening.1
    have hidle : sampleHost.Permits "s" (.new 1) ⟨0 + 1, []⟩ := ⟨rfl, rfl⟩
    obtain ⟨after, flights, hserial, hmatches⟩ :=
      (serializable "s").1 hfresh rfl hidle hrun
    exact ⟨passages, finish, after, flights, hrun, Option.some.inj horder,
      Option.some.inj hreplies, hserial, hmatches⟩
  · obtain ⟨⟨passages, running⟩, hplay⟩ := Option.isSome_iff_exists.1
      (show (play "s" [] sampleFleet (sampleEvents.take 7)).isSome = true by decide +kernel)
    refine ⟨passages, running, hplay, ?_⟩
    have hgone : ((play "s" [] sampleFleet (sampleEvents.take 7)).map fun x =>
        (((Operation.reset (some "s")).perform x.2.host).store.registry.find? "s").isNone) =
          some true := by decide +kernel
    rw [hplay] at hgone
    have hn : ¬ Host.IsLive "s" ((Operation.reset (some "s")).perform running.host) :=
      fun hl => hl (Option.isNone_iff_eq_none.1 (Option.some.inj hgone))
    have hrun : Run "s" (fun _ => True)
        ⟨(Operation.reset (some "s")).perform running.host, running.flights⟩ []
        ⟨(Operation.reset (some "s")).perform running.host, running.flights⟩ := .start trivial
    exact ((serializable "s").2 hn hrun).2 hn

end Fleet

end ScriptHost
