import ScriptHost.Proofs.Host.Fleet

/-!
# Sessions that are gone

No step of a request and no operation brings back a session that is gone; only a request
without a session creates one, under an id drawn for it. A run that completes when its session
is gone says so in its reply, and keeps its value and its output.
-/

namespace ScriptHost

/-- What an operation can do to a host: an access to a session, which shows in none, or the
removal of sessions. -/
inductive Operation.Effect (h : Host) : Host → Prop
  | access {id : String} {h' : Host} (writes : h.Writes id h')
      (view : ∀ other, h'.view other = h.view other) (compilations : Nat) :
      Effect h { h' with compilations := compilations }
  | remove (id : String) : Effect h { h with store := (h.store.remove id).1 }
  | clear : Effect h { h with store := h.store.clear.1 }
  | sweep (now : Instant) (ttl : Int) : Effect h { h with store := (h.store.sweepAt now ttl).1 }

namespace Operation

variable {h h' : Host} {id : String}

theorem Effect.refl (h : Host) : Effect h h :=
  .access (.refl "" h) (fun _ => rfl) h.compilations

/-- A submission is validated in no session, or with an access to its own. -/
theorem access_validate (h : Host) (source : String) (session : Option String) :
    ∃ id k compilations, h.Writes id k ∧ (∀ other, k.view other = h.view other) ∧
      (requestedSession session = none → k = h) ∧
      (h.validate source session).1 = { k with compilations := compilations } := by
  simp only [Host.validate]
  cases hc : h.context (requestedSession session) with
  | error e => exact ⟨"", h, h.compilations, .refl "" h, fun _ => rfl, fun _ => rfl, rfl⟩
  | ok found =>
      obtain ⟨k, references, prior⟩ := found
      have hview : ∀ other, k.view other = h.view other := Host.view_of_context hc
      obtain ⟨id, hw, hsame⟩ : ∃ id, h.Writes id k ∧ (requestedSession session = none → k = h) := by
        cases hr : requestedSession session with
        | none =>
            rw [hr] at hc
            cases hc
            exact ⟨"", .refl "" h, fun _ => rfl⟩
        | some id =>
            rw [hr] at hc
            exact ⟨id, Host.writes_of_context hc, fun hnone => nomatch hnone⟩
      cases hs : Guard.checkSource source k.setup.policy with
      | error v =>
          simp only [hs]
          exact ⟨id, k, k.compilations, hw, hview, hsame, rfl⟩
      | ok =>
          simp only [hs, Host.compile]
          cases k.setup.compiler.compile source references prior with
          | error ds => exact ⟨id, k, _, hw, hview, hsame, rfl⟩
          | ok compilation => exact ⟨id, k, _, hw, hview, hsame, rfl⟩

theorem effect_validate (h : Host) (source : String) (session : Option String) :
    Effect h (h.validate source session).1 := by
  obtain ⟨id, k, compilations, hw, hview, -, heq⟩ := access_validate h source session
  rw [heq]
  exact .access hw hview compilations

theorem effect_inspect (h : Host) (session : Option String) :
    Effect h (h.inspect session).1 := by
  simp only [Host.inspect]
  split
  · exact .refl h
  · rename_i id _
    have hw := Host.writes_touch h id
    have hview : ∀ other, { h with store := (h.store.touch id).1 }.view other = h.view other :=
      Host.view_touch h id
    split
    · exact .access hw hview h.compilations
    · exact .access hw hview h.compilations

theorem effect_perform (o : Operation) (h : Host) : Effect h (o.perform h) := by
  cases o with
  | validate source session => exact effect_validate h source session
  | inspect session => exact effect_inspect h session
  | reset session =>
      simp only [perform, Host.reset]
      split
      · exact .remove _
      · exact .clear
  | remove session => exact .remove session
  | sweep now ttl => exact .sweep now ttl

theorem Effect.nodup (he : Effect h h') (hd : h.store.registry.ids.Nodup) :
    h'.store.registry.ids.Nodup := by
  cases he with
  | access writes view compilations => exact (Host.Within.of_writes writes).registry.nodup hd
  | remove id => exact (Host.Within.of_writes (Host.writes_remove h id)).registry.nodup hd
  | clear => exact List.nodup_nil
  | sweep now ttl => exact Table.nodup_keys_keep hd _

/-- An operation brings no session back, and draws no id. -/
theorem Effect.gone (he : Effect h h') (hn : h.store.registry.find? id = none) :
    h'.store.registry.find? id = none := by
  cases he with
  | access writes view compilations =>
      exact (Host.Within.of_writes writes).registry.find?_of_none hn
  | remove other =>
      exact (Host.Within.of_writes (Host.writes_remove h other)).registry.find?_of_none hn
  | clear => exact Registry.find?_clear h.store.registry id
  | sweep now ttl => exact Registry.find?_sweep_of_none hn now ttl

theorem Effect.setup (he : Effect h h') : h'.setup = h.setup := by
  cases he with
  | access writes => exact writes.setup
  | remove | clear | sweep => rfl

theorem Effect.ids (he : Effect h h') : h'.store.ids = h.store.ids := by
  cases he with
  | access writes view compilations => exact (Host.Within.of_writes writes).ids
  | remove | clear | sweep => rfl

theorem Effect.drawn (he : Effect h h') : h'.store.drawn = h.store.drawn := by
  cases he with
  | access writes view compilations => exact (Host.Within.of_writes writes).drawn
  | remove | clear | sweep => rfl

/-- An operation that leaves a session live does not show there. -/
theorem Effect.view (he : Effect h h') (hd : h.store.registry.ids.Nodup) (hl : h'.IsLive id) :
    h'.view id = h.view id := by
  have keep : ∀ r : Registry, (∀ s, r.find? id = some s → h.store.registry.find? id = some s) →
      r.find? id ≠ none → { h with store := { h.store with registry := r } }.view id =
        h.view id := by
    intro r hr hlive
    obtain ⟨s, hs⟩ := Option.ne_none_iff_exists'.1 hlive
    simp only [Host.view, Registry.contents?, hs, hr s hs, SessionStore.gate]
  cases he with
  | access writes view compilations => exact view id
  | remove other =>
      refine keep (h.store.registry.remove other).1 ?_ hl
      intro s hs
      rw [Registry.find?_remove] at hs
      split at hs
      · cases hs
      · exact hs
  | clear => exact absurd (Registry.find?_clear h.store.registry id) hl
  | sweep now ttl =>
      exact keep (h.store.registry.sweep now ttl).1
        (fun _ hs => Registry.find?_of_find?_sweep hd hs) hl

end Operation

/-- No session comes back, but under an id that was drawn since. -/
structure Host.Onward (h h' : Host) : Prop where
  ids : h'.store.ids = h.store.ids
  drawn : h.store.drawn ≤ h'.store.drawn
  gone : ∀ id, ¬ h.IsLive id → h'.IsLive id →
    ∃ n, h.store.drawn ≤ n ∧ n < h'.store.drawn ∧ h.store.ids n = id

namespace Host.Onward

variable {h h' h'' : Host} {id : String}

theorem trans (ho : Onward h h') (ho' : Onward h' h'') : Onward h h'' where
  ids := ho'.ids.trans ho.ids
  drawn := Nat.le_trans ho.drawn ho'.drawn
  gone id hn hl := by
    by_cases hmid : h'.IsLive id
    · obtain ⟨n, hle, hlt, hid⟩ := ho.gone id hn hmid
      exact ⟨n, hle, Nat.lt_of_lt_of_le hlt ho'.drawn, hid⟩
    · obtain ⟨n, hle, hlt, hid⟩ := ho'.gone id hmid hl
      exact ⟨n, Nat.le_trans ho.drawn hle, hlt, ho.ids ▸ hid⟩

theorem of_gone (hids : h'.store.ids = h.store.ids) (hdrawn : h'.store.drawn = h.store.drawn)
    (hgone : ∀ id, h.store.registry.find? id = none → h'.store.registry.find? id = none) :
    Onward h h' where
  ids := hids
  drawn := Nat.le_of_eq hdrawn.symm
  gone id hn hl := absurd (hgone id (Decidable.not_not.1 hn)) hl

theorem of_within (hw : Within id h h') : Onward h h' :=
  of_gone hw.ids hw.drawn fun _ => hw.registry.find?_of_none

end Host.Onward

namespace Flight

variable {h : Host} {f : Flight} {after : Host × Flight} {id : String} {now : Nat}

theorem onward_of_start (hs : f.start h = some after) : h.Onward after.1 := by
  rcases start_cases hs with ⟨_, -, -, rfl⟩ | ⟨_, -, -, rfl⟩ | ⟨store, id, _, -, hc, rfl⟩
  · exact .of_gone rfl rfl fun _ hn => hn
  · exact .of_gone rfl rfl fun _ hn => hn
  · obtain ⟨n, now, hle, hid, -, rfl⟩ := SessionStore.createWithin_eq_some hc
    refine ⟨rfl, Nat.le_succ_of_le hle, ?_⟩
    intro other hn hl
    refine ⟨n, hle, Nat.lt_succ_self n, ?_⟩
    by_cases heq : other = id
    · rw [heq, hid]
    · refine absurd ?_ hl
      show (h.store.registry.put id (.fresh now)).find? other = none
      rw [Registry.find?_put, if_neg heq]
      exact Decidable.not_not.1 hn

theorem onward_of_advance (ha : f.advance h now = some after) : h.Onward after.1 := by
  rcases start_or_stays ha with ⟨-, hs⟩ | ⟨b, -, hstays⟩
  · exact onward_of_start hs
  · exact .of_within hstays.host

theorem nodup_of_advance (ha : f.advance h now = some after)
    (hd : h.store.registry.ids.Nodup) : after.1.store.registry.ids.Nodup := by
  rcases start_or_stays ha with ⟨-, hs⟩ | ⟨b, -, hstays⟩
  · rcases start_cases hs with ⟨_, -, -, rfl⟩ | ⟨_, -, -, rfl⟩ | ⟨store, id, _, -, hc, rfl⟩
    · exact hd
    · exact hd
    · obtain ⟨n, now, -, -, -, rfl⟩ := SessionStore.createWithin_eq_some hc
      exact Table.nodup_keys_set hd _ _
  · exact hstays.host.registry.nodup hd

/-- When the run of a request completes, and is to be kept in a session, the request reports that
the session is gone, and keeps its value and its output. -/
def ReportsLoss (f : Flight) (h : Host) (id : String) : Prop :=
  ∀ {request notes warnings run completion now}, f.job = .execute request →
    request.persist = true → f.phase = .running ⟨id, false⟩ notes warnings run →
    run.outcome = .completed completion → run.finish.any (· ≤ now) →
    ∃ after reply, f.advance h now = some after ∧ after.2.reply? = some (.executed reply) ∧
      reply.errors = [.error Code.sessionNotFound (NotFound.mk id).message] ∧
      reply.success = false ∧ reply.value = completion.value ∧
      reply.output = run.loaded.output.text

theorem settle_of_gone {run : UnitRun} {request : Request} {completion : Completion}
    (hn : ¬ h.IsLive id) (hpersist : request.persist = true)
    (hrun : run.outcome = .completed completion) :
    (settle h now ⟨id, false⟩ run request).2 =
      [.error Code.sessionNotFound (NotFound.mk id).message] := by
  have hfind : h.store.registry.find? id = none := Decidable.not_not.1 hn
  have huse : h.store.registry.use? id = .error ⟨id⟩ := by
    rw [Registry.use?, hfind]
    split
    · rfl
    · rfl
  simp only [settle, hrun, keep, hpersist, SessionStore.updateState, Registry.updateState, huse]
  rfl

theorem reportsLoss_of_gone (f : Flight) (hn : ¬ h.IsLive id) : f.ReportsLoss h id := by
  intro request notes warnings run completion now hj hpersist hp hrun hdone
  have ha : f.advance h now = some (land h f now ⟨id, false⟩ notes warnings run request) := by
    rw [advance, hp]
    simp only [hj, if_pos hdone]
  have hland := land_eq h f now ⟨id, false⟩ notes warnings run request
  rw [settle_of_gone hn hpersist hrun] at hland
  refine ⟨_, _, ha, by rw [hland]; rfl, rfl, ?_, ?_, rfl⟩
  · exact Bool.and_false _
  · simp only [landingReply, hrun]

end Flight

namespace Fleet

variable {s s' : Fleet} {id : String} {e : Event}

theorem onward_of_step (h : s.step e = some s') : s.host.Onward s'.host := by
  cases e with
  | turn ticket now =>
      obtain ⟨f, after, -, ha, rfl⟩ := step_turn h
      exact Flight.onward_of_advance ha
  | operation o =>
      cases h
      have he := o.effect_perform s.host
      exact .of_gone he.ids he.drawn fun _ => he.gone

/-- Along a run no session comes back, but under an id drawn anew. -/
theorem Run.onward {p : Host → Prop} {ps : List Passage} (h : Run id p s ps s') :
    s.host.Onward s'.host := by
  induction h with
  | start => exact .of_gone rfl rfl fun _ hn => hn
  | step run hstep _ ih => exact ih.trans (onward_of_step hstep)

end Fleet

end ScriptHost
