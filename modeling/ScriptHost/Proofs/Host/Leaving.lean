import ScriptHost.Proofs.Host.Solitary
import ScriptHost.Proofs.Session.Attachments

/-!
# What a request leaves behind

A request does not take its session away, unless the session was created for it only: that one is
gone when the request has its reply, and the registry is as it was before.
-/

namespace ScriptHost

namespace Registry

end Registry

namespace Host

theorem isLive_iff {h : Host} {id : String} :
    h.IsLive id ↔ h.store.registry.contents? id ≠ none :=
  not_congr Registry.contents?_eq_none_iff.symm

theorem isLive_of_view {h k : Host} {id : String} (hv : h.view id = k.view id) (hl : h.IsLive id) :
    k.IsLive id := by
  rw [isLive_iff] at hl ⊢
  rwa [show k.store.registry.contents? id = h.store.registry.contents? id from
    congrArg View.contents hv.symm]

end Host

namespace Flight

variable {h k : Host} {f : Flight} {b : Berth} {now : Nat} {after : Host × Flight}

/-- A step leaves the session live, and then closes it if the request has its reply. -/
def Leaves (h : Host) (b : Berth) (after : Host × Flight) : Prop :=
  ∃ k : Host, (h.IsLive b.id → k.IsLive b.id) ∧
    after.1.store.registry =
      (if after.2.reply?.isSome then closeBerth k b else k).store.registry

theorem leaves_fail (hl : h.IsLive b.id → k.IsLive b.id) (f : Flight) (notes : List Diagnostic)
    (failure : Failure) : Leaves h b (fail k f b notes failure) :=
  ⟨openGate k b, hl, rfl⟩

theorem live_attach (job : Job) (found : List Resolved) (failures : List Diagnostic)
    (hl : h.IsLive b.id) : (attach h job b found failures).1.IsLive b.id := by
  rw [attach]
  split
  · exact hl
  · split
    · exact hl
    · split
      · exact hl
      · rename_i store merged hm
        rw [SessionStore.merge_eq] at hm
        obtain ⟨⟨r, m⟩, hr, heq⟩ := Computation.except_map_eq_ok_iff.1 hm
        cases heq
        obtain ⟨c, -, hafter, -⟩ := Registry.contents?_of_merge hr
        apply Host.isLive_iff.2
        show r.contents? b.id ≠ none
        rw [hafter]
        exact Option.some_ne_none _

theorem leaves_prepare (hl : h.IsLive b.id → k.IsLive b.id) (f : Flight) (request : Request)
    (notes : List Diagnostic) : Leaves h b (prepare k f b request notes) := by
  rw [prepare]
  split
  · exact leaves_fail hl f notes _
  · split
    · exact leaves_fail hl f notes _
    · rename_i k' references prior hc
      exact ⟨k', fun h => Host.isLive_of_view (Host.view_of_context hc b.id).symm (hl h), rfl⟩

theorem leaves_attachAll (hload : ∀ id packages, f.job = .load id packages → b.ephemeral = false)
    (found : List Resolved) (failures : List Diagnostic) :
    Leaves h b (attachAll h f b found failures) := by
  have hl := live_attach (h := h) (b := b) f.job found failures
  rw [attachAll]
  split
  · rename_i h' notes e ha
    rw [ha] at hl
    exact leaves_fail hl f notes e
  · rename_i h' notes added ha
    rw [ha] at hl
    split
    · rename_i id packages hj
      refine ⟨openGate h' b, hl, ?_⟩
      simp only [reply?, closeBerth, hload id packages hj, Bool.false_eq_true, if_false]
      rfl
    · exact leaves_prepare hl f _ notes

theorem leaves_compile (h : Host) (f : Flight) (notes : List Diagnostic)
    (references : List Resolved) (prior : Option Script.Continuation) (request : Request) :
    Leaves h b (compile h f b notes references prior request) := by
  simp only [compile, Host.compile]
  split
  · rename_i h' ds hc
    obtain ⟨rfl, -⟩ := Prod.mk.inj hc
    refine leaves_fail ?_ f notes _
    exact fun hl => hl
  · rename_i h' compilation hc
    obtain ⟨rfl, -⟩ := Prod.mk.inj hc
    exact ⟨h, fun hl => hl, rfl⟩

theorem leaves_takeUnit {notes : List Diagnostic} {compilation : Compilation}
    (ht : takeUnit h f now b notes compilation = some after) : Leaves h b after := by
  have hlive : h.IsLive b.id → { h with domain := h.domain.giveUp f.ticket }.IsLive b.id :=
    fun hl => hl
  cases takeUnit_cases ht with
  | aborted | refused => exact leaves_fail hlive f notes _
  | started => exact ⟨h, fun hl => hl, rfl⟩

theorem live_settle (run : UnitRun) (request : Request) (hl : h.IsLive b.id) :
    (settle h now b run request).1.IsLive b.id := by
  simp only [settle]
  split
  · rename_i completion _
    simp only [keep]
    split
    · split
      · rename_i store hu
        rw [SessionStore.updateState_eq] at hu
        obtain ⟨r, hr, rfl⟩ := Computation.except_map_eq_ok_iff.1 hu
        obtain ⟨c, -, hafter⟩ := Registry.contents?_of_updateState hr
        apply Host.isLive_iff.2
        show r.contents? b.id ≠ none
        rw [hafter]
        exact Option.some_ne_none _
      · exact hl
    · exact Host.isLive_of_view (Host.view_touch _ b.id b.id).symm hl
  · exact hl

theorem leaves_land (f : Flight) (notes warnings : List Diagnostic) (run : UnitRun)
    (request : Request) : Leaves h b (land h f now b notes warnings run request) := by
  rw [land_eq]
  exact ⟨openGate (settle h now b run request).1 b, live_settle run request, rfl⟩

theorem leaves_passGate (hp : passGate h f now b = some after) : Leaves h b after := by
  have hlive : h.IsLive b.id → Host.IsLive b.id
      { h with store := h.store.changeGate b.id (·.enter f.ticket) } := fun hl => hl
  cases passGate_cases hp with
  | aborted =>
      exact ⟨{ h with store := h.store.changeGate b.id (·.leave f.ticket) }, fun hl => hl, rfl⟩
  | blocked => exact leaves_fail hlive f [] _
  | entered => exact ⟨h, fun hl => hl, rfl⟩

theorem leaves_of_advance (hb : f.berth? = some b)
    (hload : ∀ id packages, f.job = .load id packages → b.ephemeral = false)
    (ha : f.advance h now = some after) : Leaves h b after := by
  rw [berth?] at hb
  cases advance_cases ha with
  | start hp hs =>
      rw [hp] at hb
      cases hb
  | passGate hp hpass =>
      rw [hp] at hb
      cases hb
      exact leaves_passGate hpass
  | resolveNext hp =>
      rw [hp] at hb
      cases hb
      rw [resolveNext]
      split
      · exact ⟨h, fun hl => hl, rfl⟩
      · exact ⟨h, fun hl => hl, rfl⟩
  | @attachAll _ found failures hp =>
      rw [hp] at hb
      cases hb
      exact leaves_attachAll hload found failures
  | @compile _ notes references prior request hp =>
      rw [hp] at hb
      cases hb
      exact leaves_compile h f notes references prior request
  | takeUnit hp ht =>
      rw [hp] at hb
      cases hb
      exact leaves_takeUnit ht
  | @land _ notes warnings run request hp =>
      rw [hp] at hb
      cases hb
      exact leaves_land f notes warnings run request

end Flight

end ScriptHost
