import ScriptHost.Proofs.Host.Units
import ScriptHost.Proofs.Supervision.Queueing

/-!
# Requests as users of gates and slots

How a request stands towards the gates of sessions and the slots of the domain can be read off its
phase. A step of a request is a move of a user, or a few of them: it takes a permit only where one
is free, gives back what it took, and is in a queue as long as it stands there. This holds on every
way out, after an abort and after a failure as well as after a run.
-/

namespace ScriptHost

open Semaphore (Stand)

/-- How a request stands towards the gate of each session, and towards the slots of the domain. -/
@[ext] structure Standing where
  gate : String → Stand
  slot : Stand

/-- The request has joined no queue and has no permit. -/
def Standing.away : Standing := ⟨fun _ => .away, .away⟩

/-- How a request in a session stands that has to do with no other gate. -/
def Berth.standing (b : Berth) (gate slot : Stand) : Standing :=
  ⟨fun id => if b.id = id then gate else .away, slot⟩

theorem Berth.standing_away (b : Berth) : b.standing .away .away = .away := by
  ext id
  · exact ite_self _
  · rfl

/-- One who waits at a gate or has passed it is in the session of the gate. -/
theorem Berth.of_gate_standing {b : Berth} {gate slot x : Stand} {id : String}
    (h : (b.standing gate slot).gate id = x) (hx : x ≠ .away) : b.id = id ∧ gate = x := by
  simp only [standing] at h
  split at h
  · exact ⟨‹_›, h⟩
  · exact absurd h.symm hx

def Flight.standing (f : Flight) : Standing :=
  match f.phase with
  | .opening | .done _ => .away
  | .atGate b => b.standing .waiting .away
  | .resolving b _ _ _ | .compiling b _ _ _ => b.standing .holding .away
  | .queued b _ _ => b.standing .holding .waiting
  | .running b _ _ _ => b.standing .holding .holding

namespace Flight

variable {f : Flight} {id : String}

theorem phase_of_gate_waiting (h : f.standing.gate id = .waiting) :
    ∃ b : Berth, f.phase = .atGate b ∧ b.id = id := by
  rw [standing] at h
  cases hp : f.phase with
  | opening | done =>
      rw [hp] at h
      cases h
  | atGate b =>
      rw [hp] at h
      exact ⟨b, rfl, (Berth.of_gate_standing h (by decide)).1⟩
  | resolving | compiling | queued | running =>
      rw [hp] at h
      cases (Berth.of_gate_standing h (by decide)).2

theorem phase_of_slot_waiting (h : f.standing.slot = .waiting) :
    ∃ b notes compilation, f.phase = .queued b notes compilation := by
  rw [standing] at h
  cases hp : f.phase with
  | opening | done => simp [hp, Standing.away] at h
  | atGate | resolving | compiling | running => simp [hp, Berth.standing] at h
  | queued b notes compilation => exact ⟨b, notes, compilation, rfl⟩

/-- One who has passed a gate has no reply and does not wait at a gate. -/
theorem under_way_of_gate_holding (h : f.standing.gate id = .holding) :
    f.reply? = none ∧ f.isAtGate = false := by
  rw [standing] at h
  rw [reply?, isAtGate]
  cases hp : f.phase with
  | opening | done =>
      rw [hp] at h
      cases h
  | atGate =>
      rw [hp] at h
      cases (Berth.of_gate_standing h (by decide)).2
  | resolving | compiling | queued | running => exact ⟨rfl, rfl⟩

/-- One who has a slot has no reply and waits in no queue. -/
theorem under_way_of_slot_holding (h : f.standing.slot = .holding) :
    f.reply? = none ∧ f.isAtGate = false ∧ f.isQueued = false := by
  rw [standing] at h
  rw [reply?, isAtGate, isQueued]
  cases hp : f.phase with
  | opening | done => simp [hp, Standing.away] at h
  | atGate | resolving | compiling | queued => simp [hp, Berth.standing] at h
  | running => exact ⟨rfl, rfl, rfl⟩

end Flight

/-- The user with a ticket makes moves at the gates and at the slots of a host. -/
structure Host.Moves (t : Ticket) (h : Host) (x : Standing) (h' : Host) (y : Standing) : Prop where
  gates : ∀ id, Semaphore.Moves t (h.store.gate id) (x.gate id) (h'.store.gate id) (y.gate id)
  slots : Semaphore.Moves t h.domain.slots x.slot h'.domain.slots y.slot

namespace Host.Moves

variable {t : Ticket} {h h' h'' : Host} {x y z : Standing} {b : Berth}

theorem trans (first : Moves t h x h' y) (second : Moves t h' y h'' z) : Moves t h x h'' z :=
  ⟨fun id => (first.gates id).trans (second.gates id), first.slots.trans second.slots⟩

/-- Nothing moves where neither the gates nor the slots change. -/
theorem stay (x : Standing) (hgates : ∀ id, h'.store.gate id = h.store.gate id)
    (hslots : h'.domain.slots = h.domain.slots) : Moves t h x h' x := by
  refine ⟨fun id => ?_, ?_⟩
  · rw [hgates id]
    exact .stay _ _
  · rw [hslots]
    exact .stay _ _

theorem of_writes {id : String} (x : Standing) (hw : h.Writes id h') : Moves t h x h' x :=
  stay x hw.gate (congrArg Domain.slots hw.domain)

theorem of_changeGate {gate gate' : Stand} {change : Semaphore → Semaphore}
    (hm : Semaphore.Moves t (h.store.gate b.id) gate (change (h.store.gate b.id)) gate')
    (slot : Stand) :
    Moves t h (b.standing gate slot) { h with store := h.store.changeGate b.id change }
      (b.standing gate' slot) := by
  refine ⟨fun id => ?_, .stay _ _⟩
  show Semaphore.Moves t _ (if b.id = id then gate else .away)
    ((h.store.changeGate b.id change).gate id) (if b.id = id then gate' else .away)
  rw [SessionStore.gate_changeGate]
  by_cases hid : b.id = id
  · subst hid
    rw [if_pos rfl, if_pos rfl, if_pos rfl]
    exact hm
  · rw [if_neg hid, if_neg hid, if_neg (Ne.symm hid)]
    exact .stay _ _

theorem of_domain {slot slot' : Stand} {d : Domain} (gate : Stand)
    (hm : Semaphore.Moves t h.domain.slots slot d.slots slot') :
    Moves t h (b.standing gate slot) { h with domain := d } (b.standing gate slot') :=
  ⟨fun _ => .stay _ _, hm⟩

end Host.Moves

namespace Flight

variable {h : Host} {f : Flight} {after : Host × Flight} {b : Berth} {now : Nat}
  {notes : List Diagnostic} {t : Ticket}

/-- A request that leaves its session opens the gate. -/
theorem moves_leave (t : Ticket) (h : Host) (b : Berth) :
    h.Moves t (b.standing .holding .away) (closeBerth (openGate h b) b) .away := by
  have hopen : h.Moves t (b.standing .holding .away) (openGate h b) (b.standing .away .away) :=
    .of_changeGate (.release _) .away
  rw [Berth.standing_away] at hopen
  exact hopen.trans (.of_writes _ (writes_closeBerth _ b))

theorem moves_fail (h : Host) (f : Flight) (b : Berth) (notes : List Diagnostic)
    (failure : Failure) :
    h.Moves f.ticket (b.standing .holding .away) (fail h f b notes failure).1
      (fail h f b notes failure).2.standing :=
  moves_leave f.ticket h b

theorem moves_joinGate (h : Host) (f : Flight) (b : Berth) :
    h.Moves f.ticket .away (joinGate h f b).1 (joinGate h f b).2.standing := by
  rw [← b.standing_away]
  exact .of_changeGate (.join _) .away

theorem moves_start (hs : f.start h = some after) :
    h.Moves f.ticket .away after.1 after.2.standing := by
  rcases start_cases hs with ⟨id, -, -, rfl⟩ | ⟨id, -, -, rfl⟩ | ⟨store, id, e, -, hc, rfl⟩
  · exact moves_joinGate h f _
  · exact .stay .away (fun _ => rfl) rfl
  · obtain ⟨n, now, -, -, -, rfl⟩ := SessionStore.createWithin_eq_some hc
    refine Host.Moves.trans ?_ (moves_joinGate _ f _)
    exact .stay .away (fun _ => rfl) rfl

theorem moves_passGate (hp : passGate h f now b = some after) :
    h.Moves f.ticket (b.standing .waiting .away) after.1 after.2.standing := by
  cases passGate_cases hp with
  | aborted =>
      have hleave : h.Moves f.ticket (b.standing .waiting .away)
          { h with store := h.store.changeGate b.id (·.leave f.ticket) } (b.standing .away .away) :=
        .of_changeGate (.leave _) .away
      rw [Berth.standing_away] at hleave
      exact hleave.trans (.of_writes _ (writes_closeBerth _ b))
  | blocked _ hmay =>
      exact (Host.Moves.of_changeGate (.enter (Semaphore.free_pos_of_mayEnter hmay)) .away).trans
        (moves_fail _ f b [] _)
  | entered _ hmay => exact .of_changeGate (.enter (Semaphore.free_pos_of_mayEnter hmay)) .away

theorem moves_resolveNext (h : Host) (f : Flight) (b : Berth) (r : Reference)
    (pending : List Reference) (found : List Resolved) (failures : List Diagnostic) :
    h.Moves f.ticket (b.standing .holding .away) (resolveNext h f b r pending found failures).1
      (resolveNext h f b r pending found failures).2.standing := by
  rw [resolveNext]
  split
  · exact .stay _ (fun _ => rfl) rfl
  · exact .stay _ (fun _ => rfl) rfl

theorem moves_prepare (h : Host) (f : Flight) (b : Berth) (request : Request)
    (notes : List Diagnostic) :
    h.Moves f.ticket (b.standing .holding .away) (prepare h f b request notes).1
      (prepare h f b request notes).2.standing := by
  rw [prepare]
  split
  · exact moves_fail h f b notes _
  · split
    · exact moves_fail h f b notes _
    · rename_i h' references prior hc
      exact .of_writes _ (Host.writes_of_context hc)

theorem moves_attachAll (h : Host) (f : Flight) (b : Berth) (found : List Resolved)
    (failures : List Diagnostic) :
    h.Moves f.ticket (b.standing .holding .away) (attachAll h f b found failures).1
      (attachAll h f b found failures).2.standing := by
  have hattach : h.Moves f.ticket (b.standing .holding .away) (attach h f.job b found failures).1
      (b.standing .holding .away) := .of_writes _ (writes_attach h f.job b found failures)
  rw [attachAll]
  split
  · rename_i h' notes e ha
    rw [ha] at hattach
    exact hattach.trans (moves_fail h' f b notes e)
  · rename_i h' notes added ha
    rw [ha] at hattach
    split
    · have hopen : h'.Moves f.ticket (b.standing .holding .away) (openGate h' b)
          (b.standing .away .away) := .of_changeGate (.release _) .away
      rw [Berth.standing_away] at hopen
      exact hattach.trans hopen
    · rename_i request _
      exact hattach.trans (moves_prepare h' f b request notes)

theorem moves_compile (h : Host) (f : Flight) (b : Berth) (notes : List Diagnostic)
    (references : List Resolved) (prior : Option Script.Continuation) (request : Request) :
    h.Moves f.ticket (b.standing .holding .away)
      (compile h f b notes references prior request).1
      (compile h f b notes references prior request).2.standing := by
  have hcounted : h.Moves f.ticket (b.standing .holding .away)
      { h with compilations := h.compilations + 1 } (b.standing .holding .away) :=
    .stay _ (fun _ => rfl) rfl
  simp only [compile, Host.compile]
  split
  · rename_i h' ds hc
    obtain ⟨rfl, -⟩ := Prod.mk.inj hc
    exact hcounted.trans (moves_fail _ f b notes _)
  · rename_i h' compilation hc
    obtain ⟨rfl, -⟩ := Prod.mk.inj hc
    exact hcounted.trans (.of_domain .holding (.join _))

theorem moves_takeUnit {compilation : Compilation}
    (ht : takeUnit h f now b notes compilation = some after) :
    h.Moves f.ticket (b.standing .holding .waiting) after.1 after.2.standing := by
  have hleft : h.Moves f.ticket (b.standing .holding .waiting)
      { h with domain := h.domain.giveUp f.ticket } (b.standing .holding .away) :=
    .of_domain .holding (.leave _)
  cases takeUnit_cases ht with
  | aborted | refused => exact hleft.trans (moves_fail _ f b notes _)
  | started hload =>
      obtain ⟨-, hfree, rfl, -⟩ := Domain.Usage.load_eq_granted hload
      exact .of_domain .holding (.enter hfree)

theorem moves_land (h : Host) (f : Flight) (now : Nat) (b : Berth)
    (notes warnings : List Diagnostic) (run : UnitRun) (request : Request) :
    h.Moves f.ticket (b.standing .holding .holding) (land h f now b notes warnings run request).1
      (land h f now b notes warnings run request).2.standing := by
  have hreleased : h.Moves f.ticket (b.standing .holding .holding)
      { h with domain := (h.domain.release run.loaded now).1 } (b.standing .holding .away) :=
    .of_domain .holding (.release _)
  have hsettled : h.Moves f.ticket (b.standing .holding .holding)
      (settle h now b run request).1 (b.standing .holding .away) := by
    simp only [settle]
    split
    · exact hreleased.trans (.of_writes _ (writes_keep _ b request.persist _))
    · exact hreleased
  rw [land_eq]
  exact hsettled.trans (moves_leave f.ticket _ b)

/-- A step of a request consists of moves of a user, at the gate of its session and at the slots
of the domain. -/
theorem moves_of_advance (ha : f.advance h now = some after) :
    h.Moves f.ticket f.standing after.1 after.2.standing := by
  rw [standing]
  cases advance_cases ha with
  | start hp hs =>
      rw [hp]
      exact moves_start hs
  | passGate hp hpass =>
      rw [hp]
      exact moves_passGate hpass
  | resolveNext hp =>
      rw [hp]
      exact moves_resolveNext h f _ _ _ _ _
  | attachAll hp =>
      rw [hp]
      exact moves_attachAll h f _ _ _
  | compile hp hj =>
      rw [hp]
      exact moves_compile h f _ _ _ _ _
  | takeUnit hp ht =>
      rw [hp]
      exact moves_takeUnit ht
  | land hp hj =>
      rw [hp]
      exact moves_land h f now _ _ _ _ _

end Flight

end ScriptHost
