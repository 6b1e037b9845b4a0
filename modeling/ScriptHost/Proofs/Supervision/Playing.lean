import ScriptHost.Supervision.Run

/-!
# How activities go

Code looks at cancellation where it gives up its turn and where it waits. Whenever a request
to stop comes, a run ends in one of the ways that these places leave open. Left alone, actions
behind others go as they would by themselves, from the millisecond at which these are through.
-/

namespace ScriptHost

/-- The action looks at cancellation. -/
def Action.isStopPoint : Action → Bool
  | yield | wait _ => true
  | write _ | block _ => false

/-- The ways in which actions with an ending can come to an end. -/
inductive CanEnd (ending : Ending) : List Action → Ending → Prop
  | ended : CanEnd ending [] ending
  | woken (h : ending = .waiting) : CanEnd ending [] (.faulted .cancelled)
  | stopped {action : Action} (h : action.isStopPoint = true) (rest : List Action) :
      CanEnd ending (action :: rest) (.faulted .cancelled)
  | onward {action : Action} {rest : List Action} {e : Ending} (h : CanEnd ending rest e) :
      CanEnd ending (action :: rest) e

/-- Code that is stopped somewhere ends cancelled, and otherwise as by itself. -/
theorem CanEnd.eq_or_cancelled {ending e : Ending} {actions : List Action}
    (h : CanEnd ending actions e) : e = ending ∨ e = .faulted .cancelled := by
  induction h with
  | ended => exact Or.inl rfl
  | woken | stopped => exact Or.inr rfl
  | onward _ ih => exact ih

/-- A run ends in one of the ways that are open, whenever the request to stop comes. -/
theorem canEnd_play (a : Activity) (stopAt : Option Nat) (start : Nat) :
    CanEnd a.ending a.actions (a.play stopAt start).ending := by
  obtain ⟨actions, ending⟩ := a
  show CanEnd ending actions (play stopAt ending start actions).ending
  induction actions generalizing start with
  | nil =>
      unfold play playEnding
      split
      · split
        · exact .woken rfl
        · exact .ended
      · exact .ended
  | cons action rest ih =>
      cases action with
      | write text => exact .onward (ih start)
      | yield =>
          unfold play
          dsimp only [Played.after]
          split
          · exact .stopped rfl rest
          · exact .onward (ih start)
      | wait ms =>
          unfold play
          dsimp only
          split
          · exact .stopped rfl rest
          · exact .onward (ih _)
      | block ms => exact .onward (ih _)

/-- One run and, behind it, another. -/
def Played.append (p q : Played) : Played :=
  ⟨p.written ++ q.written, p.pauses ++ q.pauses, q.finish, q.ending⟩

theorem Played.append_behind (p q : Played) (now : Nat) (text : String) :
    (p.behind now text).append q = (p.append q).behind now text := rfl

theorem Played.append_after (p q : Played) (pauses : List Pause) :
    (p.after pauses).append q = (p.append q).after pauses := by
  unfold Played.append Played.after
  rw [List.append_assoc]

/-- Left alone, an activity behind the actions of one that completes goes on where these are
through. -/
theorem play_behind (a : Activity) (completion : Completion) (first : List Action) (start : Nat) :
    ∃ mid, (play none (.completed completion) start first).finish = some mid ∧
      (a.behind first).play none start =
        (play none (.completed completion) start first).append (a.play none mid) := by
  show ∃ mid, _ ∧ play none a.ending start (first ++ a.actions) = _
  induction first generalizing start with
  | nil => exact ⟨start, rfl, rfl⟩
  | cons action rest ih =>
      cases action with
      | write text =>
          obtain ⟨mid, hmid, hplay⟩ := ih start
          refine ⟨mid, hmid, ?_⟩
          rw [List.cons_append, play, play, hplay, Played.append_behind]
      | yield =>
          obtain ⟨mid, hmid, hplay⟩ := ih start
          refine ⟨mid, hmid, ?_⟩
          show (play none a.ending start (rest ++ a.actions)).after _ =
            ((play none (.completed completion) start rest).after _).append _
          rw [hplay, Played.append_after]
      | wait ms =>
          obtain ⟨mid, hmid, hplay⟩ := ih (start + waitOf ms)
          refine ⟨mid, hmid, ?_⟩
          show (play none a.ending (start + waitOf ms) (rest ++ a.actions)).after _ =
            ((play none (.completed completion) (start + waitOf ms) rest).after _).append _
          rw [hplay, Played.append_after]
      | block ms =>
          obtain ⟨mid, hmid, hplay⟩ := ih (start + ms)
          refine ⟨mid, hmid, ?_⟩
          rw [List.cons_append, play, play, hplay, Played.append_after]

end ScriptHost
