import ScriptHost.Proofs.Supervision.Playing
import ScriptHost.Supervision.Domain

/-!
# What supervision leaves of a run

Left alone, code writes the texts of all its actions, and ends as it does whenever it starts. Under
limits it either comes to that end, having written all of them, or is stopped, having written some
of the first. What is captured of a start of the texts is a start of what is captured of all of
them, also when the marker for output beyond the limit is in it.
-/

namespace ScriptHost

/-- The text that an action writes. -/
def Action.text? : Action → Option String
  | write text => some text
  | yield | wait _ | block _ => none

/-- The texts that an activity writes when it is left alone. -/
def Activity.texts (a : Activity) : List String := a.actions.filterMap Action.text?

/-- The run was stopped, and did not come to an end of its own. -/
def RunOutcome.isStop : RunOutcome → Bool
  | completed _ | faulted _ => false
  | timedOut _ | cancelled | memoryExceeded _ _ => true

/-- The value that a run gives. -/
def RunOutcome.value? : RunOutcome → Option Value
  | completed completion => completion.value
  | _ => none

namespace Played

variable {p : Played} {pauses : List Pause} {now ms : Nat} {text : String}

@[simp] theorem written_after : (p.after pauses).written = p.written := rfl

@[simp] theorem writtenBy_after : (p.after pauses).writtenBy ms = p.writtenBy ms := rfl

theorem writtenBy_behind :
    (p.behind now text).writtenBy ms =
      if now ≤ ms then text :: p.writtenBy ms else p.writtenBy ms := by
  simp only [behind, writtenBy, List.filter_cons, decide_eq_true_eq]
  split
  · rfl
  · rfl

end Played

/-! ## Texts and endings -/

section Play

variable {ending : Ending} {stopAt : Option Nat}

theorem written_playEnding (stopAt : Option Nat) (now : Nat) (ending : Ending) :
    (playEnding stopAt now ending).written = [] := by
  unfold playEnding
  split
  · split
    · rfl
    · rfl
  · rfl

/-- Left alone, actions write all their texts. -/
theorem texts_play (ending : Ending) (start : Nat) (actions : List Action) :
    (play none ending start actions).written.map (·.2) = actions.filterMap Action.text? := by
  induction actions generalizing start with
  | nil =>
      rw [play, written_playEnding]
      rfl
  | cons action rest ih =>
      cases action with
      | write text => exact congrArg (text :: ·) (ih start)
      | yield => exact ih start
      | wait ms => exact ih (start + waitOf ms)
      | block ms => exact ih (start + ms)

/-- Left alone, actions end as they do by themselves. -/
theorem ending_play (ending : Ending) (start : Nat) (actions : List Action) :
    (play none ending start actions).ending = ending := by
  induction actions generalizing start with
  | nil =>
      unfold play playEnding
      split
      · rfl
      · rfl
  | cons action rest ih =>
      cases action with
      | write text => exact ih start
      | yield => exact ih start
      | wait ms => exact ih (start + waitOf ms)
      | block ms => exact ih (start + ms)

/-- Nothing is written before the start. -/
theorem le_of_mem_written {start : Nat} {actions : List Action} {x : Nat × String}
    (hx : x ∈ (play stopAt ending start actions).written) : start ≤ x.1 := by
  induction actions generalizing start with
  | nil =>
      rw [play, written_playEnding] at hx
      exact absurd hx List.not_mem_nil
  | cons action rest ih =>
      cases action with
      | write text =>
          rcases List.mem_cons.1 hx with rfl | hx
          · exact Nat.le_refl start
          · exact ih hx
      | yield =>
          unfold play at hx
          dsimp only at hx
          split at hx
          · exact absurd hx List.not_mem_nil
          · exact ih hx
      | wait ms =>
          unfold play at hx
          dsimp only at hx
          split at hx
          · exact absurd hx List.not_mem_nil
          · exact Nat.le_trans (Nat.le_add_right _ _) (ih hx)
      | block ms => exact Nat.le_trans (Nat.le_add_right _ _) (ih hx)

theorem writtenBy_of_lt {start ms : Nat} (hms : ms < start) (actions : List Action) :
    (play stopAt ending start actions).writtenBy ms = [] := by
  rw [Played.writtenBy, List.map_eq_nil_iff, List.filter_eq_nil_iff]
  intro x hx
  have hstart := le_of_mem_written hx
  simp
  omega

/-- Whenever the request to stop comes, what is written by a millisecond is a start of the texts that
are written when it does not. -/
theorem writtenBy_play_isPrefix (stopAt : Option Nat) (ending : Ending) (start ms : Nat)
    (actions : List Action) :
    (play stopAt ending start actions).writtenBy ms <+: actions.filterMap Action.text? := by
  induction actions generalizing start with
  | nil =>
      rw [play, Played.writtenBy, written_playEnding]
      exact List.nil_prefix
  | cons action rest ih =>
      cases action with
      | write text =>
          rw [play, Played.writtenBy_behind]
          split
          · exact List.cons_prefix_cons.2 ⟨rfl, ih start⟩
          · rename_i hms
            rw [writtenBy_of_lt (Nat.lt_of_not_le hms)]
            exact List.nil_prefix
      | yield =>
          unfold play
          dsimp only
          split
          · exact List.nil_prefix
          · exact ih start
      | wait ms' =>
          unfold play
          dsimp only
          split
          · exact List.nil_prefix
          · exact ih _
      | block ms' => exact ih _

/-- Left alone, actions come to their end, unless that is to wait for a request to stop. -/
theorem isSome_finish_play (ending : Ending) (start : Nat) (actions : List Action) :
    (play none ending start actions).finish.isSome = !(ending == .waiting) := by
  induction actions generalizing start with
  | nil =>
      cases ending with
      | completed | faulted | waiting | broken => rfl
  | cons action rest ih =>
      cases action with
      | write text => exact ih start
      | yield => exact ih start
      | wait ms => exact ih (start + waitOf ms)
      | block ms => exact ih (start + ms)

/-- An activity that is left alone does not end before it starts. -/
theorem le_of_finish {start finish : Nat} {actions : List Action}
    (hf : (play none ending start actions).finish = some finish) : start ≤ finish := by
  induction actions generalizing start with
  | nil =>
      unfold play playEnding at hf
      split at hf
      · cases hf
      · exact Nat.le_of_eq (Option.some.inj hf)
  | cons action rest ih =>
      cases action with
      | write text => exact ih hf
      | yield => exact ih hf
      | wait ms => exact Nat.le_trans (Nat.le_add_right _ _) (ih hf)
      | block ms => exact Nat.le_trans (Nat.le_add_right _ _) (ih hf)

end Play

/-! ## Runs under limits -/

/-- The first reason to stop a run is one of its reasons. -/
theorem mem_stops_of_firstStop {limits : Limits} {start : Nat} {s : Stop}
    (h : limits.firstStop start = some s) : s ∈ limits.stops start := by
  have hfold : ∀ (rest : List Stop) (a : Stop), rest.foldl Stop.earlier a ∈ a :: rest := by
    intro rest
    induction rest with
    | nil => exact fun a => List.mem_singleton_self a
    | cons b rest ih =>
        intro a
        have hmem := ih (a.earlier b)
        rw [List.foldl_cons]
        rcases List.mem_cons.1 hmem with heq | hlater
        · rw [heq, Stop.earlier]
          split
          · exact List.mem_cons_of_mem _ List.mem_cons_self
          · exact List.mem_cons_self
        · exact List.mem_cons_of_mem _ (List.mem_cons_of_mem _ hlater)
  rw [Limits.firstStop] at h
  split at h
  · cases h
  · rename_i a rest hstops
    cases h
    rw [hstops]
    exact hfold rest a

theorem isStop_of_mem_stops {limits : Limits} {start : Nat} {s : Stop}
    (h : s ∈ limits.stops start) : s.outcome.isStop = true := by
  simp only [Limits.stops, List.mem_append, Option.mem_toList, Option.map_eq_some_iff] at h
  rcases h with (⟨_, -, rfl⟩ | ⟨_, -, rfl⟩) | ⟨_, -, rfl⟩
  · rfl
  · rfl
  · rfl

theorem isStop_ofEnding (ending : Ending) : (RunOutcome.ofEnding ending).isStop = false := by
  cases ending with
  | completed | faulted | waiting | broken => rfl

/-- How an activity can go under limits: to its own end, or up to one of the reasons to stop it that
come before it has ended by itself. -/
inductive Activity.Goes (a : Activity) (limits : Limits) (start : Nat) : Ran → Prop
  | through {ran : Ran} (houtcome : ran.outcome = .ofEnding a.ending)
      (hwritten : ran.written = a.texts) (hfinish : ran.finish = (a.play none start).finish) :
      Goes a limits start ran
  | stopped {ran : Ran} {s : Stop} (hs : s ∈ limits.stops start) (houtcome : ran.outcome = s.outcome)
      (hwritten : ran.written <+: a.texts)
      (hfinish : ∀ finish, (a.play none start).finish = some finish → s.ms ≤ finish) :
      Goes a limits start ran

theorem Activity.goes_alone (a : Activity) (limits : Limits) (start : Nat) :
    a.Goes limits start (.ofPlayed (a.play none start)) := by
  refine .through ?_ (texts_play a.ending start a.actions) rfl
  exact congrArg RunOutcome.ofEnding (ending_play a.ending start a.actions)

theorem Activity.goes_run (a : Activity) (limits : Limits) (start : Nat) :
    a.Goes limits start (a.run limits start) := by
  rw [Activity.run]
  split
  · exact a.goes_alone limits start
  · rename_i s hfirst
    have hs := mem_stops_of_firstStop hfirst
    split
    · rename_i hms
      exact .stopped hs rfl List.nil_prefix fun finish hf => Nat.le_trans hms (le_of_finish hf)
    · split
      · exact a.goes_alone limits start
      · rename_i hlate
        refine .stopped hs rfl (writtenBy_play_isPrefix (some s.ms) a.ending start _ a.actions) ?_
        intro finish hf
        rw [hf, Option.any_some] at hlate
        simp [Stop.isLate] at hlate
        exact hlate.1

/-- A run that completes has come to the end of its code. -/
theorem Activity.ending_of_completed {a : Activity} {limits : Limits} {start : Nat}
    {completion : Completion} (h : (a.run limits start).outcome = .completed completion) :
    a.ending = .completed completion := by
  cases a.goes_run limits start with
  | through houtcome =>
      rw [h] at houtcome
      cases hending : a.ending with
      | completed left =>
          rw [hending] at houtcome
          exact congrArg Ending.completed (RunOutcome.completed.inj houtcome.symm)
      | faulted | waiting | broken =>
          rw [hending] at houtcome
          cases houtcome
  | stopped hs houtcome =>
      have hstop := isStop_of_mem_stops hs
      rw [← houtcome, h] at hstop
      cases hstop

/-! ## Captured output -/

namespace Output

/-- What is captured is only ever added to. -/
theorem text_write (o : Output) (text : String) : ∃ rest, (o.write text).text = o.text ++ rest := by
  rw [write]
  split
  · exact ⟨"", (String.append_empty).symm⟩
  · dsimp only
    split
    · exact ⟨text, rfl⟩
    · exact ⟨_, String.append_assoc⟩

theorem text_writeAll (o : Output) (texts : List String) :
    ∃ rest, (o.writeAll texts).text = o.text ++ rest := by
  induction texts generalizing o with
  | nil => exact ⟨"", (String.append_empty).symm⟩
  | cons text texts ih =>
      obtain ⟨first, hfirst⟩ := o.text_write text
      obtain ⟨rest, hrest⟩ := ih (o.write text)
      refine ⟨first ++ rest, ?_⟩
      rw [← String.append_assoc, ← hfirst]
      exact hrest

/-- What is captured of a start of some texts is a start of what is captured of all of them. -/
theorem text_writeAll_of_isPrefix {texts more : List String} (h : texts <+: more) (o : Output) :
    ∃ rest, (o.writeAll more).text = (o.writeAll texts).text ++ rest := by
  obtain ⟨later, rfl⟩ := h
  rw [writeAll, List.foldl_append]
  exact text_writeAll _ later

end Output

/-! ## Units -/

/-- A unit that is ready to run an activity, with nothing captured yet. -/
def LoadedUnit.ready (generation : Nat) (code : Activity) (outputLimit : Nat) : LoadedUnit :=
  ⟨generation, some code, .empty outputLimit, none⟩

/-- A run of code, beside the same code left alone: it has come to the end that the code comes to
alone, if it comes to one, with the same output, or was stopped with a start of the output. -/
structure UnitRun.Curtails (run alone : UnitRun) : Prop where
  through : run.outcome.isStop = false →
    run.outcome = alone.outcome ∧ run.loaded.output = alone.loaded.output ∧
      run.finish.isSome = alone.finish.isSome
  stopped : run.outcome.isStop = true →
    ∃ rest, alone.loaded.output.text = run.loaded.output.text ++ rest

/-- A unit runs its code, and whatever the limits are, that is what the code does when it is left
alone, or the first part of it. -/
theorem LoadedUnit.run_curtails (generation : Nat) (code : Activity) (outputLimit : Nat)
    (limits : Limits) (start other : Nat) :
    ∃ run alone, (ready generation code outputLimit).run limits start = .ok run ∧
      (ready generation code outputLimit).run .none other = .ok alone ∧
      alone.outcome = .ofEnding code.ending ∧ run.Curtails alone := by
  have hending : (code.play none other).ending = code.ending :=
    ending_play code.ending other code.actions
  have htexts : (code.play none other).written.map (·.2) = code.texts :=
    texts_play code.ending other code.actions
  have hgoes := code.goes_run limits start
  refine ⟨_, _, rfl, rfl, congrArg RunOutcome.ofEnding hending, ?_, ?_⟩
  · show (code.run limits start).outcome.isStop = false →
      (code.run limits start).outcome = .ofEnding (code.play none other).ending ∧
        (Output.empty outputLimit).writeAll (code.run limits start).written =
          (Output.empty outputLimit).writeAll ((code.play none other).written.map (·.2)) ∧
        (code.run limits start).finish.isSome = (code.play none other).finish.isSome
    intro hown
    rw [hending, htexts]
    cases hgoes with
    | through houtcome hwritten hfinish =>
        refine ⟨houtcome, by rw [hwritten], ?_⟩
        rw [hfinish]
        exact (isSome_finish_play code.ending start code.actions).trans
          (isSome_finish_play code.ending other code.actions).symm
    | stopped hs houtcome =>
        rw [houtcome, isStop_of_mem_stops hs] at hown
        cases hown
  · show (code.run limits start).outcome.isStop = true → ∃ rest,
      ((Output.empty outputLimit).writeAll ((code.play none other).written.map (·.2))).text =
        ((Output.empty outputLimit).writeAll (code.run limits start).written).text ++ rest
    intro hstop
    rw [htexts]
    cases hgoes with
    | through houtcome =>
        rw [houtcome, isStop_ofEnding] at hstop
        cases hstop
    | stopped hs houtcome hwritten => exact Output.text_writeAll_of_isPrefix hwritten _

end ScriptHost
