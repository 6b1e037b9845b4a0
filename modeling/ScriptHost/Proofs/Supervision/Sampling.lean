import ScriptHost.Proofs.Supervision.Agendas

/-!
# A regular task between the others

One task comes again and again, at regular intervals. It has few turns before another task has one:
an idle agenda skips to where its next turn but one is no earlier than the next turn of another.
-/

namespace ScriptHost.Agenda

variable {α : Type} {regular : α → Bool} {a a' : Agenda α} {task again : α} {period : Nat}

/-- The tasks that have a turn before the next timer goes off. -/
def soon (a : Agenda α) : List α := a.ready ++ a.deferred

/-- The timers of regular tasks go off before all others. -/
def Leads (regular : α → Bool) (a : Agenda α) : Prop :=
  ∀ timer ∈ a.timers, regular timer.task = true →
    ∀ other ∈ a.timers, regular other.task = false → timer.ms < other.ms

instance (regular : α → Bool) (a : Agenda α) : Decidable (Leads regular a) :=
  inferInstanceAs (Decidable (∀ timer ∈ a.timers, _ → ∀ other ∈ a.timers, _ → _))

/-- The most turns that the regular task has before another one, when there is another. -/
def rushes (regular : α → Bool) (a : Agenda α) : Nat :=
  if a.soon.any regular then if a.soon.all regular then 3 else 1
  else if a.soon = [] then if Leads regular a then 2 else 1
  else 0

theorem isIdle_iff : a.isIdle = true ↔ a.soon = [] := by
  rw [isIdle, Bool.and_eq_true, List.isEmpty_iff, List.isEmpty_iff, soon, List.append_eq_nil_iff]

theorem rushes_le (regular : α → Bool) (a : Agenda α) : rushes regular a ≤ 3 := by
  rw [rushes]
  split
  · split <;> omega
  · split
    · split <;> omega
    · omega

theorem rushes_of_idle (h : a.soon = []) : rushes regular a = if Leads regular a then 2 else 1 := by
  rw [rushes, h, if_pos rfl]
  rfl

theorem rushes_of_none (hne : a.soon ≠ []) (h : ∀ task ∈ a.soon, regular task = false) :
    rushes regular a = 0 := by
  have hany : a.soon.any regular = false := by
    rw [List.any_eq_false]
    exact fun task htask => Bool.eq_false_iff.1 (h task htask)
  rw [rushes, hany, if_neg Bool.false_ne_true, if_neg hne]

/-- A regular task that is not alone on the agenda is the only regular one. -/
theorem not_regular_of_count {tasks : List α} (h : (task :: tasks).countP regular ≤ 1)
    (htask : regular task = true) : ∀ other ∈ tasks, regular other = false := by
  rw [List.countP_cons_of_pos htask] at h
  have hzero : tasks.countP regular = 0 := by omega
  exact fun other hother => Bool.eq_false_iff.2 (List.countP_eq_zero.1 hzero other hother)

/-! ## A turn before time moves on -/

/-- While tasks are ready or come back, one of them has its turn, and the timers stay. -/
theorem soon_next? (h : a.soon ≠ []) (hn : a.next? = some (task, a')) :
    a.soon.Perm (task :: a'.soon) ∧ a'.timers = a.timers ∧ a'.now = a.now := by
  have hbusy : (a.ready.isEmpty && a.deferred.isEmpty) = false := by
    rw [Bool.eq_false_iff]
    exact fun hidle => h (isIdle_iff.1 hidle)
  have hrefill : a.refill.soon = a.soon ∧ a.refill.timers = a.timers ∧ a.refill.now = a.now := by
    rw [refill, hbusy, if_neg Bool.false_ne_true]
    split
    · exact ⟨List.append_nil _, rfl, rfl⟩
    · exact ⟨rfl, rfl, rfl⟩
  simp only [next?] at hn
  split at hn
  · cases hn
  · rename_i first rest hready
    cases hn
    refine ⟨?_, hrefill.2⟩
    rw [← hrefill.1, soon, hready]
    exact .refl _

theorem rushes_of_busy (hcount : a.tasks.countP regular ≤ 1) (hbusy : a.soon ≠ [])
    (hn : a.next? = some (task, a')) (htask : regular task = true) (ms : Nat) (again : α) :
    rushes regular (a'.setTimer ms again) < rushes regular a := by
  obtain ⟨hsoon, -, -⟩ := soon_next? hbusy hn
  have hother : ∀ other ∈ a'.soon, regular other = false := by
    apply not_regular_of_count ?_ htask
    rw [← hsoon.countP_eq]
    rw [tasks, List.countP_append] at hcount
    exact Nat.le_trans (Nat.le_add_right _ _) hcount
  have hany : a.soon.any regular = true :=
    List.any_eq_true.2 ⟨task, hsoon.mem_iff.2 List.mem_cons_self, htask⟩
  rw [rushes.eq_def regular a, hany, if_pos rfl]
  by_cases hempty : a'.soon = []
  · have hall : a.soon.all regular = true := by
      rw [hempty] at hsoon
      rw [List.all_eq_true]
      intro x hx
      rwa [List.mem_singleton.1 (hsoon.mem_iff.1 hx)]
    rw [rushes_of_idle (a := a'.setTimer ms again) hempty, hall, if_pos rfl]
    split <;> omega
  · rw [rushes_of_none (a := a'.setTimer ms again) hempty hother]
    split <;> omega

/-! ## A turn after time has moved on -/

/-- When all wait, the tasks whose timers go off next have their turns. -/
theorem next?_of_idle (hidle : a.soon = []) (hn : a.next? = some (task, a')) :
    ∃ ms, a.nextMs? = some ms ∧ a.dueBy ms = task :: a'.soon ∧ a'.now = max a.now ms ∧
      a'.timers = a.timers.filter (ms < ·.ms) := by
  obtain ⟨hready, hdeferred⟩ := List.append_eq_nil_iff.1 hidle
  have hboth : (a.ready.isEmpty && a.deferred.isEmpty) = true := isIdle_iff.2 hidle
  simp only [next?, refill, hboth, if_true] at hn
  cases hms : a.nextMs? with
  | none =>
      simp only [hms, Option.elim_none, hready] at hn
      cases hn
  | some ms =>
      simp only [hms, Option.elim_some, moveTo, hready, hdeferred, List.nil_append] at hn
      split at hn
      · cases hn
      · rename_i first rest hdue
        cases hn
        exact ⟨ms, rfl, by rw [hdue, soon, List.append_nil], rfl, rfl⟩

theorem le_of_nextMs? {ms : Nat} (h : a.nextMs? = some ms) :
    ∀ timer ∈ a.timers, ms ≤ timer.ms := by
  intro timer htimer
  exact (List.min?_eq_some_iff.1 h).2 _ (List.mem_map_of_mem htimer)

theorem mem_dueBy_iff {ms : Nat} :
    task ∈ a.dueBy ms ↔ ∃ timer ∈ a.timers, timer.ms ≤ ms ∧ timer.task = task := by
  simp [dueBy, and_assoc]

theorem eq_of_countP_le {β : Type} {q : β → Bool} {xs : List β} {x y : β} (h : xs.countP q ≤ 1)
    (hx : x ∈ xs) (hy : y ∈ xs) (hqx : q x = true) (hqy : q y = true) : x = y := by
  rw [List.countP_eq_length_filter] at h
  have hmem : ∀ {z}, z ∈ xs → q z = true → z ∈ xs.filter q :=
    fun hz hqz => List.mem_filter.2 ⟨hz, hqz⟩
  match hfilter : xs.filter q, h with
  | [], _ =>
      have hnone := hmem hx hqx
      rw [hfilter] at hnone
      exact absurd hnone List.not_mem_nil
  | [z], _ =>
      have hx' := hmem hx hqx
      have hy' := hmem hy hqy
      rw [hfilter, List.mem_singleton] at hx' hy'
      exact hx'.trans hy'.symm

theorem countP_timers_le (hcount : a.tasks.countP regular ≤ 1) :
    a.timers.countP (regular ·.task) ≤ 1 := by
  rw [tasks, List.countP_append, List.countP_map] at hcount
  exact Nat.le_trans (Nat.le_add_left _ _) hcount

/-- When the regular task has its turn, the tasks that go off along with it are the others. -/
theorem not_regular_of_due (hcount : a.tasks.countP regular ≤ 1) (hn : a.next? = some (task, a'))
    (htask : regular task = true) : ∀ other ∈ a'.tasks, regular other = false := by
  rw [(perm_next? hn).countP_eq] at hcount
  exact not_regular_of_count hcount htask

theorem mem_tasks_of_soon (h : task ∈ a.soon) : task ∈ a.tasks :=
  List.mem_append_left _ h

/-- A regular task that goes off along with another has no turn before it any more. -/
theorem rushes_of_tie (hcount : a.tasks.countP regular ≤ 1) (hidle : a.soon = [])
    (hlead : ¬ Leads regular a) (hn : a.next? = some (task, a')) (htask : regular task = true)
    (ms : Nat) : rushes regular (a'.setTimer ms again) < rushes regular a := by
  have hnone := not_regular_of_due hcount hn htask
  obtain ⟨due, -, hdue, -, -⟩ := next?_of_idle hidle hn
  simp only [Leads, not_forall, Nat.not_lt] at hlead
  obtain ⟨timer, htimer, hregular, other, hother, hplain, hle⟩ := hlead
  have hturn : task ∈ a.dueBy due := by
    rw [hdue]
    exact List.mem_cons_self
  obtain ⟨first, hfirst, hms, rfl⟩ := mem_dueBy_iff.1 hturn
  obtain rfl := eq_of_countP_le (countP_timers_le hcount) htimer hfirst hregular htask
  have hsoon : other.task ∈ a'.soon := by
    have hmem : other.task ∈ a.dueBy due :=
      mem_dueBy_iff.2 ⟨other, hother, Nat.le_trans hle hms, rfl⟩
    rw [hdue] at hmem
    rcases List.mem_cons.1 hmem with heq | hmem
    · rw [heq, htask] at hplain
      cases hplain
    · exact hmem
  rw [rushes_of_none (a := a'.setTimer ms again) (List.ne_nil_of_mem hsoon)
    fun x hx => hnone x (mem_tasks_of_soon hx), rushes_of_idle hidle]
  split <;> omega

/-- A regular task that goes off first is behind another one period later. -/
theorem rushes_of_lead (hcount : a.tasks.countP regular ≤ 1) (hidle : a.soon = [])
    (hlead : Leads regular a) (hnear : ∀ timer ∈ a.timers, regular timer.task = true →
      ∃ other ∈ a.timers, regular other.task = false ∧ other.ms ≤ timer.ms + period)
    (hn : a.next? = some (task, a')) (htask : regular task = true) (hagain : regular again = true) :
    rushes regular (a'.setTimer (a'.now + period) again) < rushes regular a := by
  have hnone := not_regular_of_due hcount hn htask
  obtain ⟨due, hnext, hdue, hnow, htimers⟩ := next?_of_idle hidle hn
  have hturn : task ∈ a.dueBy due := by
    rw [hdue]
    exact List.mem_cons_self
  obtain ⟨first, hfirst, hms, rfl⟩ := mem_dueBy_iff.1 hturn
  have hearly := le_of_nextMs? hnext first hfirst
  have hsoon : a'.soon = [] := by
    rw [List.eq_nil_iff_forall_not_mem]
    intro x hx
    have hmem : x ∈ a.dueBy due := by
      rw [hdue]
      exact List.mem_cons_of_mem _ hx
    obtain ⟨timer, htimer, hle, rfl⟩ := mem_dueBy_iff.1 hmem
    have hlater := hlead first hfirst htask timer htimer (hnone _ (mem_tasks_of_soon hx))
    omega
  have hbehind : ¬ Leads regular (a'.setTimer (a'.now + period) again) := by
    intro h
    obtain ⟨other, hother, hplain, hclose⟩ := hnear first hfirst htask
    have hlater := hlead first hfirst htask other hother hplain
    have hkept : other ∈ a'.timers := by
      rw [htimers]
      exact List.mem_filter.2 ⟨hother, by simpa using Nat.lt_of_le_of_lt hearly hlater⟩
    have hbefore := h ⟨a'.now + period, again⟩ (List.mem_append_right _ List.mem_cons_self) hagain
      other (List.mem_append_left _ hkept) hplain
    dsimp only at hbefore
    omega
  rw [rushes_of_idle (a := a'.setTimer (a'.now + period) again) hsoon, if_neg hbehind,
    rushes_of_idle hidle, if_pos hlead]
  omega

/-! ## Skipping -/

theorem mem_timersOf {timer : Timer α} :
    timer ∈ a.timersOf regular ↔ timer ∈ a.timers ∧ regular timer.task = true :=
  List.mem_filter

theorem mem_others {timer : Timer α} :
    timer ∈ a.timersOf (!regular ·) ↔ timer ∈ a.timers ∧ regular timer.task = false := by
  rw [timersOf, List.mem_filter, Bool.not_eq_true']

/-- Nothing is skipped when another task goes off first. -/
theorem skip_of_not_leads (hcount : a.tasks.countP regular ≤ 1) (h : ¬ Leads regular a)
    (period : Nat) : a.skip regular period = a := by
  simp only [Leads, not_forall, Nat.not_lt] at h
  obtain ⟨timer, htimer, hregular, other, hother, hplain, hle⟩ := h
  simp only [skip]
  split
  · rename_i first next hfirst hnext
    have hearly : next ≤ other.ms :=
      (List.min?_eq_some_iff.1 hnext).2 _ (List.mem_map_of_mem (mem_others.2 ⟨hother, hplain⟩))
    obtain ⟨least, hleast, rfl⟩ := List.mem_map.1 (List.min?_mem hfirst)
    obtain ⟨hmem, hreg⟩ := mem_timersOf.1 hleast
    obtain rfl := eq_of_countP_le (countP_timers_le hcount) htimer hmem hregular hreg
    have hnothing : next - timer.ms - 1 = 0 := by omega
    rw [hnothing, Nat.zero_div, if_pos rfl]
  · rfl

theorem exists_min?_of_mem {timers : List (Timer α)} {timer : Timer α} (h : timer ∈ timers) :
    ∃ ms, (timers.map (·.ms)).min? = some ms := by
  cases hmin : (timers.map (·.ms)).min? with
  | none =>
      rw [List.min?_eq_none_iff, List.map_eq_nil_iff] at hmin
      exact absurd hmin (List.ne_nil_of_mem h)
  | some ms => exact ⟨ms, rfl⟩

theorem soon_skip (a : Agenda α) (regular : α → Bool) (period : Nat) :
    (a.skip regular period).soon = a.soon := by
  simp only [skip]
  split
  · split
    · rfl
    · rfl
  · rfl

/-- Whole periods before a moment leave less than one to go. -/
theorem periods_before {first next : Nat} (hperiod : 0 < period) (h : first < next) :
    first + (next - first - 1) / period * period < next ∧
      next ≤ first + (next - first - 1) / period * period + period := by
  have hle : (next - first - 1) / period * period ≤ next - first - 1 := Nat.div_mul_le_self _ _
  have hlt : next - first - 1 < (next - first - 1) / period * period + period := by
    have := Nat.lt_div_mul_add (a := next - first - 1) hperiod
    omega
  omega

/-- What is skipped leaves the regular task first, and another one less than a period behind. -/
theorem leads_skip (hperiod : 0 < period) (hcount : a.tasks.countP regular ≤ 1)
    (hlead : Leads regular a) (hother : ∃ other ∈ a.timers, regular other.task = false) :
    Leads regular (a.skip regular period) ∧
      ∀ timer ∈ (a.skip regular period).timers, regular timer.task = true →
        ∃ other ∈ (a.skip regular period).timers,
          regular other.task = false ∧ other.ms ≤ timer.ms + period := by
  obtain ⟨other, hother, hplain⟩ := hother
  simp only [skip]
  split
  · rename_i first next hfirst hnext
    obtain ⟨least, hleast, rfl⟩ := List.mem_map.1 (List.min?_mem hfirst)
    obtain ⟨near, hnear, rfl⟩ := List.mem_map.1 (List.min?_mem hnext)
    obtain ⟨hmem, hregular⟩ := mem_timersOf.1 hleast
    obtain ⟨hmem', hplain'⟩ := mem_others.1 hnear
    have honly : ∀ timer ∈ a.timers, regular timer.task = true → timer = least :=
      fun timer htimer hreg =>
        eq_of_countP_le (countP_timers_le hcount) htimer hmem hreg hregular
    have hbefore := hlead least hmem hregular near hmem' hplain'
    obtain ⟨hfront, hbehind⟩ := periods_before hperiod hbefore
    split
    · rename_i hzero
      refine ⟨hlead, fun timer htimer hreg => ⟨near, hmem', hplain', ?_⟩⟩
      rw [honly timer htimer hreg]
      rwa [hzero, Nat.zero_mul, Nat.add_zero] at hbehind
    · have hmoved : ∀ timer ∈ (a.timersOf regular).map
          (·.later ((near.ms - least.ms - 1) / period * period)),
          timer = least.later ((near.ms - least.ms - 1) / period * period) := by
        intro timer htimer
        obtain ⟨old, hold, rfl⟩ := List.mem_map.1 htimer
        obtain ⟨hold, hreg⟩ := mem_timersOf.1 hold
        rw [honly old hold hreg]
      constructor
      · intro timer htimer hreg other hother hplain
        rcases List.mem_append.1 htimer with htimer | htimer
        · rw [(mem_others.1 htimer).2] at hreg
          cases hreg
        · rcases List.mem_append.1 hother with hother | hother
          · have hfar : near.ms ≤ other.ms :=
              (List.min?_eq_some_iff.1 hnext).2 _ (List.mem_map_of_mem hother)
            rw [hmoved timer htimer]
            exact Nat.lt_of_lt_of_le hfront hfar
          · rw [hmoved other hother] at hplain
            exact absurd hregular (Bool.eq_false_iff.1 hplain)
      · intro timer htimer hreg
        refine ⟨near, List.mem_append_left _ hnear, hplain', ?_⟩
        rcases List.mem_append.1 htimer with htimer | htimer
        · rw [(mem_others.1 htimer).2] at hreg
          cases hreg
        · rw [hmoved timer htimer]
          exact hbehind
  · rename_i hnone
    refine ⟨hlead, fun timer htimer hreg => ?_⟩
    obtain ⟨first, hfirst⟩ := exists_min?_of_mem (mem_timersOf.2 ⟨htimer, hreg⟩)
    obtain ⟨next, hnext⟩ := exists_min?_of_mem (mem_others.2 ⟨hother, hplain⟩)
    exact absurd hnext (hnone first next hfirst)

/-- Each turn of the regular task, which is then due again one period later, leaves it fewer turns
before another task has one. -/
theorem rushes_of_turn (hperiod : 0 < period) (hcount : a.tasks.countP regular ≤ 1)
    (hother : a.soon = [] → ∃ other ∈ a.timers, regular other.task = false)
    (hn : (if a.isIdle then a.skip regular period else a).next? = some (task, a'))
    (htask : regular task = true) (hagain : regular again = true) :
    rushes regular (a'.setTimer (a'.now + period) again) < rushes regular a := by
  by_cases hidle : a.soon = []
  · rw [if_pos (isIdle_iff.2 hidle)] at hn
    by_cases hlead : Leads regular a
    · obtain ⟨hfirst, hnear⟩ := leads_skip hperiod hcount hlead (hother hidle)
      have hidle' : (a.skip regular period).soon = [] := (soon_skip a regular period).trans hidle
      have hcount' : (a.skip regular period).tasks.countP regular ≤ 1 := by
        rwa [(perm_skip a regular period).countP_eq]
      have hsame : rushes regular (a.skip regular period) = rushes regular a := by
        rw [rushes_of_idle hidle', rushes_of_idle hidle, if_pos hfirst, if_pos hlead]
      rw [← hsame]
      exact rushes_of_lead hcount' hidle' hfirst hnear hn htask hagain
    · rw [skip_of_not_leads hcount hlead] at hn
      exact rushes_of_tie hcount hidle hlead hn htask _
  · rw [if_neg (mt isIdle_iff.1 hidle)] at hn
    exact rushes_of_busy hcount hidle hn htask _ _

end ScriptHost.Agenda
