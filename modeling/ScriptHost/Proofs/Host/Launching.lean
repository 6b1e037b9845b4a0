import ScriptHost.Session.Id
import ScriptHost.Settings.Launch
import ScriptHost.Settings.Reader

/-!
# Settings that a host is launched from

Settings that pass their check leave a domain with room for a unit, a sweeper and samples with a
period, all as they were set. What the check does not see is how many permits can be counted: the
launch succeeds exactly up to that number of units, and crashes beyond it.
-/

namespace ScriptHost

/-! ## What is checked -/

namespace Settings

variable {s : Settings}

/-- The settings that nothing is wrong with. -/
structure IsSound (s : Settings) : Prop where
  timeoutSecs_ne : s.policy.timeoutSecs ≠ some 0
  maxSourceBytes_ne : s.policy.maxSourceBytes ≠ some 0
  not_blank : ∀ list ∈ s.lists, ∀ entry ∈ list.2, Text.isBlankText entry = false
  ttlSecs_pos : 0 < s.sessions.ttlSecs
  sweepIntervalSecs_pos : 0 < s.sessions.sweepIntervalSecs
  maxConcurrentUnits_pos : 0 < s.isolation.maxConcurrentUnits
  memoryPollMs_pos : 0 < s.isolation.memoryPollMs

theorem emptyEntry?_eq_none_iff :
    s.emptyEntry? = none ↔ ∀ list ∈ s.lists, ∀ entry ∈ list.2, Text.isBlankText entry = false := by
  unfold emptyEntry?
  simp only [Option.map_eq_none_iff, List.find?_eq_none, Bool.not_eq_true, List.any_eq_false]

/-- One check before others. -/
theorem check_eq_none_iff {p : Prop} [Decidable p] {e : SettingsError}
    {others : Option SettingsError} :
    (if p then some e else others) = none ↔ ¬ p ∧ others = none := by
  split
  · rename_i hp
    exact iff_of_false nofun fun h => h.1 hp
  · rename_i hp
    exact (and_iff_right hp).symm

theorem problem?_eq_none_iff : s.problem? = none ↔ s.IsSound := by
  rw [problem?, check_eq_none_iff, check_eq_none_iff]
  constructor
  · rintro ⟨htimeout, hsource, hrest⟩
    split at hrest
    · cases hrest
    · rename_i hentries
      simp only [check_eq_none_iff, and_true, ← Nat.pos_iff_ne_zero] at hrest
      obtain ⟨httl, hsweep, hunits, hpoll⟩ := hrest
      exact ⟨htimeout, hsource, emptyEntry?_eq_none_iff.1 hentries, httl, hsweep, hunits, hpoll⟩
  · rintro ⟨htimeout, hsource, hentries, httl, hsweep, hunits, hpoll⟩
    refine ⟨htimeout, hsource, ?_⟩
    rw [emptyEntry?_eq_none_iff.2 hentries]
    simp only [check_eq_none_iff, and_true, ← Nat.pos_iff_ne_zero]
    exact ⟨httl, hsweep, hunits, hpoll⟩

end Settings

/-! ## What is launched -/

/-- What is launched has the room and the periods that the settings ask for. -/
structure Host.IsSetTo (h : Host) (s : Settings) : Prop where
  capacity_pos : 0 < h.domain.capacity
  capacity : h.domain.capacity = s.isolation.maxConcurrentUnits
  slots : h.domain.slots = .new s.isolation.maxConcurrentUnits
  sweeper : ∃ ticker, h.launchSweeper = .ok ticker ∧
    ticker.period = s.sessions.sweepIntervalSecs * 1000000
  sampler : ∃ sampler, h.monitor.launch = .ok sampler ∧
    ∀ ticker ∈ sampler, ticker.period = s.isolation.memoryPollMs * 1000

theorem Ticker.launch_of_pos {period : Nat} (h : 0 < period) : launch period = .ok ⟨period, h⟩ :=
  dif_pos h

/-- The samples of a run have a period, whatever the settings. -/
theorem Monitor.launch_withPoll (m : Monitor) (micros : Nat) :
    ∃ sampler, (m.withPoll micros).launch = .ok sampler ∧
      ∀ ticker ∈ sampler, ticker.period = max micros minPollMicros := by
  have hpos : 0 < (m.withPoll micros).pollMicros :=
    Nat.lt_of_lt_of_le (by decide : 0 < minPollMicros) (Nat.le_max_right ..)
  rw [launch, Ticker.launch_of_pos hpos]
  split
  · exact ⟨none, rfl, nofun⟩
  · refine ⟨some ⟨_, hpos⟩, rfl, ?_⟩
    rintro ticker ⟨⟩
    rfl

namespace Settings

variable {s : Settings} {files : FileTree} {samples : List (Option Nat)} {store : SessionStore}
  {host : Host} {crash : Crash}

/-- The launch gives the host that the settings ask for, as long as its permits can be counted. -/
theorem launch_eq : s.launch files samples store =
    if s.isolation.maxConcurrentUnits ≤ Semaphore.maxPermits then .ok (s.host files samples store)
    else .error .tooManyPermits := by
  have hroom : (Domain.new s.isolation.maxConcurrentUnits).capacity ≤ Semaphore.maxPermits ↔
      s.isolation.maxConcurrentUnits ≤ Semaphore.maxPermits :=
    Nat.max_le.trans (and_iff_left (by decide))
  rw [launch, Domain.launch, Semaphore.launch]
  simp only [hroom]
  split <;> rfl

/-- The host of settings that pass their check is set to them: their numbers are above the least
ones, so none is raised. -/
theorem IsSound.isSetTo (h : s.IsSound) : (s.host files samples store).IsSetTo s := by
  have hcapacity : (s.host files samples store).domain.capacity = s.isolation.maxConcurrentUnits :=
    Nat.max_eq_left h.maxConcurrentUnits_pos
  have hsweep : 0 < (s.host files samples store).setup.tuning.sweepIntervalMs * 1000 :=
    Nat.mul_pos (Nat.mul_pos h.sweepIntervalSecs_pos (by decide)) (by decide)
  have hpoll : max (s.isolation.memoryPollMs * 1000) Monitor.minPollMicros =
      s.isolation.memoryPollMs * 1000 :=
    Nat.max_eq_left (Nat.mul_le_mul_right 1000 h.memoryPollMs_pos)
  refine ⟨hcapacity ▸ h.maxConcurrentUnits_pos, hcapacity, congrArg Semaphore.new hcapacity,
    ⟨_, Ticker.launch_of_pos hsweep, Nat.mul_assoc ..⟩, ?_⟩
  rw [← hpoll]
  exact Monitor.launch_withPoll _ _

/-- From settings that pass their check a host is launched exactly when the permits of its units can
be counted, which the check does not see. The launch crashes for no other reason, and a host that is
launched is set to them, with a sweeper and samples that start. -/
theorem launch_of_accepted (hs : s.problem? = none) (files : FileTree)
    (samples : List (Option Nat)) (store : SessionStore) :
    ((∃ host, s.launch files samples store = .ok host) ↔
      s.isolation.maxConcurrentUnits ≤ Semaphore.maxPermits) ∧
    (∀ crash, s.launch files samples store = .error crash → crash = .tooManyPermits) ∧
    ∀ host, s.launch files samples store = .ok host → host.IsSetTo s := by
  have hset : (s.host files samples store).IsSetTo s := (problem?_eq_none_iff.1 hs).isSetTo
  rw [launch_eq]
  split
  · rename_i hle
    refine ⟨iff_of_true ⟨_, rfl⟩ hle, nofun, ?_⟩
    rintro host ⟨⟩
    exact hset
  · rename_i hlt
    refine ⟨iff_of_false nofun hlt, ?_, nofun⟩
    rintro crash ⟨⟩
    rfl

/-- As many units as there can be permits, the longest sweep interval and the shortest between
samples. -/
def utmost : Settings :=
  ⟨.ofPreset .permissive, ⟨1, 0xffffffffffffffff⟩, ⟨Semaphore.maxPermits, 1, 0⟩, ⟨none⟩⟩

theorem launch_of_accepted_utmost :
    utmost.problem? = none ∧
      ∃ host, utmost.launch (.dir []) [] (.new 0 SessionId.ofNumber) = .ok host ∧
        host.IsSetTo utmost := by
  have hs : utmost.problem? = none := by decide
  obtain ⟨hlaunch, -, hset⟩ :=
    launch_of_accepted hs (.dir []) [] (.new 0 SessionId.ofNumber)
  obtain ⟨host, hhost⟩ := hlaunch.2 (Nat.le_refl _)
  exact ⟨hs, host, hhost, hset host hhost⟩

/-- One unit more than there can be permits passes the check, and the launch crashes. -/
theorem not_launch_of_accepted :
    ∃ s, ofToml "[isolation]\nmax_concurrent_units = 2305843009213693952" = .ok s ∧
      s.problem? = none ∧
      ∀ files samples store, s.launch files samples store = .error .tooManyPermits := by
  have hread : ∀ {read : Except ReadingError Settings} {s : Settings},
      read.toOption = some s → read = .ok s := by
    rintro (_ | _) s ⟨⟩
    rfl
  refine ⟨{ default with
    isolation := { IsolationSettings.default with maxConcurrentUnits := 2305843009213693952 } },
    hread (by decide +kernel), by decide +kernel, fun files samples store => ?_⟩
  rw [launch_eq, if_neg (by decide)]

end Settings

end ScriptHost
