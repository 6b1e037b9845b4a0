import ScriptHost.Host.Basic

/-!
# Settings

What a user can set: a preset policy with changes to it, and the limits of sessions, units
and packages. Lists extend those of the preset, except that a list of allowed paths takes
the place of the preset's. Settings that a host could not run with are refused.
-/

namespace ScriptHost

/-- The policies to start from. -/
inductive Preset where
  | production
  | permissive
deriving DecidableEq, Repr

namespace Preset

def policy : Preset → Policy
  | production => .production
  | permissive => .permissive

/-- The preset with a name; each has a second name. -/
def ofName? : String → Option Preset
  | "production" | "strict" => some production
  | "permissive" | "development" => some permissive
  | _ => none

def name : Preset → String
  | production => "production"
  | permissive => "permissive"

end Preset

/-- A preset policy with changes to it. -/
structure PolicySettings where
  preset : Preset
  timeoutSecs : Option Nat
  enableTimeout : Option Bool
  maxMemoryBytes : Option Nat
  enableMemoryLimit : Option Bool
  restrictApis : Option Bool
  maxSourceBytes : Option Nat
  forbiddenApis : List String
  blockedPaths : List String
  allowedPaths : List String
  blockedLibraries : List String
deriving DecidableEq, Repr

namespace PolicySettings

/-- A preset without changes. -/
def ofPreset (preset : Preset) : PolicySettings :=
  ⟨preset, none, none, none, none, none, none, [], [], [], []⟩

/-- The policy that holds. -/
def toPolicy (s : PolicySettings) : Policy :=
  let base := s.preset.policy
  { timeoutMs := (s.timeoutSecs.map (· * 1000)).getD base.timeoutMs
    enableTimeout := s.enableTimeout.getD base.enableTimeout
    maxMemoryBytes := s.maxMemoryBytes.getD base.maxMemoryBytes
    enableMemoryLimit := s.enableMemoryLimit.getD base.enableMemoryLimit
    restrictApis := s.restrictApis.getD base.restrictApis
    forbiddenApis := base.forbiddenApis.insertAll s.forbiddenApis
    blockedPaths := base.blockedPaths.insertAll s.blockedPaths
    allowedPaths :=
      if s.allowedPaths.isEmpty then base.allowedPaths else .ofList s.allowedPaths
    blockedLibraries := base.blockedLibraries.insertAll s.blockedLibraries
    maxSourceBytes := s.maxSourceBytes.getD base.maxSourceBytes }

end PolicySettings

structure SessionSettings where
  /-- The idle time after which a session is swept. -/
  ttlSecs : Nat
  sweepIntervalSecs : Nat
deriving DecidableEq, Repr

def SessionSettings.default : SessionSettings := ⟨1800, 60⟩

structure IsolationSettings where
  /-- How many units may be live at once. -/
  maxConcurrentUnits : Nat
  memoryPollMs : Nat
  /-- The output captured from each run before it is cut. -/
  maxOutputBytes : Nat
deriving DecidableEq, Repr

def IsolationSettings.default : IsolationSettings := ⟨16, 100, 1048576⟩

structure PackageSettings where
  /-- The package directory; without one no package is found. -/
  cacheDir : Option String
deriving DecidableEq, Repr

structure Settings where
  policy : PolicySettings
  sessions : SessionSettings
  isolation : IsolationSettings
  packages : PackageSettings
deriving DecidableEq, Repr

/-- What is wrong with settings that were read. -/
inductive SettingsError where
  | zeroTimeout
  | zeroSourceLimit
  | emptyEntry (list : String)
  | zeroTtl
  | zeroSweepInterval
  | noUnits
  | zeroPollInterval
deriving DecidableEq, Repr

def SettingsError.message : SettingsError → String
  | zeroTimeout =>
    "policy.execution_timeout_secs must be positive; set enable_timeout = false to disable"
  | zeroSourceLimit => "policy.max_source_bytes must be positive"
  | emptyEntry list => "policy." ++ list ++ " contains an empty entry"
  | zeroTtl => "sessions.ttl_secs must be positive"
  | zeroSweepInterval => "sessions.sweep_interval_secs must be positive"
  | noUnits => "isolation.max_concurrent_units must be at least 1"
  | zeroPollInterval => "isolation.memory_poll_interval_ms must be positive"

namespace Settings

/-- The settings when nothing is set. -/
def default : Settings := ⟨.ofPreset .production, .default, .default, ⟨none⟩⟩

/-- The settings with a bare preset for the policy. -/
def withPreset (s : Settings) (preset : Preset) : Settings :=
  { s with policy := .ofPreset preset }

/-- The lists of the policy, by name. -/
def lists (s : Settings) : List (String × List String) :=
  [("forbidden_apis", s.policy.forbiddenApis), ("blocked_paths", s.policy.blockedPaths),
    ("allowed_paths", s.policy.allowedPaths), ("blocked_libraries", s.policy.blockedLibraries)]

/-- The first list with a blank entry. -/
def emptyEntry? (s : Settings) : Option SettingsError :=
  (s.lists.find? fun list => list.2.any Text.isBlankText).map fun list => .emptyEntry list.1

/-- The first thing wrong with the settings. -/
def problem? (s : Settings) : Option SettingsError :=
  if s.policy.timeoutSecs = some 0 then some .zeroTimeout
  else if s.policy.maxSourceBytes = some 0 then some .zeroSourceLimit
  else
    match s.emptyEntry? with
    | some e => some e
    | none =>
      if s.sessions.ttlSecs = 0 then some .zeroTtl
      else if s.sessions.sweepIntervalSecs = 0 then some .zeroSweepInterval
      else if s.isolation.maxConcurrentUnits = 0 then some .noUnits
      else if s.isolation.memoryPollMs = 0 then some .zeroPollInterval
      else none

/-- The settings of a host beside its policy. -/
def tuning (s : Settings) : Tuning where
  sessionTtlMs := s.sessions.ttlSecs * 1000
  sweepIntervalMs := s.sessions.sweepIntervalSecs * 1000
  maxOutputBytes := s.isolation.maxOutputBytes
  memoryPollMs := s.isolation.memoryPollMs

/-- The resolver that the settings ask for, with the files that there are. -/
def resolver (s : Settings) (files : FileTree) : Resolver :=
  match s.packages.cacheDir with
  | some dir => (PackageCache.mk dir (files.locate dir)).resolver
  | none => Catalogue.empty.resolver

/-- The host that the settings ask for. -/
def host (s : Settings) (files : FileTree) (memorySamples : List (Option Nat))
    (store : SessionStore) : Host :=
  .new
    { policy := s.policy.toPolicy
      compiler := Script.compiler
      resolver := s.resolver files
      readsFiles := s.packages.cacheDir.isSome
      tuning := s.tuning
      memorySamples := memorySamples }
    s.isolation.maxConcurrentUnits store

end Settings

end ScriptHost
