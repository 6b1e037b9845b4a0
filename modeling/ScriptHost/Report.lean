import ScriptHost.Json.Basic
import ScriptHost.Settings.Basic
import ScriptHost.Text.Timestamp

/-!
# Reports

The Json forms in which replies, sessions, policies and settings are reported. Members come
in a fixed order; what is absent is null.
-/

namespace ScriptHost.Report

open Json

def severity : Severity → Json
  | .error => str "Error"
  | .warning => str "Warning"

def diagnostic (d : Diagnostic) : Json :=
  obj [("code", str d.code), ("message", str d.message), ("severity", severity d.severity),
    ("line", ofOption nat d.line), ("column", ofOption nat d.column)]

def diagnostics (ds : List Diagnostic) : Json := arr (ds.map diagnostic)

def value : Value → Json
  | .null => null
  | .bool b => bool b
  | .int n => int n.toInt
  | .text s => str s

def reference (r : Reference) : Json :=
  obj [("name", str r.name), ("version", ofOption str r.version)]

/-- A span of time as seconds and nanoseconds. -/
def duration (ms : Nat) : Json :=
  obj [("secs", nat (ms / 1000)), ("nanos", nat (ms % 1000 * 1000000))]

def names (s : NameSet) : Json := strings s.names

def policyMembers (p : Policy) : List (String × Json) :=
  [("execution_timeout", duration p.timeoutMs), ("enable_timeout", bool p.enableTimeout),
    ("max_memory_bytes", nat p.maxMemoryBytes),
    ("enable_memory_limit", bool p.enableMemoryLimit),
    ("enable_api_restrictions", bool p.restrictApis), ("forbidden_apis", names p.forbiddenApis),
    ("blocked_filesystem_paths", names p.blockedPaths),
    ("allowed_filesystem_paths", names p.allowedPaths),
    ("blocked_libraries", names p.blockedLibraries), ("max_source_bytes", nat p.maxSourceBytes)]

def policy (p : Policy) : Json := obj (policyMembers p)

def domainStats (s : DomainStats) : Json :=
  obj [("capacity", nat s.capacity), ("available", nat s.available), ("live", nat s.live),
    ("loaded", nat s.loaded), ("released", nat s.released), ("degraded", nat s.degraded)]

def compilerInfo (i : CompilerInfo) : Json :=
  obj [("language", str i.language), ("version", str i.version), ("features", strings i.features)]

def session (s : SessionInfo) : Json :=
  obj [("id", str s.id), ("created_at", str (Timestamp.render s.createdAt)),
    ("last_accessed_at", str (Timestamp.render s.lastAccess)),
    ("execution_count", nat s.executions), ("is_initialized", bool s.initialized),
    ("package_references", arr (s.references.map reference))]

/-- A reply, with the time that it took. -/
def reply (r : Reply) (elapsedMs : Nat) : Json :=
  obj [("success", bool r.success), ("return_value", ofOption value r.value),
    ("output", str r.output), ("errors", diagnostics r.errors),
    ("warnings", diagnostics r.warnings), ("elapsed", duration elapsedMs),
    ("session_id", ofOption str r.session), ("cleanup_degraded", bool r.cleanupDegraded)]

def verdict (v : Verdict) : Json :=
  obj [("is_valid", bool v.isValid), ("errors", diagnostics v.errors),
    ("warnings", diagnostics v.warnings)]

def survey (s : Host.Survey) : Json :=
  obj [("engine", compilerInfo s.compiler), ("active_sessions", nat s.activeSessions),
    ("policy", policy s.policy), ("isolation", domainStats s.isolation),
    ("session", ofOption session s.session)]

def policySettings (s : PolicySettings) : Json :=
  obj [("preset", str s.preset.name), ("execution_timeout_secs", ofOption nat s.timeoutSecs),
    ("enable_timeout", ofOption bool s.enableTimeout),
    ("max_memory_bytes", ofOption nat s.maxMemoryBytes),
    ("enable_memory_limit", ofOption bool s.enableMemoryLimit),
    ("enable_api_restrictions", ofOption bool s.restrictApis),
    ("max_source_bytes", ofOption nat s.maxSourceBytes),
    ("forbidden_apis", strings s.forbiddenApis), ("blocked_paths", strings s.blockedPaths),
    ("allowed_paths", strings s.allowedPaths),
    ("blocked_libraries", strings s.blockedLibraries)]

def settings (s : Settings) : Json :=
  obj [("policy", policySettings s.policy),
    ("sessions", obj [("ttl_secs", nat s.sessions.ttlSecs),
      ("sweep_interval_secs", nat s.sessions.sweepIntervalSecs)]),
    ("isolation", obj [("max_concurrent_units", nat s.isolation.maxConcurrentUnits),
      ("memory_poll_interval_ms", nat s.isolation.memoryPollMs),
      ("max_output_bytes", nat s.isolation.maxOutputBytes)]),
    ("packages", obj [("cache_dir", ofOption str s.packages.cacheDir)])]

end ScriptHost.Report
