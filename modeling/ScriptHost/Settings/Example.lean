import ScriptHost.Settings.Reader

/-!
# The example settings

A settings file that says what can be set. It sets nothing that does not hold anyway.
-/

namespace ScriptHost.Settings

/-- The lines of the example. -/
def exampleLines : List String :=
  ["# replcube configuration",
    "#",
    "# Every key is optional. Missing keys fall back to the values shown here.",
    "",
    "[policy]",
    "# \"production\" (alias \"strict\") or \"permissive\" (alias \"development\")",
    "preset = \"production\"",
    "",
    "# Per-field overrides on top of the preset",
    "# execution_timeout_secs = 30",
    "# enable_timeout = true",
    "# max_memory_bytes = 536870912",
    "# enable_memory_limit = true",
    "# enable_api_restrictions = true",
    "# max_source_bytes = 65536",
    "",
    "# Entries appended to the preset's lists",
    "# forbidden_apis = [\"System.Net.Http.HttpClient\"]",
    "# blocked_paths = [\"/srv/secrets\"]",
    "# blocked_libraries = [\"Contoso.Admin\"]",
    "",
    "# When set, path literals must fall under one of these roots",
    "# allowed_paths = [\"/tmp/replcube\"]",
    "",
    "[sessions]",
    "# Idle seconds before a session is swept",
    "ttl_secs = 1800",
    "sweep_interval_secs = 60",
    "",
    "[isolation]",
    "max_concurrent_units = 16",
    "memory_poll_interval_ms = 100",
    "max_output_bytes = 1048576",
    "",
    "[packages]",
    "# Local package cache laid out as <cache_dir>/<name>/<version>/<files>",
    "# cache_dir = \"/var/cache/replcube/packages\""]

/-- The example, as it is written to a new settings file. -/
def exampleText : String := String.join (exampleLines.map (· ++ "\n"))

/-- The settings when no file is read: those of the example. -/
def standard : Settings :=
  match ofToml exampleText with
  | .ok s => s
  | .error _ => default

end ScriptHost.Settings
