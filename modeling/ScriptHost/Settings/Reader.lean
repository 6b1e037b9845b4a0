import ScriptHost.Document.OfJson
import ScriptHost.Document.Overlay
import ScriptHost.FileTree
import ScriptHost.Json.Reader
import ScriptHost.Settings.Basic
import ScriptHost.Toml.Reader

/-!
# Reading settings

Settings are read from a document with one section for each part. What is absent keeps its
default; names that mean nothing are passed over. Settings that are read are then checked.
-/

namespace ScriptHost

namespace PolicySettings

/-- The names in the section, in order. -/
def fields : List String :=
  ["preset", "execution_timeout_secs", "enable_timeout", "max_memory_bytes",
    "enable_memory_limit", "enable_api_restrictions", "max_source_bytes", "forbidden_apis",
    "blocked_paths", "allowed_paths", "blocked_libraries"]

/-- The preset that a value names. -/
def preset? (n : Node) : Option Preset := n.choice?.bind Preset.ofName?

/-- The settings in a section. -/
def ofNode? (n : Node) : Option PolicySettings := do
  let part ← n.parts? fields
  let unsigned := fun key => part.readOr key (Node.optional? Node.unsigned?) none
  let truth := fun key => part.readOr key (Node.optional? Node.truth?) none
  let texts := fun key => part.readOr key Node.texts? []
  return {
    preset := ← part.readOr "preset" preset? .production
    timeoutSecs := ← unsigned "execution_timeout_secs"
    enableTimeout := ← truth "enable_timeout"
    maxMemoryBytes := ← unsigned "max_memory_bytes"
    enableMemoryLimit := ← truth "enable_memory_limit"
    restrictApis := ← truth "enable_api_restrictions"
    maxSourceBytes := ← unsigned "max_source_bytes"
    forbiddenApis := ← texts "forbidden_apis"
    blockedPaths := ← texts "blocked_paths"
    allowedPaths := ← texts "allowed_paths"
    blockedLibraries := ← texts "blocked_libraries" }

end PolicySettings

/-- The settings in a section. -/
def SessionSettings.ofNode? (n : Node) : Option SessionSettings := do
  let part ← n.parts? ["ttl_secs", "sweep_interval_secs"]
  let ttlSecs ← part.readOr "ttl_secs" Node.unsigned? default.ttlSecs
  let sweepIntervalSecs ←
    part.readOr "sweep_interval_secs" Node.unsigned? default.sweepIntervalSecs
  return ⟨ttlSecs, sweepIntervalSecs⟩

/-- The settings in a section. -/
def IsolationSettings.ofNode? (n : Node) : Option IsolationSettings := do
  let part ←
    n.parts? ["max_concurrent_units", "memory_poll_interval_ms", "max_output_bytes"]
  let units ← part.readOr "max_concurrent_units" Node.unsigned? default.maxConcurrentUnits
  let poll ← part.readOr "memory_poll_interval_ms" Node.unsigned? default.memoryPollMs
  let output ← part.readOr "max_output_bytes" Node.unsigned? default.maxOutputBytes
  return ⟨units, poll, output⟩

/-- The settings in a section. -/
def PackageSettings.ofNode? (n : Node) : Option PackageSettings := do
  let part ← n.parts? ["cache_dir"]
  let cacheDir ← part.readOr "cache_dir" (Node.optional? Node.text?) none
  return ⟨cacheDir⟩

/-- Why settings cannot be read from a document. -/
inductive ReadingError where
  /-- The document is not well formed, or holds something that cannot be meant. -/
  | malformed
  /-- There is no file of that name, with or without the ending of a known format. -/
  | missing (path : String)
  /-- The file is in no known format. -/
  | unknownFormat (path : String)
  | refused (error : SettingsError)
deriving DecidableEq, Repr

namespace ReadingError

def message : ReadingError → String
  | malformed => "failed to parse config: the document is not well formed"
  | missing path => "failed to parse config: configuration file \"" ++ path ++ "\" not found"
  | unknownFormat path =>
    "failed to parse config: configuration file \"" ++ path ++
      "\" is not of a supported file format"
  | refused error => "invalid config: " ++ error.message

/-- The errors behind the error. -/
def causes : ReadingError → List String
  | missing path => ["configuration file \"" ++ path ++ "\" not found"]
  | unknownFormat path =>
    ["configuration file \"" ++ path ++ "\" is not of a supported file format"]
  | _ => []

end ReadingError

namespace Settings

/-- The settings in a document. -/
def ofNode? (n : Node) : Option Settings := do
  let part ← n.parts? ["policy", "sessions", "isolation", "packages"]
  let policy ← part.readOr "policy" PolicySettings.ofNode? default.policy
  let sessions ← part.readOr "sessions" SessionSettings.ofNode? default.sessions
  let isolation ← part.readOr "isolation" IsolationSettings.ofNode? default.isolation
  let packages ← part.readOr "packages" PackageSettings.ofNode? default.packages
  return ⟨policy, sessions, isolation, packages⟩

/-- The settings, if nothing is wrong with them. -/
def checked (s : Settings) : Except ReadingError Settings :=
  match s.problem? with
  | some e => .error (.refused e)
  | none => .ok s

/-- The settings in the members of a document. -/
def ofMembers (members : Option (List (String × Node))) : Except ReadingError Settings :=
  match members.bind fun ms => ofNode? (Node.expandPaths ms) with
  | some s => s.checked
  | none => .error .malformed

/-- The settings in a Toml text. -/
def ofToml (text : String) : Except ReadingError Settings := ofMembers (Toml.parse? text)

/-- The members of a Json object. -/
def jsonMembers? (text : String) : Option (List (String × Node)) :=
  match (Json.parse? text).map Json.node with
  | some (.table members) => some members
  | _ => none

/-- The settings in a Json text. -/
def ofJson (text : String) : Except ReadingError Settings := ofMembers (jsonMembers? text)

/-! ## Files -/

/-- The formats of settings files. -/
inductive Format where
  | toml
  | json
deriving DecidableEq, Repr

namespace Format

/-- The ending of the names of files in a format. -/
def ending : Format → String
  | toml => "toml"
  | json => "json"

/-- The formats, in the order in which files are looked for. -/
def all : List Format := [toml, json]

def read : Format → String → Except ReadingError Settings
  | toml => ofToml
  | json => ofJson

end Format

/-- The text of a file without the mark that may stand at its start. -/
def withoutMark (content : String) : String := String.ofList (Toml.withoutMark content.toList)

/-- The ending of the last name in a path, behind its last point. A point at the start of the
name does not count. -/
def endingOf? (path : String) : Option String :=
  let name := ((Text.splitAt '/' path).filter (· ≠ "")).getLast?.getD ""
  let ending := (name.toList.reverse.takeWhile (· != '.')).reverse
  if ending.length + 1 < name.toList.length then some (String.ofList ending) else none

/-- The format of the file at the end of a path. -/
def formatOf? (path : String) : Option Format :=
  Format.all.find? fun f => endingOf? path == some f.ending

/-- A path, given backwards, without the segments at its end that stay in place. -/
def dropOpenEnd : List Char → List Char
  | '/' :: cs => dropOpenEnd cs
  | '.' :: '/' :: cs => dropOpenEnd cs
  | cs => cs

/-- A path up to the end of its last name, if it ends with a name. -/
def namePath? (path : String) : Option String :=
  match dropOpenEnd path.toList.reverse with
  | [] | ['.'] | ['.', '.'] | '.' :: '.' :: '/' :: _ => none
  | cs => some (String.ofList cs.reverse)

/-- What follows a path whose last name has an ending. The ending of a format then takes the place
of this one, and the name keeps its own. -/
def spareEnding : String := ".placeholder"

/-- A path without the ending of the name at its very end. -/
def withoutEnding (path : String) : String :=
  match endingOf? path with
  | some ending => String.ofList (path.toList.take (path.length - (ending.length + 1)))
  | none => path

/-- What the endings of the formats are put to when there is no file at the end of a path. Where a
path stays open behind a name with an ending, that is the name of a file in a directory. -/
def basePath? (path : String) : Option String :=
  (namePath? path).map fun name =>
    if (endingOf? name).isSome then withoutEnding (path ++ spareEnding) else name

/-- The paths with the endings of the formats, in order. -/
def completions (path : String) : List (Format × String) :=
  match basePath? path with
  | some base => Format.all.map fun f => (f, base ++ "." ++ f.ending)
  | none => []

/-- The file that a path means when there is none at its end: the first whose name ends as the
names of a format do. -/
def completed? (files : FileTree) (path : String) : Option (Format × String) :=
  (completions path).findSome? fun (f, path) => (files.read? path).map (f, ·)

/-- Read the settings from the file that a path means. -/
def load (files : FileTree) (path : String) : Except ReadingError Settings :=
  match files.read? path with
  | some content =>
    match formatOf? path with
    | some f => f.read (withoutMark content)
    | none => .error (.unknownFormat path)
  | none =>
    match completed? files path with
    | some (f, content) => f.read (withoutMark content)
    | none => .error (.missing path)

end Settings

end ScriptHost
