import ScriptHost.CommandLine.Help
import ScriptHost.CommandLine.Repl
import ScriptHost.Json.Sorted
import ScriptHost.Settings.Example
import ScriptHost.Settings.Launch

/-!
# The program

A command line with the files and the standard input it is run with, and what comes of it: an
exit code, a transcript, and the files afterwards.
-/

namespace ScriptHost.CommandLine

/-- What a command is run with. -/
structure Environment where
  files : FileTree
  /-- The text on the standard input. -/
  input : String
  store : SessionStore
  memorySamples : List (Option Nat)

/-- How a command ends. -/
structure Outcome where
  exit : Nat
  said : Transcript
  files : FileTree
  /-- The milliseconds that the command took. -/
  elapsedMs : Nat

/-- How a command begins: it ends at once, or a dialogue is opened. -/
inductive Beginning where
  | ended (o : Outcome)
  | dialogue (said : Transcript) (repl : Repl)

/-! ## Reading what is given -/

/-- A line without the carriage return that belongs to its end. -/
def withoutReturn (cs : List Char) : List Char :=
  if cs.getLast? = some '\r' then cs.dropLast else cs

/-- The lines of pieces between line feeds: what stands behind the last line feed is a line
without an end, unless it is empty. -/
def linesOfPieces : List (List Char) → List String
  | [] => []
  | [[]] => []
  | [last] => [String.ofList last]
  | piece :: rest => String.ofList (withoutReturn piece) :: linesOfPieces rest

/-- The lines of a text, without their ends. -/
def linesOf (text : String) : List String :=
  linesOfPieces (text.toList.splitOn '\n')

/-- The settings that hold: those of a file or the standard ones, under a preset if one is
asked for. -/
def settingsOf (i : Invocation) (files : FileTree) : Except CommandError Settings :=
  let loaded : Except CommandError Settings :=
    match i.config with
    | some path =>
      (Settings.load files path).mapError fun e =>
        ⟨"failed to load configuration", e.message :: e.causes⟩
    | none => .ok .standard
  loaded.map fun s => (i.preset.map s.withPreset).getD s

/-- The source text that is asked for. Lines from the standard input all get an end. -/
def sourceText (source : SourceArgument) (e : Environment) : Except CommandError String :=
  match source with
  | .inline text => .ok text
  | .file path =>
    (e.files.read path).mapError fun error =>
      ⟨"failed to read source file '" ++ path ++ "'", [error.message]⟩
  | .standardInput => .ok (String.join ((linesOf e.input).map (· ++ "\n")))

/-- The packages that are asked for. -/
def packagesOf (specs : List String) : Except CommandError (List Reference) :=
  specs.mapM fun spec =>
    match Reference.parse? spec with
    | some r => .ok r
    | none => .error ⟨"invalid package reference '" ++ spec ++ "'", []⟩

/-! ## The commands -/

/-- End with a failure of the command itself. -/
def failed (e : Environment) (error : CommandError) : Outcome :=
  ⟨1, [.err error.render], e.files, 0⟩

/-- Write the example to a new settings file, or over an old one if forced to. -/
def init (output : String) (force : Bool) (e : Environment) : Outcome :=
  if (e.files.locate output).toOption.isSome && !force then
    failed e
      ⟨"Configuration file already exists at '" ++ output ++ "'. Use --force to overwrite.", []⟩
  else
    match e.files.create output Settings.exampleText with
    | .ok files => ⟨0, [line ("Created configuration file at '" ++ output ++ "'")], files, 0⟩
    | .error error => failed e ⟨"failed to write configuration file", [error.message]⟩

/-- The exit code of a success or a failure. -/
def exitCode (success : Bool) : Nat := if success then 0 else 1

/-- Run a source text once. -/
def exec (h : Host) (json : Bool) (source : String) (packages : List Reference)
    (e : Environment) : Outcome :=
  let served := h.execute ⟨source, none, packages, false⟩
  let said :=
    if json then [line (Report.reply served.reply served.elapsedMs).pretty]
    else replyLines served.reply
  ⟨exitCode served.reply.isSuccess, said, e.files, served.elapsedMs⟩

/-- Compile a source text without a run. -/
def validate (h : Host) (json : Bool) (source : String) (e : Environment) : Outcome :=
  let verdict := (h.validate source none).2
  let said :=
    if json then [line (Report.verdict verdict).pretty]
    else
      diagnosticLines (verdict.errors ++ verdict.warnings) ++
        [line (if verdict.isValid then "Validation successful" else "Validation failed")]
  ⟨exitCode verdict.isValid, said, e.files, 0⟩

/-- A span of whole seconds. -/
def secondsText (ms : Nat) : String := toString (ms / 1000) ++ "s"

def presetTitle : Preset → String
  | .production => "Production"
  | .permissive => "Permissive"

/-- The settings that hold, in words. -/
def settingsLines (s : Settings) : List String :=
  let p := s.policy.toPolicy
  ["Policy preset: " ++ presetTitle s.policy.preset,
    "  Execution timeout: " ++ secondsText p.timeoutMs ++ " (enabled: " ++
      toString p.enableTimeout ++ ")",
    "  Memory limit: " ++ toString p.maxMemoryBytes ++ " bytes (enabled: " ++
      toString p.enableMemoryLimit ++ ")",
    "  API restrictions: " ++ toString p.restrictApis,
    "  Forbidden APIs: " ++ toString p.forbiddenApis.names.length,
    "  Blocked libraries: " ++ toString p.blockedLibraries.names.length,
    "  Max source size: " ++ toString p.maxSourceBytes ++ " bytes",
    "",
    "Session TTL: " ++ toString s.sessions.ttlSecs ++ "s",
    "Sweep interval: " ++ toString s.sessions.sweepIntervalSecs ++ "s",
    "Max concurrent units: " ++ toString s.isolation.maxConcurrentUnits,
    "Package cache: " ++ s.packages.cacheDir.getD "none"]

/-- The settings that hold, with the policy that they make. -/
def settingsReport (s : Settings) : Json :=
  (Json.obj [("config", Report.settings s),
    ("effective_policy", Report.policy s.policy.toPolicy)]).sorted

/-- Show the settings that hold. -/
def showConfig (s : Settings) (json : Bool) (e : Environment) : Outcome :=
  let said :=
    if json then [line (settingsReport s).pretty] else (settingsLines s).map line
  ⟨0, said, e.files, 0⟩

/-- Open a dialogue, with the packages attached first. -/
def converse (h : Host) (json : Bool) (packages : List Reference) : Beginning :=
  let fresh : Repl := ⟨h, none, json⟩
  if packages.isEmpty then .dialogue [Repl.greeting] fresh
  else
    let (repl, served) := fresh.attach packages
    .dialogue (Repl.attachErrors served.reply ++ [Repl.greeting]) repl

/-! ## The whole program -/

/-- End with a crash. -/
def crashed (e : Environment) (crash : Crash) : Outcome :=
  ⟨Crash.exitCode, [.err (crash.message ++ "\n")], e.files, 0⟩

/-- Begin a command with the host that settings ask for. -/
def withHost (s : Settings) (e : Environment) (begun : Host → Beginning) : Beginning :=
  match s.launch e.files e.memorySamples e.store with
  | .ok host => begun host
  | .error crash => .ended (crashed e crash)

/-- Begin a command whose settings are known. -/
def begin (i : Invocation) (s : Settings) (e : Environment) : Except CommandError Beginning :=
  match i.command with
  | .init output force => .ok (.ended (init output force e))
  | .exec source packages => do
    let source ← sourceText source e
    let packages ← packagesOf packages
    return withHost s e fun host => .ended (exec host i.json source packages e)
  | .validate source => do
    let source ← sourceText source e
    return withHost s e fun host => .ended (validate host i.json source e)
  | .repl packages => do
    let packages ← packagesOf packages
    return withHost s e fun host => converse host i.json packages
  | .showConfig => .ok (.ended (showConfig s i.json e))

/-- Begin what is asked for. -/
def start (d : Demand) (e : Environment) : Beginning :=
  match d with
  | .version => .ended ⟨0, [line ("replcube " ++ Repl.version)], e.files, 0⟩
  | .help command => .ended ⟨0, [.out (Help.text command)], e.files, 0⟩
  | .misuse => .ended ⟨2, [.err (Help.text none)], e.files, 0⟩
  | .invoke i =>
    match (settingsOf i e.files).bind (begin i · e) with
    | .ok beginning => beginning
    | .error error => .ended (failed e error)

/-- The outcome of a dialogue over the lines of the standard input. -/
def converseAll (said : Transcript) (repl : Repl) (e : Environment) : Outcome :=
  match repl.talk (linesOf e.input) with
  | (after, none) => ⟨0, said ++ after, e.files, 0⟩
  | (after, some error) => ⟨1, said ++ after ++ [.err error.render], e.files, 0⟩

/-- Run a command line to its end. -/
def run (words : List String) (e : Environment) : Outcome :=
  match start (.ofWords words) e with
  | .ended o => o
  | .dialogue said repl => converseAll said repl e

end ScriptHost.CommandLine
