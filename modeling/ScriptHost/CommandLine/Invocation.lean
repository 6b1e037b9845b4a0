import ScriptHost.CommandLine.Arguments
import ScriptHost.Settings.Basic

/-!
# Invocations

What the words on a command line ask for. Some options belong to every command and may stand
before its name or behind it; given in both places, the one behind holds.
-/

namespace ScriptHost.CommandLine

/-- Where a source text comes from. -/
inductive SourceArgument where
  | standardInput
  | file (path : String)
  | inline (text : String)
deriving DecidableEq, Repr

/-- The commands, with what is given for each. -/
inductive Command where
  /-- Write a settings file. -/
  | init (output : String) (force : Bool)
  /-- Run a source text once. -/
  | exec (source : SourceArgument) (packages : List String)
  /-- Compile a source text without a run. -/
  | validate (source : SourceArgument)
  /-- Run the lines of the standard input in one session. -/
  | repl (packages : List String)
  /-- Show the settings that hold. -/
  | showConfig
deriving DecidableEq, Repr

/-- A command with the options that belong to every command. -/
structure Invocation where
  config : Option String
  preset : Option Preset
  json : Bool
  verbose : Bool
  command : Command
deriving DecidableEq, Repr

/-- What is asked for. -/
inductive Demand where
  | invoke (i : Invocation)
  | version
  /-- Help, on everything or on a command. -/
  | help (command : Option String)
  | misuse
deriving DecidableEq, Repr

/-- The presets, by the names that an option takes. -/
def presetOf? : String → Option Preset
  | "production" => some .production
  | "permissive" => some .permissive
  | _ => none

/-- The values that an option takes: paths are not empty, and presets are known. -/
def accepts : Name → String → Bool
  | .config, value => value ≠ ""
  | .output, value => value ≠ ""
  | .preset, value => (presetOf? value).isSome
  | _, _ => true

/-- The options that belong to every command. -/
def sharedOptions : List Name := [.config, .preset, .json, .verbose, .help]

def commandNames : List String := ["init", "exec", "validate", "repl", "show-config", "help"]

/-- What may stand before a command. -/
def outerGrammar : Grammar := ⟨sharedOptions ++ [.version], commandNames, 0, accepts⟩

/-- What may stand behind a command. -/
def commandGrammar (name : String) : Grammar :=
  match name with
  | "init" => ⟨[.output, .force] ++ sharedOptions, [], 0, accepts⟩
  | "exec" => ⟨[.eval, .package] ++ sharedOptions, [], 1, accepts⟩
  | "validate" => ⟨[.eval] ++ sharedOptions, [], 1, accepts⟩
  | "repl" => ⟨[.package] ++ sharedOptions, [], 0, accepts⟩
  | _ => ⟨sharedOptions, [], 0, accepts⟩

/-- A path that is a dash stands for the standard input, also when separators and segments
that stay in place follow. -/
def isDash (path : String) : Bool :=
  match Text.splitAt '/' path with
  | "-" :: rest => rest.all fun s => s == "" || s == "."
  | _ => false

/-- The one source that is given, as a word or as a text. -/
def sourceOf? (g : Given) : Option SourceArgument :=
  match g.words, g.value? .eval with
  | [], some text => some (.inline text)
  | [path], none => some (if isDash path then .standardInput else .file path)
  | _, _ => none

/-- The settings file that is written when none is named. -/
def defaultOutput : String := "replcube.toml"

/-- The command of a name with what is given for it. -/
def commandOf? (name : String) (g : Given) : Option Command :=
  match name with
  | "init" => some (.init ((g.value? .output).getD defaultOutput) (g.has .force))
  | "exec" => (sourceOf? g).map fun source => .exec source (g.values .package)
  | "validate" => (sourceOf? g).map .validate
  | "repl" => some (.repl (g.values .package))
  | "show-config" => some .showConfig
  | _ => none

/-- The value of an option, behind the command or before it. -/
def shared (outer inner : Given) (n : Name) : Option String :=
  (inner.value? n).or (outer.value? n)

/-- The demand of a command and the words behind it. -/
def demandOf (outer : Given) (name : String) (rest : List String) : Demand :=
  match (commandGrammar name).read rest with
  | .all inner =>
    match commandOf? name inner with
    | some command =>
      .invoke
        { config := shared outer inner .config
          preset := (shared outer inner .preset).bind presetOf?
          json := outer.has .json || inner.has .json
          verbose := outer.has .verbose || inner.has .verbose
          command := command }
    | none => .misuse
  | .stopped _ => .help (some name)
  | _ => .misuse

/-- The demand for help on what the words behind it name. -/
def helpDemand : List String → Demand
  | [] => .help none
  | [name] => if commandNames.contains name then .help (some name) else .misuse
  | _ => .misuse

/-- What a command line asks for. -/
def Demand.ofWords (words : List String) : Demand :=
  match outerGrammar.read words with
  | .command _ "help" rest => helpDemand rest
  | .command outer name rest => demandOf outer name rest
  | .stopped .version => .version
  | .stopped _ => .help none
  | _ => .misuse

end ScriptHost.CommandLine
