import ScriptHost.CommandLine.Invocation

/-!
# Help

What can be said on the command line, in two columns.
-/

namespace ScriptHost.CommandLine.Help

/-- Two columns, the second aligned. -/
def columns (rows : List (String × String)) : List String :=
  let width := (rows.map (·.1.length)).foldl max 0
  rows.map fun (left, right) =>
    "  " ++ left ++ String.ofList (List.replicate (width - left.length + 2) ' ') ++ right

/-- What a command does. -/
def about : String → String
  | "init" => "Initialize a new configuration file"
  | "exec" => "Execute a script once in a throwaway session"
  | "validate" => "Compile a script without running it"
  | "repl" => "Interactive session; one submission per line"
  | "show-config" => "Show the effective configuration"
  | "help" => "Print this message or the help of the given subcommand(s)"
  | _ => "Run untrusted script fragments under a security policy"

/-- An option as it is written and what it does. -/
def row : Name → String × String
  | .config => ("-c, --config <CONFIG>", "Path to configuration file")
  | .preset =>
    ("    --preset <PRESET>",
      "Replace the configured policy with a preset [possible values: production, permissive]")
  | .json => ("    --json", "Print results as JSON")
  | .verbose => ("-v, --verbose", "Enable verbose output")
  | .help => ("-h, --help", "Print help")
  | .version => ("-V, --version", "Print version")
  | .output =>
    ("-o, --output <OUTPUT>", "Output path (default: replcube.toml) [default: replcube.toml]")
  | .force => ("-f, --force", "Overwrite existing file")
  | .eval => ("-e, --eval <EVAL>", "Script text given inline")
  | .package => ("-p, --package <PACKAGES>", "Package reference (Name or Name@version), repeatable")

def optionLines (options : List Name) : List String :=
  "Options:" :: columns (options.map row)

/-- The help on everything. -/
def overview : List String :=
  [about "", "", "Usage: replcube [OPTIONS] <COMMAND>", "", "Commands:"] ++
    columns (commandNames.map fun name => (name, about name)) ++
    [""] ++ optionLines outerGrammar.options

/-- The words behind a command's name, apart from options. -/
def argumentLines (name : String) : List String :=
  if (commandGrammar name).words = 0 then []
  else ["Arguments:", "  [FILE]  Script file (\"-\" for stdin)", ""]

/-- The help on a command. -/
def onCommand (name : String) : List String :=
  let argument := if (commandGrammar name).words = 0 then "" else " [FILE]"
  [about name, "", "Usage: replcube " ++ name ++ " [OPTIONS]" ++ argument, ""] ++
    argumentLines name ++ optionLines (commandGrammar name).options

/-- The help that is asked for. -/
def text (command : Option String) : String :=
  String.join (((command.map onCommand).getD overview).map (· ++ "\n"))

end ScriptHost.CommandLine.Help
