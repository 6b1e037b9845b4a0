import ScriptHost.CommandLine.Program
import Std.Time.DateTime.Timestamp

/-!
# The command

The standard streams, the files, the clock and the source of chance that a command line is
run with. Nothing is decided here.
-/

namespace ScriptHost.CommandLine

/-- The nanoseconds since the start of 1970. -/
def currentNanos : IO Int := do
  let now ← Std.Time.Timestamp.now
  return now.toNanosecondsSinceUnixEpoch.toInt

/-- The bytes of memory in use, if they can be told. -/
def memoryInUse : IO (Option Nat) := do
  try
    let written ← IO.FS.readFile "/proc/self/statm"
    return ((written.splitOn " ")[1]?.bind String.toNat?).map (· * 4096)
  catch _ => return none

/-- The content of a file, if it can be read. -/
def contentOf (path : String) : IO (Option String) := do
  try
    return some (← IO.FS.readFile path)
  catch _ => return none

/-- What is in a directory, down to a depth, without the contents of files. What cannot be
listed counts as a file. -/
def listing : Nat → IO.FS.DirEntry → IO FileTree
  | 0, _ => return .file ""
  | depth + 1, place => do
    try
      let mut known := []
      for entry in ← place.path.readDir do
        known := known ++ [(entry.fileName, ← listing depth entry)]
      return .dir known
    catch _ => return .file ""

/-- The directory at a path, down to a depth. -/
def directoryAt (depth : Nat) (path : String) : IO (Option FileTree) := do
  if path = "" then return none
  match ← listing depth ⟨path, ""⟩ with
  | .dir entries => return some (.dir entries)
  | .file _ => return none

/-- The files with the one at a path added, or the directory there unless it is known. -/
def withPath (files : FileTree) (path : String) : IO FileTree := do
  match ← contentOf path with
  | some content => return files.write path content
  | none =>
    if (← directoryAt 1 path).isSome then return files.makeDir path else return files

/-- The paths on the way to the end of a path, and the path itself. -/
def pathsTo (path : String) : List String :=
  let root := if FileTree.startsAtRoot path then "/" else ""
  let inner := FileTree.innerSegments path
  (List.range inner.length).map (fun n => root ++ "/".intercalate (inner.take n)) ++ [path]

/-- The paths that a command looks at. -/
def pathsOf (i : Invocation) : List String :=
  let settings := i.config.toList.flatMap fun path =>
    path :: (Settings.completions path).map (·.2)
  let given :=
    match i.command with
    | .init output _ => [output]
    | .exec (.file path) _ | .validate (.file path) => [path]
    | _ => []
  (settings ++ given).flatMap pathsTo

/-- The files with all that is at some paths. -/
def withPaths (files : FileTree) (paths : List String) : IO FileTree := paths.foldlM withPath files

/-- The files with the packages in a directory. -/
def withPackages (files : FileTree) (dir : String) : IO FileTree := do
  let files ← withPaths files (pathsTo dir)
  match ← directoryAt 4 dir with
  | some found => return files.put found (FileTree.names dir)
  | none => return files

/-- The files that a command can see: the packages, and those that it looks at. -/
def filesFor (i : Invocation) : IO FileTree := do
  let files ← withPaths (.dir []) (pathsOf i)
  match (settingsOf i files).toOption.bind (·.packages.cacheDir) with
  | some dir =>
    let packages ← withPackages (.dir []) dir
    withPaths packages (pathsOf i)
  | none => return files

/-- A number of sixteen random bytes. -/
def chance : IO Nat := do
  let bytes ← IO.getRandomBytes 16
  return bytes.foldl (fun n b => n * 256 + b.toNat) 0

/-- A store at the current time whose ids start anywhere. -/
def freshSessions : IO SessionStore := do
  let seed ← chance
  return .new (← currentNanos) fun n => SessionId.ofNumber (seed + n)

/-- Write a transcript to the standard streams. -/
def write (said : Transcript) : IO Unit := do
  for chunk in said do
    match chunk with
    | .out text => IO.print text
    | .err text => IO.eprint text
  (← IO.getStdout).flush

/-- Let time pass as it has in the model of it. -/
def pass (ms : Nat) : IO Unit := IO.sleep (UInt32.ofNat (min ms (0xffffffff)))

/-- End a dialogue. -/
def takeLeave (repl : Repl) : IO UInt32 := do
  match repl.farewell with
  | none => return 0
  | some error =>
    write [.err error.render]
    return 1

/-- Read lines and answer them until the dialogue ends. -/
partial def converseWith (repl : Repl) (input : IO.FS.Stream) : IO UInt32 := do
  write [Repl.prompt]
  let written ← input.getLine
  if written.isEmpty then return ← takeLeave repl
  let repl := repl.awake (← currentNanos)
  match repl.take written with
  | .next repl said elapsedMs =>
    pass elapsedMs
    write said
    converseWith repl input
  | .quit => takeLeave repl
  | .fail error =>
    write [.err error.render]
    return 1

/-- The whole standard input, if the command reads it as a source text. -/
def inputFor (i : Invocation) : IO String := do
  match i.command with
  | .exec .standardInput _ | .validate .standardInput => (← IO.getStdin).readToEnd
  | _ => return ""

/-- Write the settings file that a command has made. -/
def writeSettings (i : Invocation) (o : Outcome) : IO Unit := do
  match i.command with
  | .init output _ =>
    if o.exit = 0 then
      IO.FS.writeFile output ((o.files.read? output).getD "")
  | _ => return ()

end ScriptHost.CommandLine

open ScriptHost ScriptHost.CommandLine

def main (words : List String) : IO UInt32 := do
  let demand := Demand.ofWords words
  let store ← freshSessions
  let memory ← memoryInUse
  let mut environment : Environment := ⟨.dir [], "", store, [memory]⟩
  if let .invoke i := demand then
    let files ← filesFor i
    let input ← inputFor i
    environment := ⟨files, input, store, [memory]⟩
  match start demand environment with
  | .ended o =>
    pass o.elapsedMs
    if let .invoke i := demand then writeSettings i o
    write o.said
    return UInt32.ofNat o.exit
  | .dialogue said repl =>
    write said
    converseWith repl (← IO.getStdin)
