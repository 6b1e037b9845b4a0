import ScriptHost.CommandLine.Transcript
import ScriptHost.Host.Serve
import ScriptHost.Json.Printer
import ScriptHost.Report
import ScriptHost.Settings.Launch

/-!
# The dialogue

Lines are read one at a time. A line behind a colon is a command; any other is a submission
to the session of the dialogue, which begins with the first submission or the first package.
-/

namespace ScriptHost.CommandLine

/-- A dialogue: the host, the session so far, and the form of replies. -/
structure Repl where
  host : Host
  session : Option String
  json : Bool

/-- What is made of a line. -/
inductive Turn where
  /-- The dialogue goes on, after so many milliseconds. -/
  | next (repl : Repl) (said : Transcript) (elapsedMs : Nat)
  | quit
  | fail (e : CommandError)

namespace Repl

def version : String := "0.1.0"

/-- The first line of a dialogue. -/
def greeting : Chunk := line ("replcube " ++ version ++ " (:help for commands)")

/-- The text before each line that is read. -/
def prompt : Chunk := .out "> "

def helpLines : Transcript :=
  [line ":reset            discard the current session",
    line ":state            show engine, policy and session state",
    line ":sessions         list active sessions",
    line ":load Name[@ver]  add a package to the session",
    line ":quit             leave"]

/-- The dialogue goes on at once. -/
def say (r : Repl) (said : Transcript) : Turn := .next r said 0

/-- The session of the dialogue; without one it begins now. -/
def openSession (r : Repl) : Repl × String :=
  match r.session with
  | some id => (r, id)
  | none =>
    match r.host.store.create? with
    | some (store, id) => ({ r with host := { r.host with store := store }, session := some id }, id)
    | none => (r, "")

/-- Attach packages to the session. -/
def attach (r : Repl) (packages : List Reference) : Repl × Host.Served LoadReply :=
  let (r, id) := r.openSession
  let served := r.host.load id packages
  ({ r with host := served.host }, served)

/-- The diagnostics of packages that were attached. -/
def attachErrors (reply : LoadReply) : Transcript :=
  diagnosticLines (reply.errors ++ reply.warnings)

/-- Attach a package that is asked for in a line. -/
def load (r : Repl) (spec : String) : Turn :=
  match Reference.parse? spec with
  | none => r.say [.err "usage: :load Name[@version]\n"]
  | some reference =>
    let (r, served) := r.attach [reference]
    .next r
      (attachErrors served.reply ++ served.reply.added.map fun a => line ("Loaded " ++ a.render))
      served.elapsedMs

/-- Remove the session. -/
def reset (r : Repl) : Repl :=
  match r.session with
  | some id => { r with host := (r.host.reset (some id)).1, session := none }
  | none => r

/-- Show the host and the session. -/
def showState (r : Repl) : Turn :=
  match r.host.inspect r.session with
  | (host, .ok survey) => say { r with host := host } [line (Report.survey survey).pretty]
  | (_, .error e) => .fail ⟨"failed to inspect session", [e.message]⟩

/-- A command: its name and what follows. -/
def command (r : Repl) (name rest : String) : Turn :=
  match name with
  | "quit" | "exit" => .quit
  | "help" => r.say helpLines
  | "reset" => r.reset.say [line "Session reset"]
  | "state" => r.showState
  | "sessions" => r.say [line (Json.arr (r.host.list.map Report.session)).pretty]
  | "load" => r.load rest
  | other => r.say [.err ("unknown command ':" ++ other ++ "' (try :help)\n")]

/-- The request for a submission. -/
def request (r : Repl) (source : String) : Request := ⟨source, r.session, [], true⟩

/-- Run a submission. -/
def submit (r : Repl) (source : String) : Turn :=
  let served := r.host.execute (r.request source)
  let reply := served.reply
  let said :=
    if r.json then [line (Report.reply reply served.elapsedMs).compact] else replyLines reply
  .next { r with host := served.host, session := r.session.or reply.session } said
    served.elapsedMs

/-- The name of a command and the text behind the blanks after it. -/
def splitCommand (cs : List Char) : String × String :=
  (String.ofList (cs.takeWhile (!Text.isBlank ·)),
    Text.trim (String.ofList (cs.dropWhile (!Text.isBlank ·))))

/-- Take a line. -/
def take (r : Repl) (written : String) : Turn :=
  match (Text.trim written).toList with
  | [] => r.say []
  | ':' :: cs => r.command (splitCommand cs).1 (splitCommand cs).2
  | cs => r.submit (String.ofList cs)

/-- The failure at the end of a dialogue whose sweeper has crashed. -/
def farewell (r : Repl) : Option CommandError :=
  match r.host.launchSweeper with
  | .ok _ => none
  | .error crash =>
    some ⟨"session sweeper panicked", ["task panicked with message \"" ++ crash.message ++ "\""]⟩

/-- How a dialogue over given lines goes from here: what is said, and the failure that ends
it, if one does. -/
def talk (r : Repl) : List String → Transcript × Option CommandError
  | [] => ([prompt], r.farewell)
  | written :: rest =>
    match r.take written with
    | .next r said _ =>
      let (after, failure) := r.talk rest
      (prompt :: said ++ after, failure)
    | .quit => ([prompt], r.farewell)
    | .fail e => ([prompt], some e)

/-- Sweep idle sessions at a clock reading, if it is later than the last one. -/
def awake (r : Repl) (now : Instant) : Repl :=
  let store := r.host.store
  let store := { store with clock := max store.clock now }
  let ttl := r.host.setup.tuning.sessionTtlMs * 1000000
  { r with host := { r.host with store := (store.sweepAt store.clock ttl).1 } }

end Repl

end ScriptHost.CommandLine
