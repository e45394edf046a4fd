/-
The command-line program as a function of its arguments and of what it finds
around it: the configuration file, the script and the server. A fault ends
the program with its text on the error channel.
-/
import FarmClient.Terminal.Rehearsal

namespace FarmClient.Terminal

/-- What the request for the bootstrap payload comes to. -/
inductive Fetched where
  | failed
  | answered (status : HttpStatus) (body : String)
deriving DecidableEq

/-- A server and what it will do. -/
structure Server where
  bootstrap : Fetched
  /-- Whether the script channel opens. -/
  accepts : Bool
  cues : List Cue

/-- No server at all. -/
def Server.absent : Server := ⟨.failed, false, []⟩

/-- What a program finds around it. -/
structure Surroundings where
  /-- The configuration file at its default path. -/
  config : Option ByteArray
  /-- The text of the script's file. -/
  script : Option String
  server : Server

/-- What a run came to: frames and lines, and its ending, if it ended. -/
structure RunOutcome where
  report : Report
  ending : Option (Except RunError Unit)

def RunOutcome.refused (e : RunError) : RunOutcome := ⟨.empty, some (.error e)⟩

/-- The payload in a response; any status that is no error will do. -/
def Fetched.payload (url : Url) : Fetched → Except RunError Bootstrap
  | .failed => .error (.requestFailed url)
  | .answered status body =>
    if status.isClientError || status.isServerError then .error (.badStatus status url)
    else
      match Bootstrap.read body.toList with
      | .ok b => .ok b
      | .error _ => .error .invalidPayload

/-- The application of a payload, with its farm if that fits. -/
def sessionApp (b : Bootstrap) (interval : Option Nat) : Except RunError (App Float) :=
  let made := match interval with
    | some interval => App.ofBootstrapWithInterval b interval
    | none => App.ofBootstrap b
  made.mapError fun _ => .invalidConfig

/-- What has to be there before a run can begin: the script's text and the application. -/
def RunOptions.prepare (o : RunOptions) (s : Surroundings) : Except RunError (String × App Float) := do
  let some code := s.script | throw (.unreadableScript o.script)
  let payload ← s.server.bootstrap.payload o.endpoints.bootstrap
  let app ← sessionApp payload o.interval
  if s.server.accepts then return (code, app) else throw (.connectFailed o.endpoints.run)

/-- A whole run. -/
def RunOptions.run (o : RunOptions) (s : Surroundings) : RunOutcome :=
  match o.prepare s with
  | .error e => .refused e
  | .ok (code, app) =>
    let r := Rehearsal.whole app code o.mode s.server.cues
    ⟨r.report, r.ending⟩

/-- What a program leaves behind. -/
structure Outcome where
  stdout : String
  stderr : String
  code : Nat
  /-- The frames the server got. -/
  received : List String

namespace Outcome

def success (stdout : String) : Outcome := ⟨stdout, "", 0, []⟩

/-- The text of a fault on the error channel. -/
def faultText (text : String) : String := "Error: " ++ text ++ "\n"

def failure (text : String) : Outcome := ⟨"", faultText text, 1, []⟩

def ofRun (r : RunOutcome) : Outcome :=
  match r.ending with
  | some (.error e) => ⟨r.report.stdout, faultText e.text, 1, r.report.sent⟩
  | _ => ⟨r.report.stdout, "", 0, r.report.sent⟩

end Outcome

/-- The program, from its arguments without its own name. -/
def program (args : List String) (s : Surroundings) : Outcome :=
  match Command.ofArguments args with
  | .error e => .failure e.text
  | .ok .help => .success helpText
  | .ok .version => .success versionText
  | .ok (.run args) =>
    match Config.load s.config with
    | .error _ => .failure "failed to load config"
    | .ok config =>
      match RunOptions.resolve args config with
      | .error e => .failure e.text
      | .ok options => .ofRun (options.run s)

end FarmClient.Terminal
