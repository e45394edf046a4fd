/-
The command line. The arguments of `run` are read from left to right in
groups: a flag, an option with the argument after it, or a script. Of
repeated groups the last counts.
-/
import FarmClient.Decimal.Digits

namespace FarmClient.Terminal

structure RunArgs where
  script : String
  /-- Step by hand, whatever the configuration says. -/
  manual : Bool
  server : Option String
  interval : Option Nat
deriving DecidableEq

inductive Command where
  | run (args : RunArgs)
  | help
  | version
deriving DecidableEq

inductive ArgsError where
  | missingCommand
  | unknownCommand (command : String)
  | missingScript
  | missingValue (option : String)
  | invalidInterval (value : String)
  | unknownOption (option : String)
deriving DecidableEq

def ArgsError.text : ArgsError → String
  | .missingCommand => "missing command, try `cyberfarm --help`"
  | .unknownCommand command => "unknown command `" ++ command ++ "`"
  | .missingScript => "`run` needs a script path"
  | .missingValue option => option ++ " needs a value"
  | .invalidInterval value => "invalid interval `" ++ value ++ "`, expected milliseconds"
  | .unknownOption option => "unknown option `" ++ option ++ "`"

/-- An interval: decimal digits, a plus sign before them or not, below `2^64`. -/
def interval? (text : String) : Option Nat :=
  let ds := match text.toList with
    | '+' :: ds => ds
    | ds => ds
  let n := Decimal.ofDigits ds
  if ds.isEmpty ∨ !ds.all Char.isDigit ∨ UInt64.size ≤ n then none else some n

/-- What has been read of the arguments of `run`. -/
structure PartialArgs where
  script : Option String
  manual : Bool
  server : Option String
  interval : Option Nat

def PartialArgs.none : PartialArgs := ⟨.none, false, .none, .none⟩

def isManualFlag (arg : String) : Bool := arg = "--manual" || arg = "-m"
def isServerOption (arg : String) : Bool := arg = "--server" || arg = "-s"
def isIntervalOption (arg : String) : Bool := arg = "--interval" || arg = "-i"

/-- Reads the groups of an argument list on top of what has been read. -/
def PartialArgs.read (p : PartialArgs) : List String → Except ArgsError PartialArgs
  | [] => .ok p
  | arg :: rest =>
    if isManualFlag arg then { p with manual := true }.read rest
    else if isServerOption arg then
      match rest with
      | [] => .error (.missingValue "--server")
      | value :: rest => { p with server := some value }.read rest
    else if isIntervalOption arg then
      match rest with
      | [] => .error (.missingValue "--interval")
      | value :: rest =>
        match interval? value with
        | .none => .error (.invalidInterval value)
        | some n => { p with interval := some n }.read rest
    else if arg.toList.head? = some '-' then .error (.unknownOption arg)
    else { p with script := some arg }.read rest

/-- The arguments of `run`. -/
def RunArgs.parse (args : List String) : Except ArgsError RunArgs := do
  let p ← PartialArgs.none.read args
  match p.script with
  | .none => throw .missingScript
  | some script => return ⟨script, p.manual, p.server, p.interval⟩

/-- The command of an argument list without the program's name. -/
def Command.ofArguments : List String → Except ArgsError Command
  | [] => .error .missingCommand
  | command :: rest =>
    if command ∈ ["--help", "-h", "help"] then .ok .help
    else if command ∈ ["--version", "-v"] then .ok .version
    else if command = "run" then (RunArgs.parse rest).map .run
    else .error (.unknownCommand command)

/-- The command of an argument list that starts with the program's name. -/
def Command.parse (argv : List String) : Except ArgsError Command :=
  Command.ofArguments (argv.drop 1)

def version : String := "0.1.0"

/-- What `--version` prints. -/
def versionText : String := "cyberfarm " ++ version ++ "\n"

/-- What `--help` prints. -/
def helpText : String :=
  String.join <| List.map (· ++ "\n") [
    "cyberfarm - run farm scripts against a cyberfarm server",
    "",
    "USAGE:",
    "    cyberfarm run <SCRIPT> [OPTIONS]",
    "",
    "RUN OPTIONS:",
    "    -m, --manual          Step through the script one instruction at a time",
    "    -s, --server URL      Server base URL (default http://127.0.0.1:8000)",
    "    -i, --interval MS     Override the auto-step pacing interval",
    "",
    "CONTROLS (while running):",
    "    p        pause / resume (auto mode)",
    "    s, ⏎     execute one step (manual mode)",
    "    q        abort",
    "",
    "GLOBAL OPTIONS:",
    "    -h, --help       Print help information",
    "    -v, --version    Print version",
    "",
    "CONFIG:",
    "    ~/.config/cyberfarm/config.toml"]

end FarmClient.Terminal
