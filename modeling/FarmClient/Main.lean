/-
The command line. It looks for the configuration file and the script, hands
them to the program and prints what comes of it. No transport is linked here:
to this program every server is out of reach.
-/
import FarmClient.Terminal.Program

namespace FarmClient.Terminal

/-- Where configuration files are kept: at the path set for them if that is
absolute, or else below the home directory. -/
def configHome (configured home : Option String) : String :=
  match configured.filter (·.startsWith "/"), home with
  | some path, _ => path
  | none, some home => home ++ "/.config"
  | none, none => "."

def configPath (configured home : Option String) : String :=
  configHome configured home ++ "/cyberfarm/config.toml"

/-- The script that an argument list names. -/
def scriptPath? (args : List String) : Option String :=
  match Command.ofArguments args with
  | .ok (.run args) => some args.script
  | _ => none

/-- The bytes of a file, if it can be read. -/
def fileBytes (path : String) : IO (Option ByteArray) := do
  try
    return some (← IO.FS.readBinFile path)
  catch _ => return none

/-- The text of a file, if it can be read and is UTF-8. -/
def fileText (path : String) : IO (Option String) := do
  return (← fileBytes path).bind String.fromUTF8?

end FarmClient.Terminal

open FarmClient.Terminal in
def main (args : List String) : IO UInt32 := do
  let config ← fileBytes (configPath (← IO.getEnv "XDG_CONFIG_HOME") (← IO.getEnv "HOME"))
  let script ← match scriptPath? args with
    | some path => fileText path
    | none => pure none
  let outcome := program args ⟨config, script, .absent⟩
  IO.print outcome.stdout
  IO.eprint outcome.stderr
  return outcome.code.toUInt32
