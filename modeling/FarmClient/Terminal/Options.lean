/-
What a run is to do: flags of the command line go before the configuration
file. From the server's address come the two addresses that are used.
-/
import FarmClient.Terminal.Args
import FarmClient.Terminal.Config
import FarmClient.Terminal.Url
import FarmClient.Text.Quoted

namespace FarmClient.Terminal

/-- A server's address that cannot be used. -/
structure ServerUrlError where
  url : String
  reason : UrlError

def ServerUrlError.text (e : ServerUrlError) : String :=
  "invalid server url " ++ quoted e.url ++ ": " ++ e.reason.text

/-- Where the bootstrap payload is fetched and where scripts run. -/
structure Endpoints where
  bootstrap : Url
  run : Url

/-- The scheme of the script channel beside a web scheme. -/
def channelScheme? (scheme : String) : Option String :=
  if scheme = "http" then some "ws" else if scheme = "https" then some "wss" else none

/-- The endpoints of a server. -/
def Endpoints.ofUrl (base : Url) : Except UrlError Endpoints := do
  let some scheme := channelScheme? base.scheme | throw (.unsupportedScheme base.scheme)
  let bootstrap ← base.join "/api/bootstrap"
  let run ← base.join "/ws/run"
  let some run := run.withScheme? scheme | throw .cannotSwitchScheme
  return ⟨bootstrap, run⟩

/-- The endpoints of the server at an address. -/
def Endpoints.ofBaseWith (form : NameForm) (base : String) : Except ServerUrlError Endpoints :=
  match (Url.parseWith form base).bind Endpoints.ofUrl with
  | .ok e => .ok e
  | .error reason => .error ⟨base, reason⟩

def Endpoints.ofBase (base : String) : Except ServerUrlError Endpoints := Endpoints.ofBaseWith asciiForm base

structure RunOptions where
  script : String
  mode : RunMode
  endpoints : Endpoints
  interval : Option Nat

/-- The options of a command line and a configuration. -/
def RunOptions.resolve (args : RunArgs) (config : Config) : Except ServerUrlError RunOptions := do
  let endpoints ← Endpoints.ofBase (args.server.getD config.url)
  return ⟨args.script, if args.manual then .manual else config.mode, endpoints,
    args.interval <|> config.interval⟩

end FarmClient.Terminal
