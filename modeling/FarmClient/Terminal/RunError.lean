/-
Why a run comes to no good end, from the script that cannot be read to the
connection that breaks.
-/
import FarmClient.Terminal.Url

namespace FarmClient.Terminal

/-- The status of a response: its code, and the words the server put beside it. -/
structure HttpStatus where
  code : Nat
  reason : String
deriving DecidableEq

namespace HttpStatus

def isClientError (s : HttpStatus) : Bool := 400 ≤ s.code && s.code < 500

def isServerError (s : HttpStatus) : Bool := 500 ≤ s.code && s.code < 600

def text (s : HttpStatus) : String :=
  Decimal.natText s.code ++ (if s.reason = "" then "" else " " ++ s.reason)

end HttpStatus

inductive RunError where
  | unreadableScript (path : String)
  | requestFailed (url : Url)
  | badStatus (status : HttpStatus) (url : Url)
  | invalidPayload
  | invalidConfig
  | connectFailed (url : Url)
  | sendFailed
  | serverClosed
  | connectionBroken
deriving DecidableEq

def RunError.text : RunError → String
  | .unreadableScript path => "failed to read " ++ path
  | .requestFailed url => "bootstrap request to " ++ url.text ++ " failed"
  | .badStatus status url =>
    "HTTP status " ++ (if status.isClientError then "client" else "server") ++ " error (" ++
      status.text ++ ") for url (" ++ url.text ++ ")"
  | .invalidPayload => "invalid bootstrap payload"
  | .invalidConfig => "invalid session config"
  | .connectFailed url => "failed to connect to " ++ url.text
  | .sendFailed => "failed to send to server"
  | .serverClosed => "server closed the connection"
  | .connectionBroken => "websocket error"

end FarmClient.Terminal
