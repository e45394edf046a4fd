/-
Why a payload cannot be understood.
-/
import FarmClient.Json.Fault

namespace FarmClient

/-- Why a payload of the server cannot be understood. -/
inductive MessageError where
  | malformed (report : Json.Report)
  | missingType
  | unknownType (kind : String)

def MessageError.text : MessageError → String
  | .malformed r => "malformed message: " ++ r.text
  | .missingType => "message has no type tag"
  | .unknownType kind => "unknown message type `" ++ kind ++ "`"

/-- The same error without the place in the text. -/
def MessageError.withoutPlace : MessageError → MessageError
  | .malformed r => .malformed ⟨r.cause, none⟩
  | e => e

end FarmClient
