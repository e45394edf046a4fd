/-
The messages of the client. One is written as an object that names its kind
under `type`; it is read from such an object, with the keys in any order, or
from an array that starts with the kind. The kind is judged where it stands,
all else when the whole message has been read.
-/
import FarmClient.Wire.Farm

namespace FarmClient

/-- How the server paces a run. -/
inductive ExecMode where
  /-- It waits for an acknowledgement after every event. -/
  | autoStep
  /-- It executes one instruction for each step message. -/
  | manualStep
deriving DecidableEq

inductive ClientMessage where
  /-- Begins a session. -/
  | start (mode : ExecMode) (code : String)
  /-- Permits the next step of an auto-step session. -/
  | ack
  /-- Asks for one manual step. -/
  | step
  /-- Cancels the session. -/
  | abort
deriving DecidableEq

namespace Wire

open Json (Value Mismatch Fault Tree Items)

def modeNames : List String := ["auto_step", "manual_step"]

def modeOf : Fin modeNames.length → ExecMode
  | ⟨0, _⟩ => .autoStep
  | ⟨_, _⟩ => .manualStep

def modeVal : ExecMode → Fin modeNames.length
  | .autoStep => ⟨0, by decide⟩
  | .manualStep => ⟨1, by decide⟩

theorem modeOf_modeVal (m : ExecMode) : modeOf (modeVal m) = m := by
  cases m <;> rfl

/-- The kinds of message, by their names on the wire. -/
def clientKinds : List String := ["start", "ack", "step", "abort"]

def startFields : Fields :=
  .cons { key := "mode" } (.name modeNames) <|
  .cons { key := "code" } .text .nil

def startOf : startFields.Val → ClientMessage
  | (mode, code, ()) => .start (modeOf mode) code

/-- What stands in a message beside its kind. -/
inductive Payload where
  | entries (entries : List (String × Value))
  | items (items : List Value)

/-- A message of a kind that carries nothing. -/
def bareMessage (m : ClientMessage) : Payload → Except Mismatch ClientMessage
  | .entries _ => .ok m
  | .items items => (noMore 0 items).map fun () => m

def startMessage : Payload → Except Mismatch ClientMessage
  | .entries entries => (startFields.ofEntries entries).map startOf
  | .items items => do
    let (v, left) ← startFields.ofValues (startFields.wanted "struct variant ClientMessage::Start") 0 items
    noMore (items.length - left.length) left
    return startOf v

def clientMessageOf : Fin clientKinds.length → Payload → Except Mismatch ClientMessage
  | ⟨0, _⟩, p => startMessage p
  | ⟨1, _⟩, p => bareMessage .ack p
  | ⟨2, _⟩, p => bareMessage .step p
  | ⟨_, _⟩, p => bareMessage .abort p

def kindOf (t : Tree) : Except Fault (Fin clientKinds.length) :=
  stringOf "variant identifier" (toName clientKinds) t

/-- The title of the whole in fault reports. -/
def clientTitle : String := "internally tagged enum ClientMessage"

/-- What has been read of a message's entries: its kind, and the others in reverse. -/
structure Envelope where
  kind : Option (Fin clientKinds.length)
  others : List (String × Value)

def Envelope.put (e : Envelope) (key : String) (settled : Nat) (t : Tree) : Except Fault Envelope :=
  if key = "type" then
    match e.kind with
    | some _ => .error (.mismatch (.duplicateField "type") settled)
    | none => (kindOf t).map fun kind => { e with kind := some kind }
  else (t.value (Json.depthLimit - 1)).map fun v => { e with others := (key, v) :: e.others }

/-- Reads a message; a complaint about what it carries has the offset of its end. -/
def clientMessageOfTree : Tree → Except Fault ClientMessage
  | .object _ entries => do
    let (e, stop) ← entries.fold Envelope.put ⟨none, []⟩
    match e.kind with
    | none => throw (.mismatch (.missingField "type") stop)
    | some kind => complain stop (clientMessageOf kind (.entries e.others.reverse))
  | .array _ (.close stop) => throw (.mismatch (.missingField "type") stop)
  | .array start items => do
    let (kind, rest) ← nextItem kindOf 0 clientTitle items
    let others ← rest.values (Json.depthLimit - 1)
    complain start (clientMessageOf kind (.items others))
  | t => throw (t.refuse clientTitle)

end Wire

/-- Reads a client message from a text. -/
def ClientMessage.read (text : List Char) : Except Json.Fault ClientMessage :=
  (Json.Document.read text).decode Wire.clientMessageOfTree

/-- The name of a message's kind on the wire. -/
def ClientMessage.kind : ClientMessage → String
  | .start _ _ => "start"
  | .ack => "ack"
  | .step => "step"
  | .abort => "abort"

def ClientMessage.toValue (m : ClientMessage) : Json.Value :=
  .object (("type", .string m.kind) ::
    match m with
    | .start mode code => Wire.startFields.toEntries (Wire.modeVal mode, code, ())
    | _ => [])

/-- The frame a message is sent as. -/
def ClientMessage.toJson (m : ClientMessage) : String :=
  m.toValue.text

end FarmClient
