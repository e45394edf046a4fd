/-
The messages of the server. A text is first read as any JSON value, and only
then, by the kind it names under `type`, as a message: a missing kind, an
unknown kind and a known kind with the wrong payload are told apart.
-/
import FarmClient.Wire.Farm
import FarmClient.Wire.MessageError

namespace FarmClient

/-- The effect of one executed instruction. -/
structure ExecEvent where
  /-- The line of the program, from 1. -/
  line : UInt32
  x : Int64
  y : Int64
  /-- The gold after the instruction. -/
  gold : Int64
deriving DecidableEq

/-- What is reported when an auto-step script finishes. -/
structure ScriptResult where
  cost : Float
  gain : Float
  roi : Float
  bestRoi : Float
  newRecord : Bool

inductive ServerMessage where
  | event (event : ExecEvent)
  /-- A snapshot that replaces the farm. -/
  | farmState (farm : Farm)
  | done (result : Option ScriptResult)
  /-- A notice. -/
  | error (message : String) (line : Option UInt32)

namespace Wire

open Json (Value Mismatch)

def eventFields : Fields :=
  .cons { key := "line" } .u32 <|
  .cons { key := "x" } .i64 <|
  .cons { key := "y" } .i64 <|
  .cons { key := "gold" } .i64 .nil

def eventOf : eventFields.Val → ExecEvent
  | (line, x, y, gold, ()) => ⟨line, x, y, gold⟩

def eventVal (e : ExecEvent) : eventFields.Val :=
  (e.line, e.x, e.y, e.gold, ())

def resultFields : Fields :=
  .cons { key := "cost" } .f64 <|
  .cons { key := "gain" } .f64 <|
  .cons { key := "roi" } .f64 <|
  .cons { key := "best_roi" } .f64 <|
  .cons { key := "new_record" } .bool .nil

def resultOf : resultFields.Val → ScriptResult
  | (cost, gain, roi, bestRoi, newRecord, ()) => ⟨cost, gain, roi, bestRoi, newRecord⟩

def resultVal (r : ScriptResult) : resultFields.Val :=
  (r.cost, r.gain, r.roi, r.bestRoi, r.newRecord, ())

/-- The payload of an `event` message. -/
def eventPayload : Fields :=
  .cons { key := "event" } (.record "struct ExecEvent" eventFields) .nil

/-- The payload of a `farm_state` message. -/
def farmPayload : Fields :=
  .cons { key := "farm" } farmShape .nil

/-- The payload of a `done` message. -/
def donePayload : Fields :=
  .cons { key := "result", lenient := true, omitNull := true }
    (.optional (.record "struct ScriptResult" resultFields)) .nil

/-- The payload of an `error` message. -/
def errorPayload : Fields :=
  .cons { key := "message" } .text <|
  .cons { key := "line", lenient := true, omitNull := true } (.optional .u32) .nil

/-- The kinds of message, by their names on the wire. -/
def serverKinds : List String := ["event", "farm_state", "done", "error"]

/-- The message of a kind, from the entries of its object other than the kind. -/
def serverMessageOf : Fin serverKinds.length → List (String × Value) → Except Mismatch ServerMessage
  | ⟨0, _⟩, es => (eventPayload.ofEntries es).map fun (e, ()) => .event (eventOf e)
  | ⟨1, _⟩, es => (farmPayload.ofEntries es).map fun (f, ()) => .farmState (farmOf f)
  | ⟨2, _⟩, es => (donePayload.ofEntries es).map fun (r, ()) => .done (Option.map resultOf r)
  | ⟨_, _⟩, es => (errorPayload.ofEntries es).map fun (message, line, ()) => .error message line

/-- What an object's entries say under a key; of several the last counts. -/
def lookup? (key : String) (entries : List (String × Value)) : Option Value :=
  (entries.reverse.find? fun e => e.1 = key).map (·.2)

end Wire

/-- The message of a JSON value; the entries of its objects are met in the order of their keys. -/
def ServerMessage.ofValue (v : Json.Value) : Except MessageError ServerMessage :=
  match v.canonical with
  | .object entries =>
    match Wire.lookup? "type" entries with
    | some (.string kind) =>
      match Wire.nameIndex? Wire.serverKinds kind with
      | none => .error (.unknownType kind)
      | some i =>
        match Wire.serverMessageOf i (entries.filter fun e => e.1 ≠ "type") with
        | .ok m => .ok m
        | .error cause => .error (.malformed ⟨.mismatch cause, none⟩)
    | _ => .error .missingType
  | _ => .error .missingType

/-- Reads a server message from the text of a frame. -/
def ServerMessage.read (text : List Char) : Except MessageError ServerMessage :=
  match Json.Value.read text with
  | .ok v => ServerMessage.ofValue v
  | .error f => .error (.malformed (f.report text))

/-- The name of a message's kind on the wire. -/
def ServerMessage.kind : ServerMessage → String
  | .event _ => "event"
  | .farmState _ => "farm_state"
  | .done _ => "done"
  | .error _ _ => "error"

def ServerMessage.toValue (m : ServerMessage) : Json.Value :=
  .object (("type", .string m.kind) ::
    match m with
    | .event e => Wire.eventPayload.toEntries (Wire.eventVal e, ())
    | .farmState f => Wire.farmPayload.toEntries (Wire.farmVal f, ())
    | .done r => Wire.donePayload.toEntries (r.map Wire.resultVal, ())
    | .error message line => Wire.errorPayload.toEntries (message, line, ()))

end FarmClient
