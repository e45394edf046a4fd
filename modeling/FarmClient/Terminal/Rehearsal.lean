/-
A run against a server and a person at the terminal whose parts are written
down beforehand, cue by cue. The clock stands still unless the server waits
for a frame; then it passes from one pacing wait to the next until a frame
has been sent.
-/
import FarmClient.Terminal.Run

namespace FarmClient.Terminal

/-- What the server or the person at the terminal does next. -/
inductive Cue where
  /-- The server sends a text frame. -/
  | send (text : String)
  /-- The server waits for a frame. -/
  | receive
  /-- Bytes are typed at the terminal. -/
  | type (bytes : List UInt8)
  /-- Everybody waits until a text has been printed. -/
  | printed (text : String)
  /-- The server sends a frame that is no text. -/
  | binary
  | interrupt
  /-- The server closes the connection. -/
  | close
  /-- The connection breaks. -/
  | drop
deriving DecidableEq

structure Rehearsal (K : Type) [Scalar K] where
  run : Run K
  /-- How many of the frames sent the server has waited for. -/
  awaited : Nat
  /-- The bytes of the line being typed, the last first. -/
  typing : List UInt8
  /-- Whether typed lines still arrive. -/
  listening : Bool

namespace Rehearsal

variable {K : Type} [Scalar K]

/-- Hands an event to the run. -/
def feed (p : Rehearsal K) (e : RunEvent) : Rehearsal K := { p with run := p.run.feed e }

/-- A byte is typed. A line ends with a line feed; one that is not UTF-8 ends
the reading of the terminal. -/
def typeByte (p : Rehearsal K) (byte : UInt8) : Rehearsal K :=
  if !p.listening then p
  else if byte ≠ 10 then { p with typing := byte :: p.typing }
  else
    match String.fromUTF8? p.typing.reverse.toByteArray with
    | none => { p with listening := false }
    | some line => { p with typing := [] }.feed (.input (.line line))

/-- Whether there is a frame that the server has not waited for. -/
def hasFrame (p : Rehearsal K) : Bool := p.awaited < p.run.report.sent.length

/-- Lets the clock pass to a moment, unless there is a frame to read. -/
def awaitFrame (p : Rehearsal K) (moment : Nat) : Rehearsal K :=
  if p.hasFrame then p else p.feed (.moment moment)

/-- The server waits for a frame. -/
def receive (p : Rehearsal K) : Rehearsal K :=
  let moments := (p.run.session.waits.map (·.due)).mergeSort
  let p := moments.foldl awaitFrame p
  if p.hasFrame then { p with awaited := p.awaited + 1 } else p

def play (p : Rehearsal K) : Cue → Rehearsal K
  | .send text => p.feed (.input (.text text))
  | .receive => p.receive
  | .type bytes => bytes.foldl typeByte p
  | .printed _ | .binary => p
  | .interrupt => p.feed (.input .interrupt)
  | .close => p.feed .closed
  | .drop => p.feed .broken

/-- A whole run over an open connection. -/
def whole (app : App K) (code : String) (mode : RunMode) (cues : List Cue) : Run K :=
  let p : Rehearsal K := ⟨.opened app code mode, 0, [], true⟩
  (cues.foldl play p).run.close

end Rehearsal

end FarmClient.Terminal
