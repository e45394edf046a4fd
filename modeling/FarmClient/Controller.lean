/-
The state machine of remote execution. It owns no socket and no timer: every
input gives back the actions that the host has to carry out, in order. A
pacing wait comes back with the ticket it was scheduled under, and counts
only if the session of the ticket is still the running one.
-/
import FarmClient.Wire.ClientMessage
import FarmClient.Wire.ServerMessage

namespace FarmClient

inductive ExecState where
  | idle
  | runningAuto
  | pausedAuto
  | runningManual
deriving DecidableEq

def ExecState.isActive (s : ExecState) : Bool := s ≠ .idle

def ExecState.mode? : ExecState → Option ExecMode
  | .idle => none
  | .runningAuto | .pausedAuto => some .autoStep
  | .runningManual => some .manualStep

/-- The session a pacing wait belongs to. -/
structure AckTicket where
  session : Nat
deriving DecidableEq

/-- What the button for run, pause and resume says. -/
inductive RunLabel where
  | run
  | pause
  | resume
deriving DecidableEq

def RunLabel.text : RunLabel → String
  | .run => "▶ Run"
  | .pause => "⏸ Pause"
  | .resume => "▶ Resume"

structure Controls where
  run : RunLabel
  stopEnabled : Bool
deriving DecidableEq

/-- The controls that belong to a state. -/
def ExecState.controls (s : ExecState) : Controls where
  run := match s with
    | .runningAuto => .pause
    | .pausedAuto => .resume
    | .idle | .runningManual => .run
  stopEnabled := s.isActive

/-- What a host has to do. -/
inductive Action where
  | send (message : ClientMessage)
  /-- Hand the ticket back after so many milliseconds. -/
  | scheduleAck (ticket : AckTicket) (after : Nat)
  | highlightLine (line : UInt32)
  | clearHighlight
  | clearConsole
  | log (text : String)
  | controls (controls : Controls)
  /-- Fetch the bootstrap payload again. -/
  | resync
deriving DecidableEq

structure Controller where
  state : ExecState
  /-- Sessions started so far. No run comes near the end of 64 bits: one start
  a nanosecond takes five hundred years. -/
  session : Nat
  /-- The pause before an acknowledgement, in milliseconds. -/
  interval : Nat
  /-- The connection was lost and the farm has not been fetched since. -/
  resyncRequired : Bool
deriving DecidableEq

/-- Half up, in hundredths. -/
def percent (ratio : Float) : Int :=
  (ratio * 100.0 + 0.5).floor.toInt64.toInt

/-- The console's summary of a finished script. -/
def ScriptResult.summary (r : ScriptResult) : String :=
  "📊 Script Result\n💸 Cost: " ++ Decimal.Notation.plain.write r.cost ++
    "\n💰 Gain: " ++ Decimal.Notation.plain.write r.gain ++
    "\n📈 ROI: " ++ Decimal.intText (percent r.roi) ++ "%\n" ++
    if r.newRecord then "🏆 New Best ROI!"
    else "⭐ Best ROI: " ++ Decimal.intText (percent r.bestRoi) ++ "%"

namespace Controller

def fresh (interval : Nat) : Controller := ⟨.idle, 0, interval, false⟩

def controls (c : Controller) : Controls := c.state.controls

def isActive (c : Controller) : Bool := c.state.isActive

/-- The state that a session of a mode starts in. -/
def startState : ExecMode → ExecState
  | .autoStep => .runningAuto
  | .manualStep => .runningManual

/-- Begins a session, unless the farm has to be fetched first. -/
def start (c : Controller) (mode : ExecMode) (code : String) : Controller × List Action :=
  if c.resyncRequired then (c, [.log "[system] reconnecting"])
  else
    let state := startState mode
    ({ c with session := c.session + 1, state },
      [.clearConsole, .clearHighlight, .controls state.controls, .send (.start mode code)])

/-- The button for run, pause and resume. -/
def toggleRun (c : Controller) (code : String) : Controller × List Action :=
  match c.state with
  | .idle => c.start .autoStep code
  | .runningAuto =>
    ({ c with state := .pausedAuto },
      [.controls ExecState.pausedAuto.controls, .log "[system] paused"])
  | .pausedAuto =>
    ({ c with state := .runningAuto },
      [.controls ExecState.runningAuto.controls, .log "[system] resumed", .send .ack])
  | .runningManual => (c, [])

/-- The button for a single step. -/
def step (c : Controller) (code : String) : Controller × List Action :=
  match c.state with
  | .idle => c.start .manualStep code
  | .runningManual => (c, [.send .step])
  | .runningAuto | .pausedAuto => (c, [])

/-- Ends the session at once, without waiting for the server. -/
def abort (c : Controller) : Controller × List Action :=
  if c.isActive then
    ({ c with state := .idle },
      [.send .abort, .clearHighlight, .controls ExecState.idle.controls, .log "[system] aborted"])
  else (c, [])

/-- A pacing wait is over. It is acknowledged also in a pause. -/
def pacingElapsed (c : Controller) (ticket : AckTicket) : Controller × List Action :=
  if ticket.session = c.session ∧ c.isActive then (c, [.send .ack]) else (c, [])

/-- The server executed an instruction in that line. -/
def event (c : Controller) (line : UInt32) : Controller × List Action :=
  if c.isActive then
    (c, .highlightLine line ::
      if c.state = .runningAuto then [.scheduleAck ⟨c.session⟩ c.interval] else [])
  else (c, [])

/-- The server finished the script. -/
def done (c : Controller) (result : Option ScriptResult) : Controller × List Action :=
  if c.isActive then
    ({ c with state := .idle },
      .clearHighlight :: .controls ExecState.idle.controls ::
        ((result.toList.map fun r => .log r.summary) ++ [.log "[system] done"]))
  else (c, [])

/-- The connection is open. -/
def connected (c : Controller) : Controller × List Action :=
  (c, .log "[system] connected" :: if c.resyncRequired then [.resync] else [])

/-- The farm has been fetched again. -/
def resynced (c : Controller) : Controller := { c with resyncRequired := false }

/-- The connection closed unexpectedly; a running session is dropped. -/
def connectionLost (c : Controller) : Controller × List Action :=
  ({ c with state := .idle, resyncRequired := true },
    (if c.isActive then [.clearHighlight, .controls ExecState.idle.controls] else []) ++
      [.log "[system] connection lost"])

end Controller

end FarmClient
