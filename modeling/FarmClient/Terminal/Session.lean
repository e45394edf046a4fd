/-
A script session at the terminal. Frames of the server, typed lines and
pacing waits go in; what comes out is a report of the frames that were sent
and the lines that were printed. Actions are carried out in order, and a
frame that cannot be sent ends the list it stands in.
-/
import FarmClient.Terminal.Config
import FarmClient.Terminal.Console
import FarmClient.Text.Lines

namespace FarmClient.Terminal

/-- A pacing wait: the moment it is over, and the ticket that goes back then. -/
structure PacingWait where
  due : Nat
  ticket : AckTicket
deriving DecidableEq

/-- What carrying out actions came to. -/
structure Report where
  sent : List String
  printed : List String
  /-- A frame could not be sent. -/
  failed : Bool
deriving DecidableEq

namespace Report

def empty : Report := ⟨[], [], false⟩

def append (r s : Report) : Report := ⟨r.sent ++ s.sent, r.printed ++ s.printed, r.failed || s.failed⟩

/-- The printed lines as they stand on the terminal. -/
def stdout (r : Report) : String := String.join (r.printed.map (· ++ "\n"))

end Report

/-- What can happen to a session. -/
inductive SessionInput where
  /-- A text frame of the server. -/
  | text (text : String)
  /-- A line typed at the terminal. -/
  | line (line : String)
  | interrupt
  | lost
  | elapsed (ticket : AckTicket)
deriving DecidableEq

structure Session (K : Type) [Scalar K] where
  app : App K
  code : String
  /-- Milliseconds since the session began. -/
  now : Nat
  /-- The pacing waits that are not over, in the order they began. -/
  waits : List PacingWait
  /-- Whether frames still reach the server. -/
  reachable : Bool

namespace Session

variable {K : Type} [Scalar K]

def fresh (app : App K) (code : String) : Session K := ⟨app, code, 0, [], true⟩

/-- Carries out actions up to a frame that cannot be sent. -/
def perform (s : Session K) : List Action → Session K × Report
  | [] => (s, .empty)
  | .send message :: actions =>
    if s.reachable then
      let (s, r) := s.perform actions
      (s, { r with sent := message.toJson :: r.sent })
    else (s, { Report.empty with failed := true })
  | .scheduleAck ticket after :: actions =>
    { s with waits := s.waits ++ [PacingWait.mk (s.now + after) ticket] }.perform actions
  | action :: actions =>
    let (s, r) := s.perform actions
    (s, { r with printed := (consoleLine? (lines s.code) action).toList ++ r.printed })

/-- Lets the application answer, and carries out what it asks for. -/
def act (s : Session K) (answer : App K → App K × List Action) : Session K × Report :=
  let (app, actions) := answer s.app
  { s with app }.perform actions

/-- How the application answers a typed line. -/
def answerLine (code line : String) (a : App K) : App K × List Action :=
  match TerminalCommand.parse? line with
  | some .pauseResume => a.toggleRun code
  | some .step => a.step code
  | some .abort => a.abort
  | none => (a, [])

def handle (s : Session K) : SessionInput → Session K × Report
  | .text text => s.act (·.receive text)
  | .line line => s.act (answerLine s.code line)
  | .interrupt => s.act (·.abort)
  | .lost => s.act (·.connectionLost)
  | .elapsed ticket => s.act (·.pacingElapsed ticket)

/-- The connection is open. -/
def connect (s : Session K) : Session K × Report := s.act (·.connected)

/-- Starts the script. -/
def begin (s : Session K) (mode : RunMode) : Session K × Report :=
  match mode with
  | .auto => s.act (·.toggleRun s.code)
  | .manual => s.act (·.step s.code)

/-- Hands tickets back one after the other. -/
def elapse (s : Session K) : List AckTicket → Session K × Report
  | [] => (s, .empty)
  | ticket :: tickets =>
    let (s, r) := s.handle (.elapsed ticket)
    let (s, r') := s.elapse tickets
    (s, r.append r')

/-- The waits that are over at a moment, the earliest first. -/
def expired (s : Session K) (moment : Nat) : List AckTicket :=
  (((s.waits.filter (·.due ≤ moment)).mergeSort fun a b => a.due ≤ b.due)).map (·.ticket)

/-- Lets the clock pass to a moment and hands back the waits that are over then. -/
def passTo (s : Session K) (moment : Nat) : Session K × Report :=
  { s with now := moment, waits := s.waits.filter (moment < ·.due) }.elapse (s.expired moment)

/-- The server is gone; nothing can be sent any more. -/
def hangUp (s : Session K) : Session K := { s with reachable := false }

/-- The line about gold and time. -/
def hud (s : Session K) : String := s.app.scene.cache.hud

def isIdle (s : Session K) : Bool := !s.app.controller.isActive

end Session

end FarmClient.Terminal
