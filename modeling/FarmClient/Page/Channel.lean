/-
The channel for messages to the server. Encoded messages wait in a queue for
an open socket and are tried in the order they came; one whose sending fails
goes back behind the rest, five times at most. Sockets come and go, the queue
stays.

Sockets are numbered, and what they are ready for is the browser's business:
it is handed in with every operation, as is the luck of each single sending.
-/
import FarmClient.Wire.ClientMessage

namespace FarmClient.Page

/-- What a socket is ready for. -/
inductive ReadyState where
  | connecting
  | opened
  | closing
  | closed
deriving DecidableEq

/-- What the sockets are ready for, by their numbers. -/
abbrev Sockets := List ReadyState

namespace Sockets

/-- What a socket is ready for; one that does not exist is closed. -/
def ready (s : Sockets) (n : Nat) : ReadyState := s[n]?.getD .closed

/-- Whether a socket is open or about to be. -/
def isAlive (s : Sockets) (n : Nat) : Bool := s.ready n = .opened || s.ready n = .connecting

end Sockets

/-- A message in the queue, and how often sending it has failed. -/
structure Pending where
  text : String
  failures : Nat
deriving DecidableEq

inductive ConnectionState where
  | connected
  /-- Sending keeps failing. -/
  | degraded
  | disconnected
deriving DecidableEq

/-- What the channel does to sockets. -/
inductive SocketCall where
  | close (socket : Nat)
  | send (socket : Nat) (text : String) (delivered : Bool)
deriving DecidableEq

structure Channel where
  queue : List Pending
  /-- The number of the installed socket. -/
  socket : Option Nat
  /-- How many sendings have failed since one succeeded. After 2^32 of them it
  starts again from zero. -/
  failures : UInt32
  state : ConnectionState
deriving DecidableEq

namespace Channel

/-- How often a message may go back to the queue. -/
def maxRetries : Nat := 5

def fresh : Channel := ⟨[], none, 0, .disconnected⟩

def pendingCount (c : Channel) : Nat := c.queue.length

/-- A sending succeeded. -/
def succeeded (c : Channel) : Channel :=
  if c.failures = 0 then c else { c with failures := 0, state := .connected }

/-- A sending of a message failed. -/
def failed (c : Channel) (p : Pending) : Channel :=
  { c with
    failures := c.failures + 1
    state := if 3 ≤ c.failures + 1 then .degraded else c.state
    queue := if p.failures < maxRetries then c.queue ++ [Pending.mk p.text (p.failures + 1)] else c.queue }

/-- Tries messages one after the other; `luck` tells which sendings succeed. -/
def attempt (c : Channel) (socket : Nat) (luck : Nat → Bool) :
    List Pending → Channel × List SocketCall
  | [] => (c, [])
  | p :: ps =>
    let c := if luck 0 then c.succeeded else c.failed p
    let (c, calls) := c.attempt socket (fun i => luck (i + 1)) ps
    (c, .send socket p.text (luck 0) :: calls)

/-- Tries what is in the queue, if there is an open socket. -/
def flush (c : Channel) (sockets : Sockets) (luck : Nat → Bool) : Channel × List SocketCall :=
  match c.socket with
  | none => (c, [])
  | some n =>
    if sockets.ready n = .opened then { c with queue := [] }.attempt n luck c.queue
    else (c, [])

/-- Closes the installed socket if it is still alive. -/
def release (c : Channel) (sockets : Sockets) : Sockets × List SocketCall :=
  match c.socket with
  | none => (sockets, [])
  | some n => if sockets.isAlive n then (sockets.set n .closing, [.close n]) else (sockets, [])

/-- Installs a socket in the place of the old one and tries what is waiting. -/
def install (c : Channel) (sockets : Sockets) (n : Nat) (luck : Nat → Bool) :
    Channel × Sockets × List SocketCall :=
  let (sockets, closing) := c.release sockets
  let (c, calls) := { c with socket := some n, state := .connected, failures := 0 }.flush sockets luck
  (c, sockets, closing ++ calls)

/-- Queues a message and tries what is waiting. -/
def send (c : Channel) (sockets : Sockets) (message : ClientMessage) (luck : Nat → Bool) :
    Channel × List SocketCall :=
  { c with queue := c.queue ++ [Pending.mk message.toJson 0] }.flush sockets luck

/-- Whether a message was queued on a channel without a connection. -/
def isNotOpen (c : Channel) : Bool := c.state = .disconnected

/-- The text of the fault that a message was queued only. -/
def notOpenText : String := "socket is not open, message queued"

/-- The socket has closed. -/
def disconnected (c : Channel) : Channel := { c with state := .disconnected }

/-- Drops the messages of a session that exists no more. -/
def discard (c : Channel) : Channel := { c with queue := [] }

end Channel

end FarmClient.Page
