/-
One run of a script: a session that is started once and fed with events until
it is over. It ends well when the application is idle after an event, and
badly when the connection is lost or a frame cannot be sent. Nothing that
comes after the ending counts.
-/
import FarmClient.Terminal.Options
import FarmClient.Terminal.RunError
import FarmClient.Terminal.Session

namespace FarmClient.Terminal

/-- What can happen during a run. -/
inductive RunEvent where
  /-- Something for the session. -/
  | input (input : SessionInput)
  /-- The clock passes to a moment. -/
  | moment (moment : Nat)
  /-- The server closes the connection. -/
  | closed
  /-- The connection breaks. -/
  | broken
deriving DecidableEq

structure Run (K : Type) [Scalar K] where
  session : Session K
  /-- What has been sent and printed so far. -/
  report : Report
  /-- How the run ended. -/
  ending : Option (Except RunError Unit)

namespace Run

variable {K : Type} [Scalar K]

/-- Whether a run has ended. -/
def isOver (r : Run K) : Bool := r.ending.isSome

/-- The ending after an input, if it ends the run. -/
def endingAfter (s : Session K) (r : Report) : Option (Except RunError Unit) :=
  if r.failed then some (.error .sendFailed) else if s.isIdle then some (.ok ()) else none

/-- Takes over what an input came to. -/
def record (r : Run K) (result : Session K × Report) : Run K :=
  { r with session := result.1, report := r.report.append result.2 }

/-- An input, after which the run may be over. -/
def settle (r : Run K) (result : Session K × Report) : Run K :=
  { r.record result with ending := endingAfter result.1 result.2 }

/-- The connection is lost, for whatever reason. -/
def lose (r : Run K) (reason : RunError) : Run K :=
  { r.record (r.session.handle .lost) with ending := some (.error reason) }

/-- An event, if the run is not over. -/
def feed (r : Run K) (e : RunEvent) : Run K :=
  if r.isOver then r
  else
    match e with
    | .input input => r.settle (r.session.handle input)
    | .moment moment => r.settle (r.session.passTo moment)
    | .closed => r.lose .serverClosed
    | .broken => r.lose .connectionBroken

/-- The run with the connection open and the script started. -/
def opened (app : App K) (code : String) (mode : RunMode) : Run K :=
  let r : Run K := ⟨.fresh app code, .empty, none⟩
  let r := r.record r.session.connect
  r.record (r.session.begin mode)

/-- The hud line is printed at a good end. -/
def close (r : Run K) : Run K :=
  match r.ending with
  | some (.ok ()) => { r with report := r.report.append ⟨[], [r.session.hud], false⟩ }
  | _ => r

end Run

end FarmClient.Terminal
