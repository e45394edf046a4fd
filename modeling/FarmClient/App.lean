/-
One client session as a whole: settings, scene, controller and frame clock.
Hosts route every input through it, one at a time.
-/
import FarmClient.Controller
import FarmClient.Scene.Clock
import FarmClient.Scene.Drawing
import FarmClient.Settings

namespace FarmClient

structure App (K : Type) [Scalar K] where
  settings : Settings K
  scene : Scene K
  controller : Controller
  clock : FrameClock K

namespace App

variable {K : Type} [Scalar K]

def ofSettings (s : Settings K) : App K :=
  ⟨s, .ofProjector s.projector, .fresh s.interval, .fresh⟩

/-- Replaces the farm by a fetched snapshot; sessions are accepted again once
it has been applied. -/
def resync (a : App K) (farm : Farm) : Except SnapshotError (App K) :=
  (a.scene.apply farm).map fun scene => { a with scene, controller := a.controller.resynced }

/-- The same, with a snapshot that does not fit passed over. -/
def resyncIfFits (a : App K) (farm : Farm) : App K :=
  match a.resync farm with
  | .ok a => a
  | .error _ => a

/-- A session for a bootstrap payload, with its farm if that fits. -/
def ofBootstrap (b : Bootstrap) : Except (ConfigError K) (App K) :=
  (Settings.ofConfig b.config).map fun s => (ofSettings s).resyncIfFits b.farm

/-- The same with another pause than the server's. -/
def ofBootstrapWithInterval (b : Bootstrap) (interval : Nat) : Except (ConfigError K) (App K) :=
  (Settings.ofConfig b.config).map fun s => (ofSettings (s.withInterval interval)).resyncIfFits b.farm

/-- Gives the controller's part of an input. -/
def control (a : App K) (f : Controller → Controller × List Action) : App K × List Action :=
  let (controller, actions) := f a.controller
  ({ a with controller }, actions)

def toggleRun (a : App K) (code : String) : App K × List Action := a.control (·.toggleRun code)
def step (a : App K) (code : String) : App K × List Action := a.control (·.step code)
def abort (a : App K) : App K × List Action := a.control (·.abort)
def connected (a : App K) : App K × List Action := a.control (·.connected)
def connectionLost (a : App K) : App K × List Action := a.control (·.connectionLost)

def pacingElapsed (a : App K) (ticket : AckTicket) : App K × List Action :=
  a.control (·.pacingElapsed ticket)

/-- A notice of the server as a console line. -/
def noticeLine (message : String) : Option UInt32 → String
  | some line => "[error] " ++ message ++ " (line " ++ Decimal.natText line.toNat ++ ")"
  | none => "[error] " ++ message

/-- A message of the server. Events without a session are ignored whole. -/
def handle (a : App K) : ServerMessage → App K × List Action
  | .event e =>
    if a.controller.isActive then
      { a with scene := (a.scene.recordGold e.x.toInt e.y.toInt e.gold).1 }.control (·.event e.line)
    else (a, [])
  | .farmState farm =>
    match a.scene.apply farm with
    | .ok scene => ({ a with scene }, [])
    | .error e => (a, [.log ("[error] snapshot: " ++ e.text)])
  | .done result => a.control (·.done result)
  | .error message line => (a, [.log (noticeLine message line)])

/-- A text frame of the server; one that cannot be understood is reported. -/
def receive (a : App K) (text : String) : App K × List Action :=
  match ServerMessage.read text.toList with
  | .ok m => a.handle m
  | .error e => (a, [.log ("[error] protocol: " ++ e.text)])

def pointerMoved (a : App K) (p : Point K) : App K := { a with scene := a.scene.pointerMoved p }

def pointerLeft (a : App K) : App K := { a with scene := a.scene.pointerLeft }

/-- Advances the labels by some seconds. -/
def advance (a : App K) (dt : K) : App K := { a with scene := a.scene.advance dt }

def draw (a : App K) : Frame K := a.scene.draw .standard

/-- A frame of the host: time passes, the background gets its place. -/
def frame (a : App K) (now : K) (viewport : Size K) (image : Option (Size K)) : App K :=
  let (clock, dt) := a.clock.tick now
  { a with clock, scene := (a.scene.advance dt).relayout viewport image }

end App

end FarmClient
