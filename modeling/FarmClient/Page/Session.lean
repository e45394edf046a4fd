/-
A page that is running: the application, the painter, the channel and the
browser's tab. The application's actions are carried out in order. When the
connection is lost the page connects again, at growing intervals, and fetches
the farm again before it starts new scripts.
-/
import FarmClient.App
import FarmClient.Page.Painter
import FarmClient.Page.Tab

namespace FarmClient.Page

structure Session (K : Type) [Shown K] where
  tab : Tab
  app : App K
  painter : Painter
  channel : Channel
  endpoints : Endpoints
  /-- Attempts to connect again since a socket opened. -/
  attempts : Nat

namespace Session

variable {K : Type} [Shown K]

/-- Changes the tab. -/
def onTab (s : Session K) (f : Tab → Tab) : Session K := { s with tab := f s.tab }

/-! ### Actions -/

/-- Hands a message to the channel. -/
def send (s : Session K) (message : ClientMessage) : Session K :=
  let (channel, calls) := s.channel.send s.tab.sockets message s.tab.luck
  { s with channel, tab := s.tab.callAll (calls.map .socket) }

/-- Tries again later to fetch the farm. -/
def resyncFailed (s : Session K) (reason : String) : Session K :=
  s.onTab fun t => (t.log ("[error] resync: " ++ reason)).setTimer .retryResync (backoffDelay 255)

/-- Fetches the farm again. -/
def requestFarm (s : Session K) : Session K :=
  match s.tab.fetch s.endpoints.bootstrap .resync with
  | .ok tab => { s with tab }
  | .error e => s.resyncFailed e.reason

/-- The farm has been fetched again, or not. -/
def receiveFarm (s : Session K) (reply : Reply) : Session K :=
  match s.tab.payload reply with
  | .error e => s.resyncFailed e.reason
  | .ok b =>
    match s.app.resync b.farm with
    | .error e => s.resyncFailed e.text
    | .ok app => { s with app }.onTab (·.log "[system] resynced")

def carryOut (s : Session K) : Action → Session K
  | .send message => s.send message
  | .scheduleAck ticket after => s.onTab (·.setTimer (.pacing ticket) after)
  | .highlightLine line => s.onTab (·.callEditor .highlightLine [Decimal.natText line.toNat])
  | .clearHighlight => s.onTab (·.callEditor .clearHighlight [])
  | .clearConsole => s.onTab (·.clearConsole)
  | .log text => s.onTab (·.log text)
  | .controls c => s.onTab (·.showControls c)
  | .resync => s.requestFarm

/-- Lets the application answer, and carries out what it asks for. -/
def act (s : Session K) (answer : App K → App K × List Action) : Session K :=
  let (app, actions) := answer s.app
  actions.foldl carryOut { s with app }

/-! ### The connection -/

/-- Connects to the server. -/
def connect (s : Session K) : Except Thrown (Session K) :=
  (s.tab.openSocket s.endpoints.channel).map fun tab => { s with tab := tab.showStatus .connecting }

/-- Attempts are counted up to here. -/
def maxAttempts : Nat := 255

/-- Sets the timer for the next attempt to connect. -/
def scheduleReconnect (s : Session K) : Session K :=
  if s.tab.browser.hasWindow then
    let tab := (s.tab.setTimer? .reconnect (backoffDelay s.attempts)).getD (s.tab.showStatus .offline)
    { s with tab, attempts := min (s.attempts + 1) maxAttempts }
  else s

/-- The timer for an attempt to connect is over. -/
def reconnect (s : Session K) : Session K :=
  match s.connect with
  | .ok s => s
  | .error _ => s.scheduleReconnect

/-- Puts a socket into a state. -/
def setSocket (s : Session K) (n : Nat) (state : ReadyState) : Session K :=
  s.onTab fun t => { t with sockets := t.sockets.set n state }

/-- Installs an open socket in the channel. -/
def install (s : Session K) (n : Nat) : Session K :=
  let (channel, sockets, calls) := s.channel.install s.tab.sockets n s.tab.luck
  { s with channel, tab := { s.tab with sockets }.callAll (calls.map .socket) }

/-- A socket has opened. -/
def socketOpened (s : Session K) (n : Nat) : Session K :=
  let s := (s.setSocket n .opened).onTab (·.showStatus .connected)
  ({ s with attempts := 0 }.install n).act (·.connected)

/-- The server's session is gone, and with it whatever waits to be sent. -/
def lose (s : Session K) : Session K :=
  { s with channel := s.channel.discard }.act (·.connectionLost)

/-- A socket has closed; `state` is what it is left in. -/
def socketClosed (s : Session K) (n : Nat) (state : ReadyState) : Session K :=
  let s := (s.setSocket n state).onTab (·.showStatus .disconnected)
  let wasOpen := !s.channel.isNotOpen
  let s := { s with channel := s.channel.disconnected }
  (if wasOpen then s.lose else s).scheduleReconnect

/-- A frame has come; one that is no text is passed over. -/
def receive (s : Session K) : Option String → Session K
  | some text => s.act (·.receive text)
  | none => s

def socketFailed (s : Session K) : Session K := s.onTab (·.showStatus .disconnected)

/-! ### The farm view -/

/-- An animation frame at a time in milliseconds. -/
def animate (s : Session K) (now : Float) : Session K :=
  let viewport := s.painter.viewport
  let app := s.app.frame (Scalar.ofDouble now)
    ⟨Scalar.ofDouble viewport.width, Scalar.ofDouble viewport.height⟩ s.tab.browser.pictureSize?
  let f := app.draw
  { s with app }.onTab fun t => ((t.callAll (Painter.paint f)).showResource f.hud).requestFrame

/-- The pointer is at a place of the window. -/
def pointTo (s : Session K) (x y : Int) : Session K :=
  let b := s.tab.browser.bounds
  let p := ⟨Scalar.ofDouble (Float.ofInt x - b.x), Scalar.ofDouble (Float.ofInt y - b.y)⟩
  { s with app := s.app.pointerMoved p }

def pointerLeft (s : Session K) : Session K := { s with app := s.app.pointerLeft }

/-- The canvas has taken on sizes, one after the other. -/
def resize (s : Session K) (sizes : List (Size Float)) : Session K :=
  let (painter, calls) := s.painter.resizeAll sizes
  { s with painter }.onTab (·.callAll calls)

/-! ### The buttons -/

/-- The program to run: the given one, or what the editor holds. -/
def program (s : Session K) : Option String → Session K × String
  | some code => (s, code)
  | none => (s.onTab (·.callEditor .getValue []), s.tab.editorText)

def run (s : Session K) (code : Option String) : Session K :=
  let (s, code) := s.program code
  s.act (·.toggleRun code)

def step (s : Session K) (code : Option String) : Session K :=
  let (s, code) := s.program code
  s.act (·.step code)

def abort (s : Session K) : Session K := s.act (·.abort)

/-- What a timer was set for. -/
def timerFired (s : Session K) : TimerTask → Session K
  | .pacing ticket => s.act (·.pacingElapsed ticket)
  | .reconnect => s.reconnect
  | .retryResync => if s.app.controller.resyncRequired then s.requestFarm else s

end Session

end FarmClient.Page
