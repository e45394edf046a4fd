/-
The life of a page, event by event. Before startup has set up a session there
is nothing that sockets, timers and the pointer could reach; the buttons work
only once startup has come to its end.
-/
import FarmClient.Page.Startup

namespace FarmClient

/-- What can happen to a page. Where a socket, a timer or a fetch may be named
and is not, it is the newest socket, the first timer and the oldest fetch. -/
inductive Page.Event where
  | start
  /-- The button for run, pause and resume, with a program or without. -/
  | run (code : Option String)
  | step (code : Option String)
  | abort
  /-- A reply to a fetch. -/
  | reply (reply : Reply) (fetch : Option Nat := none)
  | socketOpened (socket : Option Nat)
  /-- A socket closes and is left in a state. -/
  | socketClosed (socket : Option Nat) (state : ReadyState)
  | message (socket : Option Nat) (text : Option String)
  | socketFailed (socket : Option Nat)
  /-- A socket changes its state without a word. -/
  | socketState (socket : Option Nat) (state : ReadyState)
  | timer (id : Option Nat)
  /-- An animation frame, at a time in milliseconds. -/
  | frame (now : Float)
  | pointerMoved (x y : Int)
  | pointerLeft
  /-- The canvas has taken on sizes; what is no size is passed over. -/
  | resized (sizes : List (Option (Size Float)))
  /-- The browser itself changes. -/
  | browser (browser : Browser)

inductive Page (K : Type := Float) [Shown K] where
  /-- No session has been set up. -/
  | loading (tab : Page.Tab)
  /-- There is a session; `ready` tells whether startup came to its end. -/
  | running (session : Page.Session K) (ready : Bool)

namespace Page

variable {K : Type} [Shown K]

def ofBrowser (b : Browser) : Page K := .loading (.fresh b)

def tab : Page K → Tab
  | .loading t => t
  | .running s _ => s.tab

/-- Changes the tab. -/
def onTab (p : Page K) (f : Tab → Tab) : Page K :=
  match p with
  | .loading t => .loading (f t)
  | .running s ready => .running (s.onTab f) ready

/-- Changes the session, if there is one. -/
def onSession (p : Page K) (f : Session K → Session K) : Page K :=
  match p with
  | .loading t => .loading t
  | .running s ready => .running (f s) ready

/-! ### Startup -/

def start (p : Page K) : Page K :=
  match p.tab.enter with
  | .ok t => p.onTab fun _ => t
  | .error e => p.onTab (·.startupFailed e)

/-- The page once its session has been set up, or has not come to its end. -/
def ofSetUp : Session K × Option Thrown → Page K
  | (s, none) => .running s true
  | (s, some e) => .running (s.onTab (·.startupFailed e)) false

/-- The payload for startup has come, or not. -/
def resume (p : Page K) (endpoints : Endpoints) (reply : Reply) : Page K :=
  match p.tab.material reply with
  | .error e => p.onTab (·.startupFailed e)
  | .ok (app, painter) => ofSetUp (Session.ofMaterial p.tab endpoints app painter).setUp

/-! ### Events -/

/-- A button. -/
def press (p : Page K) (f : Session K → Session K) : Page K :=
  match p with
  | .running s true => .running (f s) true
  | p => p

/-- A socket that exists: the named one or the newest. -/
def socket? (p : Page K) (named : Option Nat) : Option Nat :=
  let n := p.tab.sockets.length
  let i := named.getD (n - 1)
  if i < n then some i else none

/-- A timer that is set: the named one or the first. -/
def timer? (p : Page K) : Option Nat → Option (Nat × TimerTask)
  | some id => p.tab.timers.find? (·.1 = id)
  | none => p.tab.timers.head?

/-- A fetch without a reply: the named one or the oldest. -/
def fetch? (p : Page K) : Option Nat → Option (Nat × FetchTask)
  | some id => p.tab.fetches.find? (·.1 = id)
  | none => p.tab.fetches.head?

/-- An event at a socket. -/
def atSocket (p : Page K) (named : Option Nat) (f : Session K → Nat → Session K) : Option (Page K) :=
  (p.socket? named).map fun n => p.onSession (f · n)

/-- Gives a fetch its reply. -/
def settle (p : Page K) (reply : Reply) (named : Option Nat) : Option (Page K) :=
  (p.fetch? named).map fun (id, task) =>
    let p := p.onTab fun t => { t with fetches := t.fetches.filter (·.1 ≠ id) }
    match task with
    | .startup endpoints => p.resume endpoints reply
    | .resync => p.onSession (·.receiveFarm reply)

/-- Lets a timer fire. -/
def fire (p : Page K) (named : Option Nat) : Option (Page K) :=
  (p.timer? named).map fun (id, task) =>
    (p.onTab fun t => { t with timers := t.timers.filter (·.1 ≠ id) }).onSession (·.timerFired task)

/-- An animation frame, if one was requested. -/
def animate (p : Page K) (now : Float) : Option (Page K) :=
  if p.tab.frames = 0 then none
  else some ((p.onTab fun t => { t with frames := t.frames - 1 }).onSession (·.animate now))

/-- An event for a listener, if it is attached. -/
def heard (p : Page K) (attached : Listeners → Bool) (f : Session K → Session K) : Option (Page K) :=
  if attached p.tab.listeners then some (p.onSession f) else none

/-- What an event makes of a page; nothing if there is nothing for it. -/
def answer (p : Page K) : Event → Option (Page K)
  | .start => some p.start
  | .run code => some (p.press (·.run code))
  | .step code => some (p.press (·.step code))
  | .abort => some (p.press (·.abort))
  | .reply reply id => p.settle reply id
  | .socketOpened n => p.atSocket n fun s n => s.socketOpened n
  | .socketClosed n state => p.atSocket n fun s n => s.socketClosed n state
  | .message n text => p.atSocket n fun s _ => s.receive text
  | .socketFailed n => p.atSocket n fun s _ => s.socketFailed
  | .socketState n state => p.atSocket n fun s n => s.setSocket n state
  | .timer id => p.fire id
  | .frame now => p.animate now
  | .pointerMoved x y => p.heard (·.move) (·.pointTo x y)
  | .pointerLeft => p.heard (·.leave) (·.pointerLeft)
  | .resized sizes => p.heard (·.resize) (·.resize (sizes.filterMap id))
  | .browser b => some (p.onTab fun t => { t with browser := b })

/-- The same, with only the calls this event leads to. -/
def handle (p : Page K) (e : Event) : Option (Page K) :=
  (p.onTab fun t => { t with calls := [] }).answer e

end Page

end FarmClient
