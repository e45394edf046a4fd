/-
How a page starts up: it fetches the bootstrap payload, and when that has come
it sets up the painter, the listeners, the connection and the animation, one
after the other. A startup that fails says why on the console; what it had set
up by then stays.
-/
import FarmClient.Page.Session

namespace FarmClient.Page

namespace Tab

/-- Something that has to be there. -/
def need (present : Bool) (reason : String) : Except Thrown Unit :=
  if present then .ok () else .error (.text reason)

/-- The endpoints of this page. -/
def endpoints (t : Tab) : Except Thrown Endpoints := do
  let b := t.browser
  need b.hasWindow "No window found"
  b.require .protocol
  b.require .host
  return .ofLocation b.protocol b.host

/-- Startup up to the fetch of the bootstrap payload. -/
def enter (t : Tab) : Except Thrown Tab := do
  let b := t.browser
  need b.hasWindow "no global `window` exists"
  need b.hasDocument "should have a document on window"
  match b.presence .canvas with
  | .missing => throw (.text "canvas not found")
  | .plain => throw (.object "HTMLDivElement")
  | .proper =>
    let endpoints ← t.endpoints
    t.fetch endpoints.bootstrap (.startup endpoints)

/-- Says on the console why startup failed. -/
def startupFailed (t : Tab) (e : Thrown) : Tab := t.log ("[error] startup: " ++ e.reason)

/-- The painter of the canvas, as far as it can be had. -/
def painter (t : Tab) : Except Thrown Painter := do
  let b := t.browser
  b.require .context
  match b.context with
  | .missing => throw (.text "2d context unavailable")
  | .foreign => throw (.object "WebGLRenderingContext")
  | .flat =>
    b.require .image
    return .unmeasured (if b.hasWindow then b.pixelRatio else 1)

/-- What startup needs of a reply before it changes anything. -/
def material {K : Type} [Shown K] (t : Tab) (reply : Reply) : Except Thrown (App K × Painter) := do
  let payload ← t.payload reply
  match (App.ofBootstrap payload : Except (ConfigError K) (App K)) with
  | .error e => throw (.text e.text)
  | .ok app => return (app, ← t.painter)

end Tab

namespace Session

variable {K : Type} [Shown K]

/-- A session with its canvas measured. -/
def ofMaterial (t : Tab) (endpoints : Endpoints) (app : App K) (painter : Painter) : Session K :=
  let fitted := painter.fit t.browser.bounds
  ⟨(t.call (.source app.settings.background)).callAll fitted.2, app, fitted.1, .fresh, endpoints, 0⟩

def showControls (s : Session K) : Session K := s.onTab (·.showControls s.app.controller.controls)

/-- Attaches a listener, unless the service for it fails. -/
def listen (service : Service) (call : Call) (attach : Listeners → Listeners) (s : Session K) :
    Session K × Option Thrown :=
  match s.tab.browser.require service with
  | .error e => (s, some e)
  | .ok _ => (s.onTab fun t => { t with listeners := attach t.listeners }.call call, none)

/-- Connects for the first time. -/
def firstConnect (s : Session K) : Session K × Option Thrown :=
  match s.connect with
  | .ok s => (s, none)
  | .error e => (s, some e)

/-- Takes steps one after the other; the first that fails is the last. -/
def takeSteps (s : Session K) : List (Session K → Session K × Option Thrown) → Session K × Option Thrown
  | [] => (s, none)
  | step :: steps =>
    match step s with
    | (s, none) => s.takeSteps steps
    | (s, some e) => (s, some e)

/-- Attaches the listeners, connects and begins the animation. -/
def setUp (s : Session K) : Session K × Option Thrown :=
  s.showControls.takeSteps [
    listen .resizeObserver (.observe .canvas) fun l => { l with resize := true },
    listen .mouseMove (.listen "mousemove") fun l => { l with move := true },
    listen .mouseLeave (.listen "mouseleave") fun l => { l with leave := true },
    firstConnect,
    fun s => (s.onTab (·.requestFrame), none)]

end Session

end FarmClient.Page
