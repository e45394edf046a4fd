/-
The browser's side of a page that is open: what its panels show, its sockets,
what it waits for, and the calls that were made. Whatever a page wants of the
browser goes through here.
-/
import FarmClient.Controller
import FarmClient.Page.Backoff
import FarmClient.Page.Call
import FarmClient.Page.Endpoints
import FarmClient.Wire.Bootstrap

namespace FarmClient.Page

/-- What a timer is set for. -/
inductive TimerTask where
  | pacing (ticket : AckTicket)
  | reconnect
  | retryResync
deriving DecidableEq

/-- What the bootstrap payload is fetched for. -/
inductive FetchTask where
  | startup (endpoints : Endpoints)
  | resync
deriving DecidableEq

/-- The listeners that have been attached to the canvas. -/
structure Listeners where
  resize : Bool
  move : Bool
  leave : Bool
deriving DecidableEq

/-- What the status line says about the connection. -/
inductive LinkStatus where
  | connecting
  | connected
  | disconnected
  | offline
deriving DecidableEq

def LinkStatus.className : LinkStatus → String
  | .connecting => "status-connecting"
  | .connected => "status-connected"
  | .disconnected => "status-disconnected"
  | .offline => "status-offline"

/-- What comes of a fetch. -/
inductive Reply where
  | rejected (reason : Thrown)
  /-- Something that is no response. -/
  | nothing
  /-- A response, whose body may not be a text. -/
  | response (status : Nat) (body : Option String)
deriving DecidableEq

structure Tab where
  browser : Browser
  /-- The text of the console panel. -/
  console : String
  /-- The text of the resource line. -/
  resource : String
  sockets : Sockets
  /-- The timers that are set, by their numbers. -/
  timers : List (Nat × TimerTask)
  /-- How many timers have been set so far. -/
  timersSet : Nat
  /-- The fetches without a reply, by their numbers, the oldest first. -/
  fetches : List (Nat × FetchTask)
  /-- How many fetches have been made so far. -/
  fetchesMade : Nat
  /-- How many animation frames have been requested and not come. -/
  frames : Nat
  listeners : Listeners
  /-- The calls since the last event. -/
  calls : List Call

namespace Tab

def fresh (browser : Browser) : Tab :=
  ⟨browser, "", "", [], [], 0, [], 0, 0, ⟨false, false, false⟩, []⟩

def call (t : Tab) (c : Call) : Tab := { t with calls := t.calls ++ [c] }

def callAll (t : Tab) (cs : List Call) : Tab := { t with calls := t.calls ++ cs }

/-! ### Panels -/

/-- How far a text scrolls: ten for each line end in it. -/
def scrollHeight (text : String) : Nat := 10 * text.toList.count '\n'

/-- Puts a line at the end of the console and scrolls there. -/
def log (t : Tab) (line : String) : Tab :=
  if t.browser.shows .console then
    let text := t.console ++ line ++ "\n"
    ({ t with console := text }.call (.text .console text)).call (.scroll .console (scrollHeight text))
  else t

def clearConsole (t : Tab) : Tab :=
  if t.browser.shows .console then { t with console := "" }.call (.text .console "") else t

/-- Shows gold and time, unless they are shown already. -/
def showResource (t : Tab) (text : String) : Tab :=
  if t.browser.shows .resource && t.resource ≠ text then
    { t with resource := text }.call (.text .resource text)
  else t

def showControls (t : Tab) (c : Controls) : Tab :=
  let run := if t.browser.offers .runButton then
    [.text .runButton c.run.text, .disabled .runButton false] else []
  let stop := if t.browser.offers .stopButton then [.disabled .stopButton (!c.stopEnabled)] else []
  t.callAll (run ++ stop)

def showStatus (t : Tab) (s : LinkStatus) : Tab :=
  if t.browser.shows .status then t.call (.className .status s.className) else t

/-! ### The editor -/

/-- Calls a method of the editor, if one is installed. -/
def callEditor (t : Tab) (m : EditorMethod) (arguments : List String) : Tab :=
  if t.browser.hasWindow && t.browser.editor m ≠ .absent then t.call (.editor m arguments) else t

/-- The program in the editor; empty without one. -/
def editorText (t : Tab) : String :=
  if t.browser.hasWindow then
    match t.browser.editor .getValue with
    | .returns (some text) => text
    | _ => ""
  else ""

/-! ### Timers, frames and sockets -/

/-- The longest delay a timer can have. -/
def maxDelay : Nat := 2147483647

/-- Sets a timer; nothing if that fails. -/
def setTimer? (t : Tab) (task : TimerTask) (delay : Nat) : Option Tab :=
  if t.browser.fails .timeout then none
  else
    let id := t.timersSet + 1
    some ({ t with timers := t.timers ++ [(id, task)], timersSet := id }.call
      (.timer id (min delay maxDelay)))

/-- Sets a timer if there is a window and it does not fail. -/
def setTimer (t : Tab) (task : TimerTask) (delay : Nat) : Tab :=
  if t.browser.hasWindow then (t.setTimer? task delay).getD t else t

/-- Requests an animation frame. -/
def requestFrame (t : Tab) : Tab :=
  if t.browser.hasWindow && !t.browser.fails .animationFrame then
    { t with frames := t.frames + 1 }.call .requestFrame
  else t

/-- Makes a socket, which begins to connect. -/
def openSocket (t : Tab) (url : String) : Except Thrown Tab := do
  t.browser.require .websocket
  return { t with sockets := t.sockets ++ [ReadyState.connecting] }.call (.websocket t.sockets.length url)

/-- The luck of sendings in this browser. -/
def luck (t : Tab) : Nat → Bool := fun _ => !t.browser.fails .send

/-! ### The bootstrap payload -/

/-- Fetches the payload for a purpose. -/
def fetch (t : Tab) (url : String) (task : FetchTask) : Except Thrown Tab :=
  if t.browser.hasWindow then do
    t.browser.require .request
    let id := t.fetchesMade + 1
    return { t with fetches := t.fetches ++ [(id, task)], fetchesMade := id }.call (.fetch url)
  else throw (.text "No window")

/-- Whether a status tells of success. -/
def isSuccess (status : Nat) : Bool := 200 ≤ status && status < 300

/-- The payload in a reply. -/
def payload (t : Tab) : Reply → Except Thrown Bootstrap
  | .rejected reason => throw reason
  | .nothing => throw .null
  | .response status body =>
    if isSuccess status then do
      t.browser.require .text
      match body with
      | none => throw (.text "bootstrap body is not text")
      | some text =>
        match Bootstrap.read text.toList with
        | .ok b => return b
        | .error e => throw (.text ("bad bootstrap: " ++ e.text))
    else throw (.text ("bootstrap request failed: HTTP " ++ Decimal.natText status))

end Tab

end FarmClient.Page
