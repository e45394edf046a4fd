/-
What a browser holds ready for a page: its address, the elements of the
document, the picture, the editor, and which of its services fail.
-/
import FarmClient.Scene.Layout

namespace FarmClient.Page

/-- A service of the browser that may fail. -/
inductive Service where
  | window
  | document
  | protocol
  | host
  | request
  | text
  | websocket
  | send
  | timeout
  | animationFrame
  | context
  | image
  | mouseMove
  | mouseLeave
  | resizeObserver
  | drawImage
  | fillText
  | setTransform
deriving DecidableEq

/-- What a failing call throws. -/
inductive Thrown where
  | text (text : String)
  | null
  /-- An object that is not what it should be, by its class. -/
  | object (kind : String)
deriving DecidableEq

/-- A thrown value as a reason for a person. -/
def Thrown.reason : Thrown → String
  | .text reason => reason
  | .null => "JsValue(null)"
  | .object kind => "JsValue(" ++ kind ++ ")"

/-- The elements of the document that a page works with. -/
inductive Element where
  | canvas
  | runButton
  | stopButton
  | console
  | resource
  | status
deriving DecidableEq

def Element.id : Element → String
  | .canvas => "farmCanvas"
  | .runButton => "runAllBtn"
  | .stopButton => "stopBtn"
  | .console => "console"
  | .resource => "resource"
  | .status => "farm-status"

/-- Whether an element is there, and of the kind it should be. -/
inductive Presence where
  | missing
  | plain
  | proper
deriving DecidableEq

/-- What the canvas gives for drawing. -/
inductive ContextKind where
  | missing
  | foreign
  | flat
deriving DecidableEq

/-- What a page may ask of an installed editor. -/
inductive EditorMethod where
  | getValue
  | highlightLine
  | clearHighlight
deriving DecidableEq

def EditorMethod.name : EditorMethod → String
  | .getValue => "getValue"
  | .highlightLine => "highlightLine"
  | .clearHighlight => "clearHighlight"

/-- What comes of asking for one of the editor's methods. -/
inductive EditorHook where
  /-- There is nothing to call. -/
  | absent
  /-- Calling it throws. -/
  | throws
  /-- Calling it gives a value, which may be a text. -/
  | returns (text : Option String)
deriving DecidableEq

/-- The background picture as far as it has loaded. -/
structure Picture where
  width : Nat
  height : Nat
  complete : Bool
deriving DecidableEq

structure Browser where
  protocol : String
  host : String
  /-- Device pixels for each pixel of the page. -/
  pixelRatio : Float
  /-- Where the canvas is on the page. -/
  bounds : Rect Float
  picture : Picture
  presence : Element → Presence
  context : ContextKind
  editor : EditorMethod → EditorHook
  failing : List Service
  /-- What failing calls throw. -/
  thrown : Thrown

namespace Browser

def fails (b : Browser) (s : Service) : Bool := s ∈ b.failing

/-- A call that gives nothing but may throw. -/
def require (b : Browser) (s : Service) : Except Thrown Unit :=
  if b.fails s then .error b.thrown else .ok ()

def hasWindow (b : Browser) : Bool := !b.fails .window

def hasDocument (b : Browser) : Bool := b.hasWindow && !b.fails .document

/-- Whether an element can be found. -/
def shows (b : Browser) (e : Element) : Bool := b.hasDocument && b.presence e ≠ .missing

/-- Whether an element can be found and is of its proper kind. -/
def offers (b : Browser) (e : Element) : Bool := b.hasDocument && b.presence e = .proper

/-- The size of the picture once it has loaded. -/
def pictureSize? {K : Type} [Scalar K] (b : Browser) : Option (Size K) :=
  let p := b.picture
  if p.complete && 0 < p.width && 0 < p.height then
    some ⟨Scalar.ofNat p.width, Scalar.ofNat p.height⟩
  else none

end Browser

end FarmClient.Page
