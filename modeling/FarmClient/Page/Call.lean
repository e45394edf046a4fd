/-
What a page does to the browser, call by call.
-/
import FarmClient.Page.Browser
import FarmClient.Page.Channel

namespace FarmClient.Page

/-- A call of the drawing context. -/
inductive CanvasCall where
  | clearRect (x y width height : Float)
  | drawImage (x y width height : Float)
  | beginPath
  | moveTo (x y : Float)
  | lineTo (x y : Float)
  | closePath
  | fillStyle (style : String)
  | fill
  | lineWidth (width : Float)
  | strokeStyle (style : String)
  | stroke
  | font (font : String)
  | textAlign (align : String)
  | textBaseline (baseline : String)
  | fillText (text : String) (x y : Float)
  | save
  | restore
  | globalAlpha (alpha : Float)
  | setTransform (a b c d e f : Float)

inductive Call where
  | fetch (url : String)
  /-- A socket with that number is made. -/
  | websocket (socket : Nat) (url : String)
  | socket (call : SocketCall)
  | timer (id : Nat) (delay : Nat)
  | requestFrame
  | text (element : Element) (text : String)
  | scroll (element : Element) (top : Nat)
  | className (element : Element) (name : String)
  | disabled (element : Element) (disabled : Bool)
  | observe (element : Element)
  | listen (event : String)
  | source (url : String)
  | width (width : UInt32)
  | height (height : UInt32)
  | editor (method : EditorMethod) (arguments : List String)
  | canvas (call : CanvasCall)

end FarmClient.Page
