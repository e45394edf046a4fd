/-
The painter of the farm view: it keeps the canvas as large as its element, in
device pixels, and turns the commands of a frame into calls of the drawing
context.
-/
import FarmClient.Page.Call
import FarmClient.Scene.Drawing

namespace FarmClient.Page

structure Painter where
  pixelRatio : Float
  /-- The size of the canvas in pixels of the page. -/
  viewport : Size Float

namespace Painter

def highlightFill : String := "rgba(0, 200, 255, 0.25)"
def highlightStroke : String := "rgba(0, 200, 255, 0.9)"
def labelColor : String := "gold"
def labelFont : String := "20px serif"

/-- A painter that has not measured its canvas. -/
def unmeasured (pixelRatio : Float) : Painter := ⟨pixelRatio, ⟨0, 0⟩⟩

/-- Takes over a size of the canvas. -/
def resize (p : Painter) (size : Size Float) : Painter × List Call :=
  let r := p.pixelRatio
  ({ p with viewport := size },
    [.width (size.width * r).toUInt32, .height (size.height * r).toUInt32,
      .canvas (.setTransform r 0 0 r 0 0)])

/-- How far sizes may differ without counting. -/
def tolerance : Float := Float.ofBits 0x3CB0000000000000

/-- Takes over the size of the canvas if it has changed. -/
def fit (p : Painter) (bounds : Rect Float) : Painter × List Call :=
  if tolerance < (bounds.w - p.viewport.width).abs || tolerance < (bounds.h - p.viewport.height).abs
  then p.resize ⟨bounds.w, bounds.h⟩
  else (p, [])

/-- Takes over sizes one after the other. -/
def resizeAll (p : Painter) : List (Size Float) → Painter × List Call
  | [] => (p, [])
  | size :: sizes =>
    let (p, calls) := p.resize size
    let (p, more) := p.resizeAll sizes
    (p, calls ++ more)

section

variable {K : Type} [Shown K]

open Shown (toDouble)

/-- The outline of a cell, filled and drawn. -/
def paintHighlight (q : Quad K) : List CanvasCall :=
  [.beginPath, .moveTo (toDouble q.a.x) (toDouble q.a.y), .lineTo (toDouble q.b.x) (toDouble q.b.y),
    .lineTo (toDouble q.c.x) (toDouble q.c.y), .lineTo (toDouble q.d.x) (toDouble q.d.y),
    .closePath, .fillStyle highlightFill, .fill, .lineWidth 2, .strokeStyle highlightStroke, .stroke]

def paintGlyph (glyph : String) (x y size : K) : List CanvasCall :=
  [.font (Decimal.Notation.plain.write (toDouble size) ++ "px serif"), .textAlign "center",
    .textBaseline "middle", .fillText glyph (toDouble x) (toDouble y)]

def paintLabel (text : String) (x y alpha : K) : List CanvasCall :=
  [.save, .textAlign "center", .textBaseline "middle", .font labelFont, .globalAlpha (toDouble alpha),
    .fillStyle labelColor, .fillText text (toDouble x) (toDouble y), .restore]

/-- The calls for one command. -/
def paintCommand : DrawCommand K → List CanvasCall
  | .clear size => [.clearRect 0 0 (toDouble size.width) (toDouble size.height)]
  | .background r => [.drawImage (toDouble r.x) (toDouble r.y) (toDouble r.w) (toDouble r.h)]
  | .highlight q => paintHighlight q
  | .glyph glyph x y size => paintGlyph glyph x y size
  | .label text x y alpha => paintLabel text x y alpha

/-- The calls for a frame. -/
def paint (f : Frame K) : List Call := (f.commands.flatMap paintCommand).map .canvas

end

end Painter

end FarmClient.Page
