/-
What a painter has to do for one frame, in order: clear, background, crops
row by row with the hovered cell's outline before its own crop, labels.
-/
import FarmClient.Scene.Basic

namespace FarmClient

inductive DrawCommand (K : Type) where
  | clear (size : Size K)
  | background (rect : Rect K)
  /-- The outline of the hovered cell. -/
  | highlight (corners : Quad K)
  /-- A sprite around a point. -/
  | glyph (glyph : String) (x y size : K)
  | label (text : String) (x y alpha : K)
deriving DecidableEq

/-- A whole frame, with the line of resources above it. -/
structure Frame (K : Type) where
  commands : List (DrawCommand K)
  hud : String

/-- The size of crop sprites: a base, and bounds for what comes of it. -/
structure CropScale (K : Type) where
  base : K
  low : K
  high : K

/-- The bounds of sprite sizes exclude each other. -/
structure BoundsFault (K : Type) where
  low : K
  high : K

def BoundsFault.text (f : BoundsFault Float) : String :=
  "min > max, or either was NaN. min = " ++ Decimal.Notation.report.write f.low ++ ", max = " ++
    Decimal.Notation.report.write f.high

/-- The line of resources. -/
def FarmCache.hud (c : FarmCache) : String :=
  "💰 " ++ Decimal.intText ((c.gold?.map Int64.toInt).getD 0) ++ " | 🕒 " ++
    Decimal.Notation.plain.write (c.time?.getD 0)

variable {K : Type} [Scalar K]

namespace CropScale

def standard : CropScale K := ⟨44, 32, 64⟩

/-- The size of a sprite: it grows with the scale of the background, with the
depth in the picture and with the crop. -/
def size (c : CropScale K) (scale depth maturity : K) : K :=
  Scalar.clamp c.low c.high
    (c.base * scale * (1 + depth * (25 / 100)) * (6 / 10 + maturity * (4 / 10)))

/-- The size of a sprite, if the bounds allow any. -/
def size? (c : CropScale K) (scale depth maturity : K) : Except (BoundsFault K) K :=
  if c.low ≤ c.high then .ok (c.size scale depth maturity) else .error ⟨c.low, c.high⟩

end CropScale

namespace Scene

/-- The sprite over a crop that is ready for the harvest. -/
def harvestGlyph : String := "🟢"

/-- A crop's sprite at its place, with the sprite of the harvest if it is grown. -/
def drawCrop (sizes : CropScale K) (scale : K) (p : ProjectedPoint K) (cell : Cell) (crop : Crop) :
    List (DrawCommand K) :=
  let size := sizes.size scale p.depth (Scalar.ofDouble cell.maturity)
  let dot := (14 + p.depth * 4) * scale
  .glyph crop.emoji p.x p.y size ::
    if cell.isMature then [.glyph harvestGlyph (p.x + dot) (p.y - dot) dot] else []

/-- What is drawn for one cell. -/
def drawCell (s : Scene K) (sizes : CropScale K) (l : Layout K) (field : Corners K) (pos : CellPos) :
    List (DrawCommand K) :=
  match s.cache.cell? pos.x pos.y with
  | none => []
  | some cell =>
    (if s.hovered = some pos then [.highlight (s.projector.corners pos field)] else []) ++
      match cell.crop with
      | none => []
      | some crop => drawCrop sizes l.scale (s.projector.center pos field) cell crop

/-- What is drawn of the farm once the background has its place. -/
def drawFarm (s : Scene K) (sizes : CropScale K) (l : Layout K) : List (DrawCommand K) :=
  .background l.rect ::
    if s.cache.hasGrid then
      s.projector.cells.flatMap (s.drawCell sizes l (s.projector.resolve l.rect))
    else []

def drawLabel (t : FloatingText K) : DrawCommand K := .label t.text t.x t.y t.alpha

/-- The frame of a scene. -/
def draw (s : Scene K) (sizes : CropScale K) : Frame K where
  commands := .clear s.viewport ::
    ((match s.layout with
      | none => []
      | some l => s.drawFarm sizes l) ++ s.overlay.labels.map drawLabel)
  hud := s.cache.hud

/-- Whether any crop is drawn, and so any sprite's size asked for. -/
def drawsCrop (s : Scene K) : Bool :=
  s.layout.isSome && s.projector.cells.any fun pos =>
    ((s.cache.cell? pos.x pos.y).bind (·.crop)).isSome

/-- The frame of a scene, if the bounds of sprite sizes are not missed. -/
def draw? (s : Scene K) (sizes : CropScale K) : Except (BoundsFault K) (Frame K) :=
  if sizes.low ≤ sizes.high ∨ s.drawsCrop = false then .ok (s.draw sizes)
  else .error ⟨sizes.low, sizes.high⟩

end Scene

end FarmClient
