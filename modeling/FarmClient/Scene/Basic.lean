/-
All that a frame shows: the farm as last seen, the labels over it, the place
of the background, and the cell under the pointer.
-/
import FarmClient.Geometry.Projector
import FarmClient.Scene.Cache
import FarmClient.Scene.Layout
import FarmClient.Scene.Overlay

namespace FarmClient

structure Scene (K : Type) [Scalar K] where
  projector : Projector K
  cache : FarmCache
  overlay : Overlay K
  viewport : Size K
  layout : Option (Layout K)
  hovered : Option CellPos

/-- A change of gold as a label. -/
def goldLabel (delta : Int) : String :=
  (if 0 < delta then "+" else "") ++ Decimal.intText delta ++ " 💰"

namespace Scene

variable {K : Type} [Scalar K]

/-- Nothing is known and nothing laid out. -/
def ofProjector (p : Projector K) : Scene K :=
  ⟨p, .empty p.grid, .empty, ⟨0, 0⟩, none, none⟩

/-- The plot's corners on the screen, once the background has its place. -/
def field? (s : Scene K) : Option (Corners K) :=
  s.layout.map fun l => s.projector.resolve l.rect

/-- Lays out the background; without a picture there is no layout. -/
def relayout (s : Scene K) (viewport : Size K) (image : Option (Size K)) : Scene K :=
  { s with viewport, layout := image.bind fun i => Layout.fit? viewport i }

/-- The pointer moves: the cell under it is hovered. -/
def pointerMoved (s : Scene K) (p : Point K) : Scene K :=
  { s with hovered := s.field?.bind fun field => s.projector.hit? p field }

def pointerLeft (s : Scene K) : Scene K := { s with hovered := none }

/-- Replaces the farm by a snapshot. -/
def apply (s : Scene K) (snapshot : Farm) : Except SnapshotError (Scene K) :=
  (s.cache.apply snapshot).map fun cache => { s with cache }

/-- Advances the labels by some seconds. -/
def advance (s : Scene K) (dt : K) : Scene K := { s with overlay := s.overlay.advance dt }

/-- The upward speed of a gold label, in pixels a second. -/
def labelSpeed : K := -40

/-- A gold label starts this many pixels above the crop. -/
def labelLift : K := 20

/-- Takes over an event's gold and floats the change above the event's cell,
if there is a change, the cell has a place and the plot is laid out. The
change is given back if a label was added. -/
def recordGold (s : Scene K) (x y : Int) (gold : Int64) : Scene K × Option Int :=
  let (cache, delta) := s.cache.recordGold gold
  let s := { s with cache }
  match delta.filter (· ≠ 0) with
  | none => (s, none)
  | some delta =>
    if 0 ≤ x ∧ 0 ≤ y then
      match s.field? with
      | none => (s, none)
      | some field =>
        let p := s.projector.center ⟨x.toNat, y.toNat⟩ field
        let overlay := s.overlay.spawn p.x (p.y - labelLift) (goldLabel delta) Overlay.fullLife labelSpeed
        ({ s with overlay }, some delta)
    else (s, none)

end Scene

end FarmClient
