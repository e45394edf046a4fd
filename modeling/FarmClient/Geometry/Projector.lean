/-
The square grid on the plot. A projector is made only for a grid of at least
two cells a side and for corners, as fractions of the background, that lie in
the picture and form a strictly convex quadrilateral. Cells of the last row
and column lie beyond the plot, one cell further.
-/
import FarmClient.Geometry.Field
import FarmClient.Decimal.Notation

namespace FarmClient

/-- A cell by its column and its row. -/
structure CellPos where
  x : Nat
  y : Nat
deriving DecidableEq

/-- Why no projector is made. -/
inductive GeometryError (K : Type) where
  | gridTooSmall (grid : Int)
  | ratioOutOfRange (corner : String) (value : K)
  | notConvex

def GeometryError.text {K : Type} [Shown K] : GeometryError K → String
  | .gridTooSmall grid =>
    "grid must have at least 2 cells per side, got " ++ Decimal.intText grid
  | .ratioOutOfRange corner value =>
    "field ratio corner " ++ corner ++ " has component " ++ Decimal.Notation.plain.write (Shown.toDouble value) ++
      " outside [0, 1]"
  | .notConvex => "field ratio corners do not form a convex quadrilateral"

section

variable {K : Type} [Scalar K]

/-- The components of the corners with their corner's name, in the order of the outline. -/
def Corners.components (c : Corners K) : List (String × K) :=
  [("topLeft", c.topLeft.x), ("topLeft", c.topLeft.y), ("topRight", c.topRight.x),
    ("topRight", c.topRight.y), ("bottomRight", c.bottomRight.x), ("bottomRight", c.bottomRight.y),
    ("bottomLeft", c.bottomLeft.x), ("bottomLeft", c.bottomLeft.y)]

/-- From zero to one. -/
def isFraction (x : K) : Bool := 0 ≤ x && x ≤ 1

end

structure Projector (K : Type) [Scalar K] where
  /-- Cells on each side. -/
  grid : Nat
  /-- The corners as fractions of the background. -/
  ratio : Corners K
  two_le_grid : 2 ≤ grid
  fractions : ratio.components.all (fun c => isFraction c.2) = true
  convex : ratio.outline.isConvex = true

namespace Projector

variable {K : Type} [Scalar K]

/-- The projector for a grid and corners, or the first thing wrong with them. -/
def make (grid : Int) (ratio : Corners K) : Except (GeometryError K) (Projector K) :=
  if hg : 2 ≤ grid then
    match hc : ratio.components.find? fun c => !isFraction c.2 with
    | some (corner, value) => .error (.ratioOutOfRange corner value)
    | none =>
      if hq : ratio.outline.isConvex = true then
        .ok ⟨grid.toNat, ratio, by omega, by simpa using hc, hq⟩
      else .error .notConvex
  else .error (.gridTooSmall grid)

/-- The plot's corners on the screen, for a place of the background. -/
def resolve (p : Projector K) (background : Rect K) : Corners K :=
  p.ratio.map fun c => ⟨background.x + c.x * background.w, background.y + c.y * background.h⟩

/-- The cells that lie on one side of the plot. -/
def span (p : Projector K) : K := Scalar.ofNat (p.grid - 1)

/-- Where a cell's crop stands. -/
def center (p : Projector K) (c : CellPos) (field : Corners K) : ProjectedPoint K :=
  field.at ((Scalar.ofNat c.x + 35 / 100) / p.span) ((Scalar.ofNat c.y + 2 / 10) / p.span)

/-- The corners of a cell. -/
def corners (p : Projector K) (c : CellPos) (field : Corners K) : Quad K :=
  let step := 1 / p.span
  let u := Scalar.ofNat c.x * step
  let v := Scalar.ofNat c.y * step
  let u' := Scalar.ofNat (c.x + 1) * step
  let v' := Scalar.ofNat (c.y + 1) * step
  ⟨(field.at u v).point, (field.at u' v).point, (field.at u' v').point, (field.at u v').point⟩

/-- All cells, row by row. -/
def cells (p : Projector K) : List CellPos :=
  (List.range p.grid).flatMap fun y => (List.range p.grid).map fun x => ⟨x, y⟩

/-- The first cell that contains a point. -/
def hit? (g : Projector K) (p : Point K) (field : Corners K) : Option CellPos :=
  g.cells.find? fun c => (g.corners c field).contains p

end Projector

end FarmClient
