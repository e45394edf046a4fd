/-
Quadrilaterals in the plane, `y` pointing down: turns at the corners, winding,
convexity, and membership of a point, edges and corners included.
-/
import FarmClient.Geometry.Scalar

namespace FarmClient

structure Point (K : Type) where
  x : K
  y : K
deriving DecidableEq

/-- Four corners in the order in which the outline passes them. -/
structure Quad (K : Type) where
  a : Point K
  b : Point K
  c : Point K
  d : Point K
deriving DecidableEq

inductive Winding where
  | clockwise
  | counterClockwise
deriving DecidableEq

variable {K : Type} [Scalar K]

/-- The signed area of the parallelogram of two vectors. -/
def cross (ax ay bx by' : K) : K := ax * by' - ay * bx

/-- How far the way from `p` over `q` to `r` turns at `q`. -/
def turn (p q r : Point K) : K :=
  cross (q.x - p.x) (q.y - p.y) (r.x - q.x) (r.y - q.y)

/-- On which side of the line from `p` to `q` the point `r` lies. -/
def side (p q r : Point K) : K :=
  cross (q.x - p.x) (q.y - p.y) (r.x - p.x) (r.y - p.y)

/-- The turns at the corners `b`, `c`, `d` and `a`. -/
def Quad.turns (q : Quad K) : List K :=
  [turn q.a q.b q.c, turn q.b q.c q.d, turn q.c q.d q.a, turn q.d q.a q.b]

/-- Twice the signed area. -/
def Quad.twiceArea (q : Quad K) : K :=
  cross q.a.x q.a.y q.b.x q.b.y + cross q.b.x q.b.y q.c.x q.c.y +
    cross q.c.x q.c.y q.d.x q.d.y + cross q.d.x q.d.y q.a.x q.a.y

/-- The way round, if the area is not zero. -/
def Quad.winding (q : Quad K) : Option Winding :=
  if 0 < q.twiceArea then some .clockwise
  else if q.twiceArea < 0 then some .counterClockwise
  else none

/-- All corners turn strictly to the same side. -/
def Quad.isConvex (q : Quad K) : Bool :=
  q.turns.all (fun t => 0 < t) || q.turns.all (fun t => t < 0)

/-- The sides of the four edges on which a point lies. -/
def Quad.sides (q : Quad K) (p : Point K) : List K :=
  [side q.a q.b p, side q.b q.c p, side q.c q.d p, side q.d q.a p]

/-- All sides that are not zero have one sign: `sign`, unless that is zero. -/
def agree (sign : K) : List K → Bool
  | [] => true
  | s :: rest =>
    if Scalar.isZero s then agree sign rest
    else if Scalar.isZero sign then agree (Scalar.signum s) rest
    else if Scalar.differs (Scalar.signum s) sign then false
    else agree sign rest

/-- Whether a point lies in the quadrilateral; its edges and corners belong to it. -/
def Quad.contains (q : Quad K) (p : Point K) : Bool :=
  agree 0 (q.sides p)

end FarmClient
