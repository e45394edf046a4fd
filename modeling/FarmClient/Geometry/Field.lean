/-
The plot on the screen: four corners, and the point for each pair of
fractions between them by bilinear interpolation.
-/
import FarmClient.Geometry.Quad

namespace FarmClient

structure Rect (K : Type) where
  x : K
  y : K
  w : K
  h : K
deriving DecidableEq

/-- A point with the depth at which it lies in the picture. -/
structure ProjectedPoint (K : Type) where
  x : K
  y : K
  depth : K

def ProjectedPoint.point {K : Type} (p : ProjectedPoint K) : Point K := ⟨p.x, p.y⟩

/-- The four corners of the plot. -/
structure Corners (K : Type) where
  topLeft : Point K
  topRight : Point K
  bottomLeft : Point K
  bottomRight : Point K

/-- The corners as the outline passes them. -/
def Corners.outline {K : Type} (f : Corners K) : Quad K :=
  ⟨f.topLeft, f.topRight, f.bottomRight, f.bottomLeft⟩

/-- The corners changed one by one. -/
def Corners.map {K L : Type} (f : Point K → Point L) (c : Corners K) : Corners L :=
  ⟨f c.topLeft, f c.topRight, f c.bottomLeft, f c.bottomRight⟩

/-- The point at the fraction `u` of the way right and `v` of the way down. -/
def Corners.at {K : Type} [Scalar K] (f : Corners K) (u v : K) : ProjectedPoint K :=
  let tl := (1 - u) * (1 - v)
  let tr := u * (1 - v)
  let bl := (1 - u) * v
  let br := u * v
  { x := f.topLeft.x * tl + f.topRight.x * tr + f.bottomLeft.x * bl + f.bottomRight.x * br
    y := f.topLeft.y * tl + f.topRight.y * tr + f.bottomLeft.y * bl + f.bottomRight.y * br
    depth := v }

end FarmClient
