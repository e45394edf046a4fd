/-
The place of the background picture in the viewport: as large as fits, in the
middle from left to right, at the top.
-/
import FarmClient.Geometry.Field

namespace FarmClient

/-- A width and a height. -/
structure Size (K : Type) where
  width : K
  height : K
deriving DecidableEq

structure Layout (K : Type) where
  rect : Rect K
  /-- Pixels on the screen for one of the picture. -/
  scale : K

/-- The layout of a picture, unless it has no size yet. -/
def Layout.fit? {K : Type} [Scalar K] (viewport image : Size K) : Option (Layout K) :=
  if image.width ≤ 0 ∨ image.height ≤ 0 then none
  else
    let scale := Scalar.min (viewport.width / image.width) (viewport.height / image.height)
    let w := image.width * scale
    let h := image.height * scale
    some ⟨⟨(viewport.width - w) / 2, 0, w, h⟩, scale⟩

end FarmClient
