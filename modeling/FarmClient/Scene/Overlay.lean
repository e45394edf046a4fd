/-
Floating labels over the farm. A label moves with a constant speed and fades
with the life it has left; one with no life left is gone.
-/
import FarmClient.Geometry.Scalar

namespace FarmClient

structure FloatingText (K : Type) where
  x : K
  y : K
  text : String
  /-- Seconds left. -/
  life : K
  /-- Downward speed, in pixels a second. -/
  vy : K

/-- The opacity of a label. -/
def FloatingText.alpha {K : Type} [Scalar K] (t : FloatingText K) : K :=
  Scalar.clamp 0 1 t.life

/-- The labels alive, in the order in which they appeared. -/
structure Overlay (K : Type) where
  labels : List (FloatingText K)

namespace Overlay

variable {K : Type} [Scalar K]

def empty : Overlay K := ⟨[]⟩

/-- The longest life of a label, in seconds. -/
def fullLife : K := 1

/-- Adds a label, its life cut to the longest one. -/
def spawn (o : Overlay K) (x y : K) (text : String) (life vy : K) : Overlay K :=
  ⟨o.labels ++ [⟨x, y, text, Scalar.min life fullLife, vy⟩]⟩

/-- A label after some seconds. -/
def age (dt : K) (t : FloatingText K) : FloatingText K :=
  { t with y := t.y + t.vy * dt, life := t.life - dt }

/-- The labels after some seconds, those still alive. -/
def advance (o : Overlay K) (dt : K) : Overlay K :=
  ⟨(o.labels.map (age (Scalar.atLeastZero dt))).filter fun t => 0 < t.life⟩

/-- The labels after several spans of seconds. -/
def drive (o : Overlay K) (dts : List K) : Overlay K :=
  dts.foldl advance o

def isEmpty (o : Overlay K) : Bool := o.labels.isEmpty

end Overlay

end FarmClient
