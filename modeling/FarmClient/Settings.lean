/-
The settings of a session, taken once from the bootstrap payload and checked
at once: the geometry of the plot and the address of its background.
-/
import FarmClient.Geometry.Projector
import FarmClient.Wire.Bootstrap
import FarmClient.Text.Blank

namespace FarmClient

/-- Why a bootstrap configuration is refused. -/
inductive ConfigError (K : Type) where
  | geometry (error : GeometryError K)
  | missingBackground

def ConfigError.text {K : Type} [Shown K] : ConfigError K → String
  | .geometry e => "invalid field geometry: " ++ e.text
  | .missingBackground => "bootstrap config has no background image"

structure Settings (K : Type) [Scalar K] where
  projector : Projector K
  /-- The address of the background picture. -/
  background : String
  /-- The pause between an auto-step event and its acknowledgement, in milliseconds. -/
  interval : Nat

variable {K : Type} [Scalar K]

def pointOfWire (p : Float × Float) : Point K := ⟨Scalar.ofDouble p.1, Scalar.ofDouble p.2⟩

/-- The corners of the wire. -/
def FieldRatio.corners (r : FieldRatio) : Corners K :=
  ⟨pointOfWire r.topLeft, pointOfWire r.topRight, pointOfWire r.bottomLeft, pointOfWire r.bottomRight⟩

/-- The settings of a bootstrap configuration, or what is wrong with it. -/
def Settings.ofConfig (c : FarmConfig) : Except (ConfigError K) (Settings K) :=
  match Projector.make c.grid.toInt c.ratio.corners with
  | .error e => .error (.geometry e)
  | .ok projector =>
    if c.background.toList.all isBlank then .error .missingBackground
    else .ok ⟨projector, c.background, c.execInterval.toNat⟩

/-- The same settings with another pause. -/
def Settings.withInterval (s : Settings K) (interval : Nat) : Settings K :=
  { s with interval }

end FarmClient
