/-
The payload a client fetches once before it connects: the configuration of
the farm view and the farm itself.
-/
import FarmClient.Wire.Farm
import FarmClient.Wire.MessageError

namespace FarmClient

/-- The corners of the plot as fractions of the background picture. -/
structure FieldRatio where
  topLeft : Float × Float
  topRight : Float × Float
  bottomLeft : Float × Float
  bottomRight : Float × Float

structure FarmConfig where
  /-- Cells on each side. -/
  grid : Int64
  ratio : FieldRatio
  /-- The address of the background picture. -/
  background : String
  /-- The pause between the steps of a run, in milliseconds. -/
  execInterval : UInt64

structure Bootstrap where
  config : FarmConfig
  farm : Farm

namespace Wire

def ratioFields : Fields :=
  .cons { key := "topLeft" } (.pair .f64) <|
  .cons { key := "topRight" } (.pair .f64) <|
  .cons { key := "bottomLeft" } (.pair .f64) <|
  .cons { key := "bottomRight" } (.pair .f64) .nil

def configFields : Fields :=
  .cons { key := "grid" } .i64 <|
  .cons { key := "field_ratio" } (.record "struct FieldRatio" ratioFields) <|
  .cons { key := "background" } .text <|
  .cons { key := "exec_interval" } .u64 .nil

def bootstrapFields : Fields :=
  .cons { key := "config" } (.record "struct FarmConfig" configFields) <|
  .cons { key := "farm" } farmShape .nil

def bootstrapShape : Shape := .record "struct Bootstrap" bootstrapFields

def bootstrapOf : bootstrapShape.Val → Bootstrap
  | ((grid, (tl, tr, bl, br, ()), background, interval, ()), farm, ()) =>
    ⟨⟨grid, ⟨tl, tr, bl, br⟩, background, interval⟩, farmOf farm⟩

def bootstrapVal (b : Bootstrap) : bootstrapShape.Val :=
  let c := b.config
  let r := c.ratio
  ((c.grid, (r.topLeft, r.topRight, r.bottomLeft, r.bottomRight, ()), c.background, c.execInterval, ()),
    farmVal b.farm, ())

theorem bootstrapOf_bootstrapVal (b : Bootstrap) : bootstrapOf (bootstrapVal b) = b := by
  obtain ⟨⟨grid, ⟨tl, tr, bl, br⟩, background, interval⟩, farm⟩ := b
  simp [bootstrapOf, bootstrapVal, farmOf_farmVal]

end Wire

/-- Reads a bootstrap payload from a text. -/
def Bootstrap.read (text : List Char) : Except MessageError Bootstrap :=
  match Wire.bootstrapShape.read text with
  | .ok v => .ok (Wire.bootstrapOf v)
  | .error f => .error (.malformed (f.report text))

def Bootstrap.toValue (b : Bootstrap) : Json.Value :=
  Wire.bootstrapShape.toValue (Wire.bootstrapVal b)

end FarmClient
