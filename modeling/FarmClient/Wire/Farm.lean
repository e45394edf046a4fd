/-
The farm as the server tells it: crops, cells and the grid with the gold and
the farm clock. A missing cell of the grid is an empty plot.
-/
import FarmClient.Wire.FromText
import FarmClient.Wire.FromValue
import FarmClient.Wire.ToValue

namespace FarmClient

inductive Crop where
  | grass
  | wheat
  | carrot
  | cabbage
  | strawberry
  | eggplant
  | tomato
  /-- A crop this client has no sprite for. -/
  | unknown
deriving DecidableEq

/-- The sprite drawn for a crop. -/
def Crop.emoji : Crop → String
  | .grass => "🌿"
  | .wheat => "🌾"
  | .carrot => "🥕"
  | .cabbage => "🥬"
  | .strawberry => "🍓"
  | .eggplant => "🍆"
  | .tomato => "🍅"
  | .unknown => "🌱"

/-- The names of the known crops on the wire. -/
def Crop.names : List String :=
  ["grass", "wheat", "carrot", "cabbage", "strawberry", "eggplant", "tomato"]

/-- The crops that have those names. -/
def Crop.named : Fin Crop.names.length → Crop
  | ⟨0, _⟩ => .grass
  | ⟨1, _⟩ => .wheat
  | ⟨2, _⟩ => .carrot
  | ⟨3, _⟩ => .cabbage
  | ⟨4, _⟩ => .strawberry
  | ⟨5, _⟩ => .eggplant
  | ⟨_, _⟩ => .tomato

def Crop.index? : Crop → Option (Fin Crop.names.length)
  | .grass => some ⟨0, by decide⟩
  | .wheat => some ⟨1, by decide⟩
  | .carrot => some ⟨2, by decide⟩
  | .cabbage => some ⟨3, by decide⟩
  | .strawberry => some ⟨4, by decide⟩
  | .eggplant => some ⟨5, by decide⟩
  | .tomato => some ⟨6, by decide⟩
  | .unknown => none

def Crop.ofIndex? : Option (Fin Crop.names.length) → Crop
  | some i => Crop.named i
  | none => .unknown

theorem Crop.ofIndex?_index? (c : Crop) : Crop.ofIndex? c.index? = c := by
  cases c <;> rfl

theorem Crop.index?_ofIndex? (i : Option (Fin Crop.names.length)) : (Crop.ofIndex? i).index? = i := by
  match i with
  | none => rfl
  | some ⟨0, _⟩ => rfl
  | some ⟨1, _⟩ => rfl
  | some ⟨2, _⟩ => rfl
  | some ⟨3, _⟩ => rfl
  | some ⟨4, _⟩ => rfl
  | some ⟨5, _⟩ => rfl
  | some ⟨6, _⟩ => rfl

/-- One plot; the ratios are from 0 to 1. Without a crop it is empty. -/
structure Cell where
  crop : Option Crop
  maturity : Float
  water : Float
  nutrition : Float

def Cell.isEmpty (c : Cell) : Bool :=
  c.crop.isNone

/-- Grown and ready for the harvest. -/
def Cell.isMature (c : Cell) : Bool :=
  1 ≤ c.maturity

/-- The farm at one moment; `grid` holds rows of cells, and the clock is in seconds. -/
structure Farm where
  gold : Option Int64
  time : Option Float
  grid : List (List (Option Cell))

/-- The cell in column `x` of row `y`, if there is one. -/
def Farm.cell? (f : Farm) (x y : Nat) : Option Cell := do
  let row ← f.grid[y]?
  let cell ← row[x]?
  cell

namespace Wire

/-- A field of a cell or a farm that may be left out. -/
def leave (key : String) : Label := { key, lenient := true }

def cellFields : Fields :=
  .cons (leave "type") (.optional (.nameOr "unknown" Crop.names)) <|
  .cons (leave "maturity") .f64 <|
  .cons (leave "water") .f64 <|
  .cons { key := "nutrition", otherKey := some "nutrient", lenient := true } .f64 .nil

def cellShape : Shape := .record "struct Cell" cellFields

def cellOf : cellShape.Val → Cell
  | (crop, maturity, water, nutrition, ()) =>
    ⟨Option.map Crop.ofIndex? crop, maturity, water, nutrition⟩

def cellVal (c : Cell) : cellShape.Val :=
  (c.crop.map Crop.index?, c.maturity, c.water, c.nutrition, ())

theorem cellOf_cellVal (c : Cell) : cellOf (cellVal c) = c := by
  obtain ⟨crop, maturity, water, nutrition⟩ := c
  cases crop with
  | none => rfl
  | some c =>
    exact congrArg (fun c => (⟨some c, maturity, water, nutrition⟩ : Cell)) (Crop.ofIndex?_index? c)

def farmFields : Fields :=
  .cons (leave "gold") (.optional .i64) <|
  .cons (leave "time") (.optional .f64) <|
  .cons (leave "grid") (.array (.array (.optional cellShape))) .nil

def farmShape : Shape := .record "struct FarmState" farmFields

def gridOf (grid : List (List (Option cellShape.Val))) : List (List (Option Cell)) :=
  grid.map (List.map (Option.map cellOf))

def gridVal (grid : List (List (Option Cell))) : List (List (Option cellShape.Val)) :=
  grid.map (List.map (Option.map cellVal))

theorem gridOf_gridVal (grid : List (List (Option Cell))) : gridOf (gridVal grid) = grid := by
  have cell : Option.map cellOf ∘ Option.map cellVal = id := by
    funext c
    cases c <;> simp [cellOf_cellVal]
  have row : List.map (Option.map cellOf) ∘ List.map (Option.map cellVal) = id := by
    funext r
    rw [Function.comp_apply, List.map_map, cell, List.map_id, id]
  rw [gridOf, gridVal, List.map_map, row, List.map_id]

def farmOf : farmShape.Val → Farm
  | (gold, time, grid, ()) => ⟨gold, time, gridOf grid⟩

def farmVal (f : Farm) : farmShape.Val :=
  (f.gold, f.time, gridVal f.grid, ())

theorem farmOf_farmVal (f : Farm) : farmOf (farmVal f) = f :=
  congrArg (Farm.mk f.gold f.time) (gridOf_gridVal f.grid)

end Wire

/-- Reads a cell from a text. -/
def Cell.read (text : List Char) : Except Json.Fault Cell :=
  (Wire.cellShape.read text).map Wire.cellOf

/-- Reads a farm from a text. -/
def Farm.read (text : List Char) : Except Json.Fault Farm :=
  (Wire.farmShape.read text).map Wire.farmOf

/-- A farm as JSON. -/
def Farm.toValue (f : Farm) : Json.Value :=
  Wire.farmShape.toValue (Wire.farmVal f)

end FarmClient
