/-
The farm as last seen. Only a whole snapshot replaces the grid and the time;
an event changes nothing but the gold. A snapshot's grid is empty or has as
many rows, and cells in each row, as the farm.
-/
import FarmClient.Wire.Farm

namespace FarmClient

/-- Why a snapshot is refused. -/
inductive SnapshotError where
  | rowCount (expected got : Nat)
  | rowWidth (row expected got : Nat)
deriving DecidableEq

def SnapshotError.text : SnapshotError → String
  | .rowCount expected got =>
    "snapshot has " ++ Decimal.natText got ++ " rows, expected " ++ Decimal.natText expected
  | .rowWidth row expected got =>
    "snapshot row " ++ Decimal.natText row ++ " has " ++ Decimal.natText got ++ " cells, expected " ++
      Decimal.natText expected

structure FarmCache where
  gridSize : Nat
  farm : Farm

namespace FarmCache

/-- Nothing is known of the farm. -/
def empty (gridSize : Nat) : FarmCache := ⟨gridSize, ⟨none, none, []⟩⟩

/-- The first row whose width is not the expected one, with its width. -/
def badRow? (expected : Nat) (grid : List (List (Option Cell))) : Option (Nat × Nat) :=
  (grid.zipIdx.find? fun r => r.1.length ≠ expected).map fun r => (r.2, r.1.length)

/-- What is wrong with a snapshot's grid. -/
def fault? (expected : Nat) (grid : List (List (Option Cell))) : Option SnapshotError :=
  if grid.isEmpty then none
  else if grid.length ≠ expected then some (.rowCount expected grid.length)
  else (badRow? expected grid).map fun r => .rowWidth r.1 expected r.2

/-- Replaces the farm by a snapshot. -/
def apply (c : FarmCache) (snapshot : Farm) : Except SnapshotError FarmCache :=
  match fault? c.gridSize snapshot.grid with
  | some e => .error e
  | none => .ok { c with farm := snapshot }

def gold? (c : FarmCache) : Option Int64 := c.farm.gold

def time? (c : FarmCache) : Option Float := c.farm.time

def cell? (c : FarmCache) (x y : Nat) : Option Cell := c.farm.cell? x y

def hasGrid (c : FarmCache) : Bool := !c.farm.grid.isEmpty

/-- Takes over an event's gold; the change, if the gold before was known. It
is a number of 64 bits like both of them. -/
def recordGold (c : FarmCache) (gold : Int64) : FarmCache × Option Int :=
  ({ c with farm := { c.farm with gold := some gold } },
    c.farm.gold.map fun known => (gold - known).toInt)

end FarmCache

end FarmClient
