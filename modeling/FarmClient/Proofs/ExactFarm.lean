/-
Exact numbers: the rationals as what a drawing is computed in, and a small
farm computed in them. Statements about clients are tried out on it.
-/
import FarmClient.App
import FarmClient.Decimal.Shortest
import FarmClient.Page.Browser

namespace FarmClient

/-- The rational number that a finite double stands for. -/
def ratOfDouble (x : Float) : Rat :=
  let m := Decimal.Magnitude.ofBits x.toBits
  (if x.toBits >>> 63 = 0 then 1 else -1) * m.m * Rat.zpow 2 m.q

instance : Scalar Rat where
  ofNat n := n
  ofDouble := ratOfDouble
  decidableLT := inferInstance
  decidableLE := inferInstance

instance : Shown Rat where
  toDouble x := Float.ofInt x.num / Float.ofNat x.den

namespace ExactFarm

/-- The whole picture as a plot. -/
def corners : Corners Rat := ⟨⟨0, 0⟩, ⟨1, 0⟩, ⟨0, 1⟩, ⟨1, 1⟩⟩

/-- Two cells on each side of the whole picture. -/
def projector : Projector Rat := ⟨2, corners, by decide, by decide, by decide +kernel⟩

/-- A client that has been told nothing. -/
def client : App Rat := .ofSettings ⟨projector, "farm.webp", 100⟩

/-- A browser in which nothing fails. -/
def browser : Page.Browser where
  protocol := "http:"
  host := "farm.test"
  pixelRatio := 1
  bounds := ⟨0, 0, 640, 480⟩
  picture := ⟨640, 480, true⟩
  presence _ := .proper
  context := .flat
  editor _ := .absent
  failing := []
  thrown := .null

/-- A bootstrap payload whose farm has no grid, so that it fits every client. -/
def payload : String :=
  "\x7b\"config\":\x7b\"grid\":2,\"background\":\"farm.webp\",\"field_ratio\":\x7b\"topLeft\":[0,0]," ++
    "\"topRight\":[1,0],\"bottomLeft\":[0,1],\"bottomRight\":[1,1]\x7d,\"exec_interval\":100\x7d," ++
    "\"farm\":\x7b\"gold\":10,\"grid\":[]\x7d\x7d"

theorem payload_read : ∃ b, Bootstrap.read payload.toList = .ok b ∧ b.farm.grid = [] := by
  have h : ((Bootstrap.read payload.toList).toOption.elim false fun b => b.farm.grid.isEmpty) = true := by
    decide +kernel
  cases hb : Bootstrap.read payload.toList with
  | error e => simp [hb, Except.toOption] at h
  | ok b => exact ⟨b, rfl, by simpa [hb, Except.toOption] using h⟩

end ExactFarm

end FarmClient
