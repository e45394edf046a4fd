/-
What the drawing asks of a number: the four operations and the order. Doubles
are one such type, and any ordered field is another, so that what runs on
doubles can also be read exactly. Only `<` and `≤` are used to compare, since
a double that is not a number is neither above nor below anything.
-/

namespace FarmClient

class Scalar (K : Type) extends Add K, Sub K, Mul K, Div K, Neg K, LT K, LE K where
  ofNat : Nat → K
  /-- The value of a number that came over the wire. -/
  ofDouble : Float → K
  decidableLT : DecidableLT K
  decidableLE : DecidableLE K

attribute [reducible, instance] Scalar.decidableLT Scalar.decidableLE

-- a type that has operations of its own is computed in with those
attribute [instance (10)] Scalar.toAdd Scalar.toSub Scalar.toMul Scalar.toDiv Scalar.toNeg Scalar.toLT Scalar.toLE

instance : Scalar Float where
  ofNat := Float.ofNat
  ofDouble := id
  decidableLT := inferInstance
  decidableLE := inferInstance

/-- Numbers that can be handed on as doubles, to a person or to a browser. -/
class Shown (K : Type) extends Scalar K where
  toDouble : K → Float

instance : Shown Float where
  toDouble := id

namespace Scalar

variable {K : Type} [Scalar K]

instance (priority := 10) literal (n : Nat) : OfNat K n := ⟨Scalar.ofNat n⟩

/-- Equal to zero, of either sign. -/
def isZero (x : K) : Bool := x ≤ 0 && 0 ≤ x

/-- The sign as a number; what is not a number stays so. -/
def signum (x : K) : K := if 0 < x then 1 else if x < 0 then -1 else x

/-- Different, or not comparable. -/
def differs (x y : K) : Bool := !(x ≤ y && y ≤ x)

/-- The smaller of two; what is not a number gives way to the other. -/
def min (x y : K) : K := if x ≤ y then x else if y ≤ y then y else x

/-- At least zero. -/
def atLeastZero (x : K) : K := if 0 ≤ x then x else 0

/-- Within bounds; what is not a number stays so. -/
def clamp (low high x : K) : K := if x < low then low else if high < x then high else x

end Scalar

end FarmClient
