/-
Numbers without rounding. In an ordered field the comparisons and signs by
which a point is told to lie in a quadrilateral mean what they say: it lies
there if no two of its sides have opposite signs.
-/
import Mathlib.Algebra.Order.Field.Basic
import Mathlib.Algebra.Order.Field.Rat
import Mathlib.Tactic.Linarith
import FarmClient.Geometry.Projector
import FarmClient.Proofs.ExactFarm

namespace FarmClient

/-- An ordered field in which a drawing is computed. -/
class ExactScalar (K : Type) extends Field K, LinearOrder K, IsStrictOrderedRing K, Scalar K where
  ofNat_eq : ∀ n : Nat, Scalar.ofNat n = (n : K)

/-- Every ordered field will do, whatever doubles are read as. -/
@[reducible] def ExactScalar.ofField (K : Type) [Field K] [LinearOrder K] [IsStrictOrderedRing K]
    (ofDouble : Float → K) : ExactScalar K where
  ofNat n := n
  ofDouble := ofDouble
  decidableLT := inferInstance
  decidableLE := inferInstance
  ofNat_eq _ := rfl

instance : ExactScalar Rat := .ofField Rat ratOfDouble

variable {K : Type} [ExactScalar K]

namespace Scalar

@[simp] theorem ofNat_eq_cast (n : Nat) : (Scalar.ofNat n : K) = n := ExactScalar.ofNat_eq n

/-! ### Numerals -/

@[simp] theorem literal_zero : @OfNat.ofNat K 0 (literal 0) = 0 :=
  (ofNat_eq_cast 0).trans Nat.cast_zero

@[simp] theorem literal_one : @OfNat.ofNat K 1 (literal 1) = 1 :=
  (ofNat_eq_cast 1).trans Nat.cast_one

@[simp] theorem literal_ofNat (n : Nat) [n.AtLeastTwo] :
    @OfNat.ofNat K n (literal n) = (OfNat.ofNat n : K) :=
  ofNat_eq_cast n

/-! ### Signs -/

@[simp] theorem isZero_eq (x : K) : isZero x = decide (x = 0) := by
  rw [Bool.eq_iff_iff]
  simp only [isZero, literal_zero, Bool.and_eq_true, decide_eq_true_eq]
  exact le_antisymm_iff.symm

@[simp] theorem differs_eq (x y : K) : differs x y = decide (x ≠ y) := by
  rw [Bool.eq_iff_iff]
  simp only [differs, Bool.not_eq_true', Bool.and_eq_false_iff, decide_eq_false_iff_not,
    decide_eq_true_eq, ← not_and_or]
  exact not_congr le_antisymm_iff.symm

theorem signum_of_pos {x : K} (h : 0 < x) : signum x = 1 := by
  simp [signum, h]

theorem signum_of_neg {x : K} (h : x < 0) : signum x = -1 := by
  simp [signum, h, h.not_gt]

end Scalar

/-! ### Sides of one sign -/

/-- What is asked of sides once their sign is settled. -/
theorem agree_sign {sign : K} (h : sign = 1 ∨ sign = -1) (l : List K) :
    agree sign l = true ↔ ∀ s ∈ l, 0 ≤ sign * s := by
  have h1 : (1 : K) ≠ -1 := by
    intro h
    linarith
  induction l with
  | nil => simp [agree]
  | cons s l ih =>
    rcases lt_trichotomy s 0 with hs | rfl | hs
    · rcases h with rfl | rfl
      · simp [agree, hs.ne, hs.not_ge, Scalar.signum_of_neg hs, h1.symm]
      · simp [agree, hs.ne, hs.le, Scalar.signum_of_neg hs, ih]
    · simp [agree, ih]
    · rcases h with rfl | rfl
      · simp [agree, hs.ne', hs.le, Scalar.signum_of_pos hs, ih]
      · simp [agree, hs.ne', hs.not_ge, Scalar.signum_of_pos hs, h1]

theorem agree_zero (l : List K) : agree 0 l = true ↔ (∀ s ∈ l, 0 ≤ s) ∨ ∀ s ∈ l, s ≤ 0 := by
  induction l with
  | nil => simp [agree]
  | cons s l ih =>
    -- the first side that is not zero settles the sign
    rcases lt_trichotomy s 0 with hs | rfl | hs
    · have ha : agree 0 (s :: l) = agree (-1) l := by simp [agree, hs.ne, Scalar.signum_of_neg hs]
      rw [ha, agree_sign (.inr rfl)]
      simp [hs.not_ge, hs.le]
    · simpa [agree] using ih
    · have ha : agree 0 (s :: l) = agree 1 l := by simp [agree, hs.ne', Scalar.signum_of_pos hs]
      rw [ha, agree_sign (.inl rfl)]
      simp [hs.not_ge, hs.le]

/-- **Membership of a point**: no two of its sides have opposite signs. -/
theorem Quad.contains_iff (q : Quad K) (p : Point K) :
    q.contains p = true ↔ (∀ s ∈ q.sides p, 0 ≤ s) ∨ ∀ s ∈ q.sides p, s ≤ 0 := by
  rw [← agree_zero]
  simp [contains]

end FarmClient
