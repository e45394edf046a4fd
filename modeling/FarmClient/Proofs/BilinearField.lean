/-
The plot between its rows and columns. Points that are the same fraction of
the way down lie on a straight line, their row, and points that are the same
fraction of the way right on their column. A patch between two rows and two
columns is a quadrilateral, and whether it contains a point is told by the
sides of these four lines on which the point lies.

The rows of a convex plot may cross outside it, but not between two of its
columns: a point there changes sides exactly once as the row moves down
(`Clockwise.rowSide_neg`). No equation for the fractions of the point is
solved for that, so it holds in every ordered field.
-/
import Mathlib.Order.Interval.Set.Defs
import Mathlib.Tactic.MkIffOfInductiveProp
import Mathlib.Tactic.LinearCombination
import Mathlib.Tactic.Positivity
import Mathlib.Tactic.Ring
import FarmClient.Proofs.ExactNumbers

namespace FarmClient

variable {K : Type} [ExactScalar K]

theorem side_eq (p q r : Point K) :
    side p q r = (q.x - p.x) * (r.y - p.y) - (q.y - p.y) * (r.x - p.x) := rfl

theorem turn_eq (p q r : Point K) :
    turn p q r = (q.x - p.x) * (r.y - q.y) - (q.y - p.y) * (r.x - q.x) := rfl

def Point.cross (a b : Point K) : K := FarmClient.cross a.x a.y b.x b.y

theorem Point.cross_eq (a b : Point K) : a.cross b = a.x * b.y - a.y * b.x := rfl

theorem Point.cross_comm (a b : Point K) : a.cross b = -b.cross a := by
  simp only [cross_eq]
  ring

/-- What four directions in the plane have in common. -/
theorem Point.cross_mul_cross (a b c d : Point K) :
    a.cross b * c.cross d = a.cross d * c.cross b + c.cross a * d.cross b := by
  simp only [cross_eq]
  ring

theorem Quad.isConvex_iff (q : Quad K) :
    q.isConvex = true ↔ (∀ t ∈ q.turns, 0 < t) ∨ ∀ t ∈ q.turns, t < 0 := by
  simp [isConvex]

theorem zero_mem_Icc : (0 : K) ∈ Set.Icc (0 : K) 1 := ⟨le_rfl, zero_le_one⟩

theorem one_mem_Icc : (1 : K) ∈ Set.Icc (0 : K) 1 := ⟨zero_le_one, le_rfl⟩

theorem sub_mul_nonneg_iff {s t j : K} (h : s < t) : 0 ≤ (t - s) * j ↔ 0 ≤ j :=
  mul_nonneg_iff_of_pos_left (sub_pos.mpr h)

theorem sub_mul_nonpos_iff {s t j : K} (h : s < t) : (t - s) * j ≤ 0 ↔ j ≤ 0 := by
  rw [← neg_nonneg, ← mul_neg, sub_mul_nonneg_iff h, neg_nonneg]

theorem sub_mul_nonneg_iff' {s t j : K} (h : t < s) : 0 ≤ (t - s) * j ↔ j ≤ 0 := by
  rw [← neg_sub, neg_mul, neg_nonneg, sub_mul_nonpos_iff h]

theorem sub_mul_nonpos_iff' {s t j : K} (h : t < s) : (t - s) * j ≤ 0 ↔ 0 ≤ j := by
  rw [← neg_sub, neg_mul, neg_nonpos, sub_mul_nonneg_iff h]

namespace Corners

variable (f : Corners K)

theorem at_x (u v : K) : (f.at u v).point.x =
    f.topLeft.x * ((1 - u) * (1 - v)) + f.topRight.x * (u * (1 - v)) +
      f.bottomLeft.x * ((1 - u) * v) + f.bottomRight.x * (u * v) := by
  simp only [ProjectedPoint.point, Corners.at, Scalar.literal_one]

theorem at_y (u v : K) : (f.at u v).point.y =
    f.topLeft.y * ((1 - u) * (1 - v)) + f.topRight.y * (u * (1 - v)) +
      f.bottomLeft.y * ((1 - u) * v) + f.bottomRight.y * (u * v) := by
  simp only [ProjectedPoint.point, Corners.at, Scalar.literal_one]

/-! ## Rows, columns and patches -/

/-- The side of the row `v` on which a point lies, in a clockwise plot
positive below it. -/
def rowSide (v : K) (p : Point K) : K := side (f.at 0 v).point (f.at 1 v).point p

/-- The side of the column `u` on which a point lies, in a clockwise plot
positive right of it. -/
def columnSide (u : K) (p : Point K) : K := side (f.at u 1).point (f.at u 0).point p

/-- The direction of a row. -/
def row (v : K) : Point K := ⟨(f.at 1 v).point.x - (f.at 0 v).point.x, (f.at 1 v).point.y - (f.at 0 v).point.y⟩

/-- The direction of a column. -/
def column (u : K) : Point K := ⟨(f.at u 1).point.x - (f.at u 0).point.x, (f.at u 1).point.y - (f.at u 0).point.y⟩

/-- How far the row `v` turns into the column `u`: the Jacobian there. -/
def jacobian (u v : K) : K :=
  cross ((f.at 1 v).point.x - (f.at 0 v).point.x) ((f.at 1 v).point.y - (f.at 0 v).point.y)
    ((f.at u 1).point.x - (f.at u 0).point.x) ((f.at u 1).point.y - (f.at u 0).point.y)

theorem jacobian_eq (u v : K) : f.jacobian u v =
    ((f.at 1 v).point.x - (f.at 0 v).point.x) * ((f.at u 1).point.y - (f.at u 0).point.y) -
      ((f.at 1 v).point.y - (f.at 0 v).point.y) * ((f.at u 1).point.x - (f.at u 0).point.x) := rfl

/-- The quadrilateral between two columns and two rows. -/
def patch (u₀ u₁ v₀ v₁ : K) : Quad K :=
  ⟨(f.at u₀ v₀).point, (f.at u₁ v₀).point, (f.at u₁ v₁).point, (f.at u₀ v₁).point⟩

theorem outline_eq_patch : f.outline = f.patch 0 1 0 1 := by
  have h (u v : K) (c : Point K) (hx : (f.at u v).point.x = c.x) (hy : (f.at u v).point.y = c.y) :
      c = (f.at u v).point := by
    cases c
    cases hx
    cases hy
    rfl
  simp only [outline, patch, Quad.mk.injEq]
  refine ⟨h 0 0 _ ?_ ?_, h 1 0 _ ?_ ?_, h 1 1 _ ?_ ?_, h 0 1 _ ?_ ?_⟩ <;> simp [at_x, at_y]

/-! ### Sides and turns of a patch -/

theorem side_row (u₀ u₁ v : K) (p : Point K) :
    side (f.at u₀ v).point (f.at u₁ v).point p = (u₁ - u₀) * f.rowSide v p := by
  simp only [rowSide, side_eq, at_x, at_y]
  ring

theorem side_column (u v₀ v₁ : K) (p : Point K) :
    side (f.at u v₀).point (f.at u v₁).point p = (v₀ - v₁) * f.columnSide u p := by
  simp only [columnSide, side_eq, at_x, at_y]
  ring

theorem patch_sides (u₀ u₁ v₀ v₁ : K) (p : Point K) :
    (f.patch u₀ u₁ v₀ v₁).sides p =
      [(u₁ - u₀) * f.rowSide v₀ p, -((v₁ - v₀) * f.columnSide u₁ p), -((u₁ - u₀) * f.rowSide v₁ p),
        (v₁ - v₀) * f.columnSide u₀ p] := by
  simp only [patch, Quad.sides, side_row, side_column, ← neg_mul, neg_sub]

theorem patch_turns (u₀ u₁ v₀ v₁ : K) :
    (f.patch u₀ u₁ v₀ v₁).turns =
      [(u₁ - u₀) * (v₁ - v₀) * f.jacobian u₁ v₀, (u₁ - u₀) * (v₁ - v₀) * f.jacobian u₁ v₁,
        (u₁ - u₀) * (v₁ - v₀) * f.jacobian u₀ v₁, (u₁ - u₀) * (v₁ - v₀) * f.jacobian u₀ v₀] := by
  simp only [patch, Quad.turns, turn_eq, jacobian_eq, at_x, at_y, List.cons.injEq, and_true]
  refine ⟨?_, ?_, ?_, ?_⟩ <;> ring

/-- The point lies between two columns and two rows. -/
@[mk_iff]
structure Within (u₀ u₁ v₀ v₁ : K) (p : Point K) : Prop where
  top : 0 ≤ f.rowSide v₀ p
  bottom : f.rowSide v₁ p ≤ 0
  left : 0 ≤ f.columnSide u₀ p
  right : f.columnSide u₁ p ≤ 0

/-- A patch contains what lies between its lines, or, if it is turned over,
what lies between them the other way round. -/
theorem patch_contains_iff {u₀ u₁ v₀ v₁ : K} (hu : u₀ < u₁) (hv : v₀ < v₁) (p : Point K) :
    (f.patch u₀ u₁ v₀ v₁).contains p = true ↔ f.Within u₀ u₁ v₀ v₁ p ∨ f.Within u₁ u₀ v₁ v₀ p := by
  rw [Quad.contains_iff, patch_sides]
  simp only [List.forall_mem_cons, List.not_mem_nil, false_implies, implies_true, and_true,
    neg_nonneg, neg_nonpos, sub_mul_nonneg_iff hu, sub_mul_nonneg_iff hv, sub_mul_nonpos_iff hu,
    sub_mul_nonpos_iff hv]
  constructor
  · rintro (⟨ht, hr, hb, hl⟩ | ⟨ht, hr, hb, hl⟩)
    · exact .inl ⟨ht, hb, hl, hr⟩
    · exact .inr ⟨hb, ht, hr, hl⟩
  · rintro (⟨ht, hb, hl, hr⟩ | ⟨hb, ht, hr, hl⟩)
    · exact .inl ⟨ht, hr, hb, hl⟩
    · exact .inr ⟨ht, hr, hb, hl⟩

/-! ### Points of the plot -/

/-- The way from a point of the plot to another point. -/
def way (u v : K) (p : Point K) : Point K := ⟨p.x - (f.at u v).point.x, p.y - (f.at u v).point.y⟩

theorem rowSide_eq (u v v' : K) (p : Point K) :
    f.rowSide v' p = (f.row v').cross (f.way u v p) + (v - v') * f.jacobian u v' := by
  simp only [rowSide, side_eq, jacobian_eq, Point.cross_eq, row, way, at_x, at_y]
  ring

theorem columnSide_eq (u v u' : K) (p : Point K) :
    f.columnSide u' p = (f.way u v p).cross (f.column u') + (u - u') * f.jacobian u' v := by
  simp only [columnSide, side_eq, jacobian_eq, Point.cross_eq, column, way, at_x, at_y]
  ring

theorem rowSide_at (u v v' : K) : f.rowSide v' (f.at u v).point = (v - v') * f.jacobian u v' := by
  simp [f.rowSide_eq u v, way, Point.cross_eq]

theorem columnSide_at (u v u' : K) : f.columnSide u' (f.at u v).point = (u - u') * f.jacobian u' v := by
  simp [f.columnSide_eq u v, way, Point.cross_eq]

/-! ## The Jacobian -/

/-- The Jacobian is affine. -/
theorem jacobian_affine (u v : K) : f.jacobian u v = f.jacobian 0 0 +
    (f.jacobian 1 0 - f.jacobian 0 0) * u + (f.jacobian 0 1 - f.jacobian 0 0) * v := by
  simp only [jacobian_eq, at_x, at_y]
  ring

/-- The sides of a patch on which a point lies add up to its area. -/
theorem sides_area (u₀ u₁ v₀ v₁ : K) (p : Point K) :
    (u₁ - u₀) * (f.rowSide v₀ p - f.rowSide v₁ p) + (v₁ - v₀) * (f.columnSide u₀ p - f.columnSide u₁ p) =
      (u₁ - u₀) * (v₁ - v₀) * (f.jacobian u₀ v₁ + f.jacobian u₁ v₀) := by
  simp only [rowSide, columnSide, side_eq, jacobian_eq, at_x, at_y]
  ring

variable {f} {u₀ u₁ v₀ v₁ : K}

/-- A Jacobian that is positive at the corners of a patch is positive on it. -/
theorem jacobian_pos {u v : K} (h₀₀ : 0 < f.jacobian u₀ v₀) (h₁₀ : 0 < f.jacobian u₁ v₀)
    (h₀₁ : 0 < f.jacobian u₀ v₁) (h₁₁ : 0 < f.jacobian u₁ v₁) (hu : u ∈ Set.Icc u₀ u₁)
    (hv : v ∈ Set.Icc v₀ v₁) : 0 < f.jacobian u v := by
  have between {a b s t x : K} (h : x ∈ Set.Icc s t) (hs : 0 < a + b * s) (ht : 0 < a + b * t) :
      0 < a + b * x := by
    rcases le_total 0 b with hb | hb
    · linarith [mul_le_mul_of_nonneg_left h.1 hb]
    · linarith [mul_le_mul_of_nonpos_left h.2 hb]
  have row {v : K} (h₀ : 0 < f.jacobian u₀ v) (h₁ : 0 < f.jacobian u₁ v) : 0 < f.jacobian u v := by
    rw [jacobian_affine, add_right_comm] at h₀ h₁ ⊢
    exact between hu h₀ h₁
  have h₀ := row h₀₀ h₁₀
  have h₁ := row h₀₁ h₁₁
  rw [jacobian_affine] at h₀ h₁ ⊢
  exact between hv h₀ h₁

/-- Rows turn into columns the way that the outline of the plot is passed, at
every point of it. -/
def Clockwise (f : Corners K) : Prop :=
  ∀ u ∈ Set.Icc (0 : K) 1, ∀ v ∈ Set.Icc (0 : K) 1, 0 < f.jacobian u v

/-! ## The side of a point changes once -/

theorem row_cross_row (v v' : K) : (f.row v').cross (f.row v) = (v - v') * (f.jacobian 1 v - f.jacobian 0 v) := by
  simp only [jacobian_eq, Point.cross_eq, row, at_x, at_y]
  ring

theorem column_cross_column (u u' : K) :
    (f.column u).cross (f.column u') = (u - u') * (f.jacobian u 1 - f.jacobian u 0) := by
  simp only [jacobian_eq, Point.cross_eq, column, at_x, at_y]
  ring

/-- How the sides of two rows on which a point lies depend on each other: the
directions of the rows, of a column and of the way to the point are four
directions in the plane. -/
theorem jacobian_mul_rowSide (u v v' : K) (p : Point K) :
    f.jacobian u v * f.rowSide v' p =
      (v - v') * (f.jacobian u v * f.jacobian u v' +
        f.columnSide u p * (f.jacobian 1 v - f.jacobian 0 v)) +
      f.rowSide v p * f.jacobian u v' := by
  have h := Point.cross_mul_cross (f.row v) (f.column u) (f.row v') (f.way u v p)
  have hj (v : K) : (f.row v).cross (f.column u) = f.jacobian u v := rfl
  rw [row_cross_row, hj, hj] at h
  rw [f.rowSide_eq u v v', f.rowSide_eq u v v, f.columnSide_eq u v u]
  linear_combination h

theorem jacobian_mul_columnSide (u v u' : K) (p : Point K) :
    f.jacobian u v * f.columnSide u' p =
      (u - u') * (f.jacobian u v * f.jacobian u' v +
        f.rowSide v p * (f.jacobian u 1 - f.jacobian u 0)) +
      f.columnSide u p * f.jacobian u' v := by
  have h := Point.cross_mul_cross (f.row v) (f.column u) (f.way u v p) (f.column u')
  have hj (u : K) : (f.row v).cross (f.column u) = f.jacobian u v := rfl
  rw [hj, hj, Point.cross_comm (f.way u v p) (f.row v), Point.cross_comm (f.column u'), column_cross_column] at h
  rw [f.columnSide_eq u v u', f.columnSide_eq u v u, f.rowSide_eq u v v]
  linear_combination h

/-- The sign in such a dependence; `s` is the side of a line of the other kind. -/
theorem side_neg {j j' s c t t' r r' : K} (h : j * r' = (t - t') * (j * j' + s * c) + r * j')
    (hj : 0 < j) (hj' : 0 < j') (hs : 0 ≤ s * c) (ht : t < t') (hr : r ≤ 0) : r' < 0 := by
  have h₁ : (t - t') * (j * j' + s * c) < 0 := mul_neg_of_neg_of_pos (sub_neg.mpr ht) (by positivity)
  have h₂ : r * j' ≤ 0 := mul_nonpos_of_nonpos_of_nonneg hr hj'.le
  exact neg_of_mul_neg_right (h ▸ by linarith) hj.le

namespace Clockwise

variable {p : Point K}

/-- Between two columns, a point that is not below a row is above all later ones. -/
theorem rowSide_neg (h : f.Clockwise) (hu₀ : u₀ ∈ Set.Icc (0 : K) 1) (hu₁ : u₁ ∈ Set.Icc (0 : K) 1)
    (hl : 0 ≤ f.columnSide u₀ p) (hr : f.columnSide u₁ p ≤ 0) (hv₀ : v₀ ∈ Set.Icc (0 : K) 1)
    (hv₁ : v₁ ∈ Set.Icc (0 : K) 1) (hv : v₀ < v₁) (hp : f.rowSide v₀ p ≤ 0) : f.rowSide v₁ p < 0 := by
  -- the column on whose side the dependence has the right sign
  rcases le_total 0 (f.jacobian 1 v₀ - f.jacobian 0 v₀) with hc | hc
  · exact side_neg (jacobian_mul_rowSide u₀ v₀ v₁ p) (h _ hu₀ _ hv₀) (h _ hu₀ _ hv₁)
      (mul_nonneg hl hc) hv hp
  · exact side_neg (jacobian_mul_rowSide u₁ v₀ v₁ p) (h _ hu₁ _ hv₀) (h _ hu₁ _ hv₁)
      (mul_nonneg_of_nonpos_of_nonpos hr hc) hv hp

/-- Between two rows, a point that is not right of a column is left of all later ones. -/
theorem columnSide_neg (h : f.Clockwise) (hv₀ : v₀ ∈ Set.Icc (0 : K) 1) (hv₁ : v₁ ∈ Set.Icc (0 : K) 1)
    (ht : 0 ≤ f.rowSide v₀ p) (hb : f.rowSide v₁ p ≤ 0) (hu₀ : u₀ ∈ Set.Icc (0 : K) 1)
    (hu₁ : u₁ ∈ Set.Icc (0 : K) 1) (hu : u₀ < u₁) (hp : f.columnSide u₀ p ≤ 0) :
    f.columnSide u₁ p < 0 := by
  rcases le_total 0 (f.jacobian u₀ 1 - f.jacobian u₀ 0) with hc | hc
  · exact side_neg (jacobian_mul_columnSide u₀ v₀ u₁ p) (h _ hu₀ _ hv₀) (h _ hu₁ _ hv₀)
      (mul_nonneg ht hc) hu hp
  · exact side_neg (jacobian_mul_columnSide u₀ v₁ u₁ p) (h _ hu₀ _ hv₁) (h _ hu₁ _ hv₁)
      (mul_nonneg_of_nonpos_of_nonpos hb hc) hu hp

/-! ### Patches of the plot -/

/-- A patch of the plot is not turned over. -/
theorem not_within_over (h : f.Clockwise) (hu₀ : u₀ ∈ Set.Icc (0 : K) 1) (hu₁ : u₁ ∈ Set.Icc (0 : K) 1)
    (hv₀ : v₀ ∈ Set.Icc (0 : K) 1) (hv₁ : v₁ ∈ Set.Icc (0 : K) 1) (hu : u₀ < u₁) (hv : v₀ < v₁) :
    ¬ f.Within u₁ u₀ v₁ v₀ p := by
  rintro ⟨hb, ht, hr, hl⟩
  have hu' := sub_pos.mpr hu
  have hv' := sub_pos.mpr hv
  have h₁ := mul_nonneg hu'.le (sub_nonneg.mpr (ht.trans hb))
  have h₂ := mul_nonneg hv'.le (sub_nonneg.mpr (hl.trans hr))
  have h₃ := mul_pos (mul_pos hu' hv') (add_pos (h _ hu₀ _ hv₁) (h _ hu₁ _ hv₀))
  linarith [f.sides_area u₀ u₁ v₀ v₁ p]

theorem contains_iff (h : f.Clockwise) (hu₀ : u₀ ∈ Set.Icc (0 : K) 1) (hu₁ : u₁ ∈ Set.Icc (0 : K) 1)
    (hv₀ : v₀ ∈ Set.Icc (0 : K) 1) (hv₁ : v₁ ∈ Set.Icc (0 : K) 1) (hu : u₀ < u₁) (hv : v₀ < v₁) :
    (f.patch u₀ u₁ v₀ v₁).contains p = true ↔ f.Within u₀ u₁ v₀ v₁ p := by
  rw [patch_contains_iff f hu hv, or_iff_left (h.not_within_over hu₀ hu₁ hv₀ hv₁ hu hv)]

theorem outline_contains_iff (h : f.Clockwise) : f.outline.contains p = true ↔ f.Within 0 1 0 1 p := by
  rw [outline_eq_patch, h.contains_iff zero_mem_Icc one_mem_Icc zero_mem_Icc one_mem_Icc zero_lt_one zero_lt_one]

theorem within_at (h : f.Clockwise) {u v : K} (hu : u ∈ Set.Icc (0 : K) 1) (hv : v ∈ Set.Icc (0 : K) 1) :
    f.Within 0 1 0 1 (f.at u v).point := by
  constructor
  · rw [rowSide_at, sub_zero]
    exact mul_nonneg hv.1 (h u hu 0 zero_mem_Icc).le
  · rw [rowSide_at]
    exact mul_nonpos_of_nonpos_of_nonneg (sub_nonpos.mpr hv.2) (h u hu 1 one_mem_Icc).le
  · rw [columnSide_at, sub_zero]
    exact mul_nonneg hu.1 (h 0 zero_mem_Icc v hv).le
  · rw [columnSide_at]
    exact mul_nonpos_of_nonpos_of_nonneg (sub_nonpos.mpr hu.2) (h 1 one_mem_Icc v hv).le

/-- What lies in a patch of the plot lies in the plot. -/
theorem within_plot (h : f.Clockwise) (hu₀ : u₀ ∈ Set.Icc (0 : K) 1) (hu₁ : u₁ ∈ Set.Icc (0 : K) 1)
    (hv₀ : v₀ ∈ Set.Icc (0 : K) 1) (hv₁ : v₁ ∈ Set.Icc (0 : K) 1) (hp : f.Within u₀ u₁ v₀ v₁ p) :
    f.Within 0 1 0 1 p := by
  obtain ⟨ht, hb, hl, hr⟩ := hp
  refine ⟨le_of_not_gt fun hn => ?_, ?_, le_of_not_gt fun hn => ?_, ?_⟩
  · rcases hv₀.1.eq_or_lt with rfl | hv
    · exact hn.not_ge ht
    · exact (h.rowSide_neg hu₀ hu₁ hl hr zero_mem_Icc hv₀ hv hn.le).not_ge ht
  · rcases hv₁.2.eq_or_lt with rfl | hv
    · exact hb
    · exact (h.rowSide_neg hu₀ hu₁ hl hr hv₁ one_mem_Icc hv hb).le
  · rcases hu₀.1.eq_or_lt with rfl | hu
    · exact hn.not_ge hl
    · exact (h.columnSide_neg hv₀ hv₁ ht hb zero_mem_Icc hu₀ hu hn.le).not_ge hl
  · rcases hu₁.2.eq_or_lt with rfl | hu
    · exact hr
    · exact (h.columnSide_neg hv₀ hv₁ ht hb hu₁ one_mem_Icc hu hr).le

end Clockwise

end Corners

/-! ## The plot in a mirror -/

def Point.mirror (p : Point K) : Point K := ⟨-p.x, p.y⟩

def Quad.mirror (q : Quad K) : Quad K := ⟨q.a.mirror, q.b.mirror, q.c.mirror, q.d.mirror⟩

def Corners.mirror (f : Corners K) : Corners K := f.map Point.mirror

theorem side_mirror (p q r : Point K) : side p.mirror q.mirror r.mirror = -side p q r := by
  simp only [side_eq, Point.mirror]
  ring

theorem turn_mirror (p q r : Point K) : turn p.mirror q.mirror r.mirror = -turn p q r := by
  simp only [turn_eq, Point.mirror]
  ring

@[simp] theorem Quad.mirror_contains (q : Quad K) (p : Point K) :
    q.mirror.contains p.mirror = q.contains p := by
  have h : q.mirror.sides p.mirror = (q.sides p).map (- ·) := by simp [sides, mirror, side_mirror]
  rw [Bool.eq_iff_iff, contains_iff, contains_iff]
  simp only [h, List.forall_mem_map, neg_nonneg, neg_nonpos]
  exact or_comm

@[simp] theorem Quad.mirror_isConvex (q : Quad K) : q.mirror.isConvex = q.isConvex := by
  have h : q.mirror.turns = q.turns.map (- ·) := by simp [turns, mirror, turn_mirror]
  rw [Bool.eq_iff_iff, isConvex_iff, isConvex_iff]
  simp only [h, List.forall_mem_map, neg_pos, neg_lt_zero]
  exact or_comm

namespace Corners

variable (f : Corners K)

@[simp] theorem mirror_at (u v : K) : (f.mirror.at u v).point = (f.at u v).point.mirror := by
  simp only [ProjectedPoint.point, Corners.at, mirror, map, Point.mirror, Scalar.literal_one, Point.mk.injEq,
    and_true]
  ring

@[simp] theorem mirror_outline : f.mirror.outline = f.outline.mirror := rfl

@[simp] theorem mirror_patch (u₀ u₁ v₀ v₁ : K) : f.mirror.patch u₀ u₁ v₀ v₁ = (f.patch u₀ u₁ v₀ v₁).mirror := by
  simp [patch, Quad.mirror]

theorem mirror_jacobian (u v : K) : f.mirror.jacobian u v = -f.jacobian u v := by
  simp only [jacobian_eq, mirror_at, Point.mirror]
  ring

/-- A convex plot is clockwise as it is, or in the mirror. -/
theorem clockwise_of_isConvex (h : f.outline.isConvex = true) : f.Clockwise ∨ f.mirror.Clockwise := by
  simp only [outline_eq_patch, Quad.isConvex_iff, patch_turns, List.forall_mem_cons, List.not_mem_nil,
    false_implies, implies_true, and_true, sub_zero, one_mul] at h
  rcases h with ⟨h₁₀, h₁₁, h₀₁, h₀₀⟩ | ⟨h₁₀, h₁₁, h₀₁, h₀₀⟩
  · exact .inl fun u hu v hv => jacobian_pos h₀₀ h₁₀ h₀₁ h₁₁ hu hv
  · rw [← neg_pos, ← mirror_jacobian] at h₀₀ h₁₀ h₀₁ h₁₁
    exact .inr fun u hu v hv => jacobian_pos h₀₀ h₁₀ h₀₁ h₁₁ hu hv

end Corners

end FarmClient
