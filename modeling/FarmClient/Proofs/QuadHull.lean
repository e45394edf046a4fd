/-
Which points a quadrilateral contains. The sides on which a point lies are
compared one after the other, from the first corner on; where the outline
begins and which way round it is passed makes no difference to that
(`Quad.rotate_contains`, `Quad.reverse_contains`).

What is contained is in the hull of the corners, the means of them, unless all
corners lie on one line: the point sees the outline pass around it, so one of
the two triangles on a diagonal contains it already (`Quad.hull_of_sides`). The
corners need not be convex for that. If they are, all their means are contained.
-/
import Mathlib.Logic.Function.Iterate
import Mathlib.Tactic.NormNum
import FarmClient.Proofs.BilinearField

namespace FarmClient

variable {K : Type} [ExactScalar K]

/-! ## Means of the corners -/

/-- What the four corners weigh in a mean of them. -/
structure Weights (K : Type) [ExactScalar K] where
  a : K
  b : K
  c : K
  d : K
  a_nonneg : 0 ≤ a
  b_nonneg : 0 ≤ b
  c_nonneg : 0 ≤ c
  d_nonneg : 0 ≤ d
  sum_eq_one : a + b + c + d = 1

/-- The mean of the corners. -/
def Weights.mean (w : Weights K) (q : Quad K) : Point K where
  x := w.a * q.a.x + w.b * q.b.x + w.c * q.c.x + w.d * q.d.x
  y := w.a * q.a.y + w.b * q.b.y + w.c * q.c.y + w.d * q.d.y

/-- The point is a convex combination of the corners. -/
def Quad.Hull (q : Quad K) (p : Point K) : Prop := ∃ w : Weights K, w.mean q = p

/-- The side of a line on which a mean lies is the mean of the corners' sides. -/
theorem Weights.side_mean (w : Weights K) (q : Quad K) (r s : Point K) :
    side r s (w.mean q) = w.a * side r s q.a + w.b * side r s q.b + w.c * side r s q.c + w.d * side r s q.d := by
  simp only [side_eq, mean]
  linear_combination ((s.x - r.x) * r.y - (s.y - r.y) * r.x) * w.sum_eq_one

@[simp] theorem side_start (p q : Point K) : side p q p = 0 := by
  rw [side_eq]
  ring

@[simp] theorem side_stop (p q : Point K) : side p q q = 0 := by
  rw [side_eq]
  ring

theorem side_swap (p q r : Point K) : side q p r = -side p q r := by
  simp only [side_eq]
  ring

theorem turn_swap (p q r : Point K) : turn r q p = -turn p q r := by
  simp only [turn_eq]
  ring

theorem turn_cycle (p q r : Point K) : turn q r p = turn p q r := by
  simp only [turn_eq]
  ring

/-- The turn at a corner is the side of the edge before it on which the next corner lies. -/
theorem side_eq_turn (p q r : Point K) : side p q r = turn p q r := by
  rw [side_eq, turn_eq]
  ring

/-- The sides of a triangle on which a point lies add up to its area. -/
theorem sides_triangle (a b c p : Point K) : side a b p + side b c p + side c a p = turn a b c := by
  simp only [side_eq, turn_eq]
  ring

namespace Quad

variable (q : Quad K)

/-! ## The outline from another corner, and the other way round -/

/-- The same outline from the next corner on. -/
def rotate (q : Quad K) : Quad K := ⟨q.b, q.c, q.d, q.a⟩

/-- The same outline the other way round. -/
def reverse (q : Quad K) : Quad K := ⟨q.d, q.c, q.b, q.a⟩

theorem rotate_sides (p : Point K) : q.rotate.sides p = (q.sides p).rotate 1 := rfl

theorem rotate_turns : q.rotate.turns = q.turns.rotate 1 := rfl

theorem reverse_sides (p : Point K) : q.reverse.sides p = ((q.sides p).map (- ·)).reverse.rotate 1 := by
  simp only [sides, reverse, side_swap q.a q.b, side_swap q.b q.c, side_swap q.c q.d, side_swap q.d q.a]
  rfl

theorem reverse_turns : q.reverse.turns = ((q.turns.map (- ·)).reverse).rotate 2 := by
  simp only [turns, reverse, turn_swap q.a q.b q.c, turn_swap q.b q.c q.d, turn_swap q.c q.d q.a,
    turn_swap q.d q.a q.b]
  rfl

@[simp] theorem rotate_contains (p : Point K) : q.rotate.contains p = q.contains p := by
  rw [Bool.eq_iff_iff, contains_iff, contains_iff, rotate_sides]
  simp only [List.mem_rotate]

@[simp] theorem reverse_contains (p : Point K) : q.reverse.contains p = q.contains p := by
  rw [Bool.eq_iff_iff, contains_iff, contains_iff, reverse_sides]
  simp only [List.mem_rotate, List.mem_reverse, List.forall_mem_map, neg_nonneg, neg_nonpos]
  exact or_comm

theorem iterate_rotate_contains (n : ℕ) (p : Point K) : (rotate^[n] q).contains p = q.contains p := by
  induction n with
  | zero => rfl
  | succ n ih => rw [Function.iterate_succ_apply', rotate_contains, ih]

/-! ### The way round -/

@[simp] theorem rotate_twiceArea : q.rotate.twiceArea = q.twiceArea := by
  simp only [twiceArea, rotate]
  ring

@[simp] theorem reverse_twiceArea : q.reverse.twiceArea = -q.twiceArea := by
  simp only [twiceArea, reverse, cross]
  ring

theorem iterate_rotate_winding (n : ℕ) : (rotate^[n] q).winding = q.winding := by
  have h : (rotate^[n] q).twiceArea = q.twiceArea := by
    induction n with
    | zero => rfl
    | succ n ih => rw [Function.iterate_succ_apply', rotate_twiceArea, ih]
  rw [winding, winding, h]

end Quad

/-- The other way round. -/
def Winding.opposite : Winding → Winding
  | .clockwise => .counterClockwise
  | .counterClockwise => .clockwise

theorem Quad.reverse_winding (q : Quad K) : q.reverse.winding = q.winding.map Winding.opposite := by
  simp only [winding, reverse_twiceArea, Scalar.literal_zero, neg_pos, neg_lt_zero]
  rcases lt_trichotomy q.twiceArea 0 with h | h | h
  · simp [h, h.not_gt, Winding.opposite]
  · simp [h]
  · simp [h, h.not_gt, Winding.opposite]

namespace Quad

variable {q : Quad K} {p : Point K}

/-! ## What is contained is a mean -/

/-- Weights that do not add up to one yet. -/
theorem hull_of_balance {α β γ δ : K} (hα : 0 ≤ α) (hβ : 0 ≤ β) (hγ : 0 ≤ γ) (hδ : 0 ≤ δ)
    (hs : α + β + γ + δ ≠ 0) (hx : α * q.a.x + β * q.b.x + γ * q.c.x + δ * q.d.x = (α + β + γ + δ) * p.x)
    (hy : α * q.a.y + β * q.b.y + γ * q.c.y + δ * q.d.y = (α + β + γ + δ) * p.y) : q.Hull p := by
  have hs₀ : 0 ≤ α + β + γ + δ := by positivity
  refine ⟨⟨α / (α + β + γ + δ), β / (α + β + γ + δ), γ / (α + β + γ + δ), δ / (α + β + γ + δ),
    div_nonneg hα hs₀, div_nonneg hβ hs₀, div_nonneg hγ hs₀, div_nonneg hδ hs₀, ?_⟩, ?_⟩
  · rw [← add_div, ← add_div, ← add_div, div_self hs]
  · cases p
    simp only [Weights.mean, div_mul_eq_mul_div, ← add_div, Point.mk.injEq]
    exact ⟨by rw [hx, mul_div_cancel_left₀ _ hs], by rw [hy, mul_div_cancel_left₀ _ hs]⟩

theorem hull_rotate (h : q.rotate.Hull p) : q.Hull p := by
  obtain ⟨w, rfl⟩ := h
  refine ⟨⟨w.d, w.a, w.b, w.c, w.d_nonneg, w.a_nonneg, w.b_nonneg, w.c_nonneg, ?_⟩, ?_⟩
  · linear_combination w.sum_eq_one
  · simp only [Weights.mean, rotate, Point.mk.injEq]
    constructor <;> ring

theorem hull_reverse (h : q.reverse.Hull p) : q.Hull p := by
  obtain ⟨w, rfl⟩ := h
  refine ⟨⟨w.d, w.c, w.b, w.a, w.d_nonneg, w.c_nonneg, w.b_nonneg, w.a_nonneg, ?_⟩, ?_⟩
  · linear_combination w.sum_eq_one
  · simp only [Weights.mean, reverse, Point.mk.injEq]
    constructor <;> ring

/-- A point in the triangle of the first three corners: the triangles that it
forms with their sides are its weights. -/
theorem hull_of_triangle (hc : 0 ≤ side q.a q.b p) (ha : 0 ≤ side q.b q.c p) (hb : 0 ≤ side q.c q.a p)
    (h : turn q.a q.b q.c ≠ 0) : q.Hull p := by
  have hs : side q.b q.c p + side q.c q.a p + side q.a q.b p + 0 = turn q.a q.b q.c := by
    rw [← sides_triangle q.a q.b q.c p]
    ring
  refine hull_of_balance ha hb hc le_rfl (hs ▸ h) ?_ ?_
  · simp only [side_eq]
    ring
  · simp only [side_eq]
    ring

/-- A point on both edges at the first corner, which is not on the diagonal
between their ends, is that corner. -/
theorem hull_of_corner (hab : side q.a q.b p = 0) (hda : side q.d q.a p = 0) (hbd : side q.b q.d p ≠ 0) :
    q.Hull p := by
  have hx : side q.b q.d p * (q.a.x - p.x) +
      (side q.d q.a p * (q.b.x - p.x) + side q.a q.b p * (q.d.x - p.x)) = 0 := by
    simp only [side_eq]
    ring
  have hy : side q.b q.d p * (q.a.y - p.y) +
      (side q.d q.a p * (q.b.y - p.y) + side q.a q.b p * (q.d.y - p.y)) = 0 := by
    simp only [side_eq]
    ring
  simp only [hab, hda, zero_mul, add_zero, mul_eq_zero, hbd, false_or, sub_eq_zero] at hx hy
  exact ⟨⟨1, 0, 0, 0, zero_le_one, le_rfl, le_rfl, le_rfl, by simp⟩, by simp [Weights.mean, hx, hy]⟩

/-- A point around which the outline passes is a mean of the corners, unless
they all lie on one line. -/
theorem hull_of_sides (hs : ∀ s ∈ q.sides p, 0 ≤ s) (ht : ∃ t ∈ q.turns, t ≠ 0) : q.Hull p := by
  have key {q : Quad K} (hs : ∀ s ∈ q.sides p, 0 ≤ s) (ht : ∃ t ∈ q.turns, t ≠ 0)
      (hca : 0 ≤ side q.c q.a p) : q.Hull p := by
    simp only [sides, List.forall_mem_cons, List.not_mem_nil, false_implies, implies_true, and_true] at hs
    obtain ⟨hab, hbc, hcd, hda⟩ := hs
    have habc := sides_triangle q.a q.b q.c p
    have hcda := sides_triangle q.c q.d q.a p
    have hac := side_swap q.c q.a p
    by_cases h₁ : turn q.a q.b q.c = 0
    · by_cases h₂ : turn q.c q.d q.a = 0
      · have hab₀ : side q.a q.b p = 0 := by linarith
        have hbc₀ : side q.b q.c p = 0 := by linarith
        have hcd₀ : side q.c q.d p = 0 := by linarith
        have hda₀ : side q.d q.a p = 0 := by linarith
        refine hull_of_corner hab₀ hda₀ fun hbd => ?_
        have hbcd := sides_triangle q.b q.c q.d p
        have hdab := sides_triangle q.d q.a q.b p
        have hdb := side_swap q.b q.d p
        simp only [turns, List.mem_cons, List.not_mem_nil, or_false] at ht
        obtain ⟨t, rfl | rfl | rfl | rfl, ht⟩ := ht
        · exact ht h₁
        · exact ht (by linarith)
        · exact ht h₂
        · exact ht (by linarith)
      · have hac₀ : 0 ≤ side q.a q.c p := by linarith
        exact hull_rotate (hull_rotate (hull_of_triangle (q := q.rotate.rotate) hcd hda hac₀ h₂))
    · exact hull_of_triangle hab hbc hca h₁
  -- seen from the third corner, the point lies on the other side of the diagonal
  rcases le_total 0 (side q.c q.a p) with hca | hca
  · exact key hs ht hca
  · refine hull_rotate (hull_rotate (key ?_ ?_ ?_))
    · simpa only [rotate_sides, List.mem_rotate] using hs
    · simpa only [rotate_turns, List.mem_rotate] using ht
    · change 0 ≤ side q.a q.c p
      rw [side_swap q.c q.a p]
      exact neg_nonneg.mpr hca

/-- **What is contained is a mean** of the corners, convex or not, unless they
all lie on one line. -/
theorem hull_of_contains (h : q.contains p = true) (ht : ∃ t ∈ q.turns, t ≠ 0) : q.Hull p := by
  rcases (q.contains_iff p).mp h with hs | hs
  · exact hull_of_sides hs ht
  · refine hull_reverse (hull_of_sides ?_ ?_)
    · simpa only [reverse_sides, List.mem_rotate, List.mem_reverse, List.forall_mem_map, neg_nonneg] using hs
    · obtain ⟨t, hm, ht⟩ := ht
      refine ⟨-t, ?_, neg_ne_zero.mpr ht⟩
      rw [reverse_turns, List.mem_rotate, List.mem_reverse]
      exact List.mem_map_of_mem hm

/-! ## What is a mean is contained -/

/-- The sides on which a mean lies, by the weights of the corners beyond each edge. -/
theorem sides_mean (q : Quad K) (w : Weights K) :
    q.sides (w.mean q) =
      [w.c * turn q.a q.b q.c + w.d * turn q.d q.a q.b, w.a * turn q.a q.b q.c + w.d * turn q.b q.c q.d,
        w.a * turn q.c q.d q.a + w.b * turn q.b q.c q.d, w.b * turn q.d q.a q.b + w.c * turn q.c q.d q.a] := by
  simp only [sides, w.side_mean, side_start, side_stop, side_eq_turn, mul_zero, zero_add, add_zero,
    turn_cycle q.a q.b q.c, turn_cycle q.b q.c q.d, turn_cycle q.c q.d q.a, turn_cycle q.d q.a q.b]

/-- If all corners turn to the right, a mean of them is right of all edges, and likewise to the left. -/
theorem contains_mean (h : q.isConvex = true) (w : Weights K) : q.contains (w.mean q) = true := by
  rw [contains_iff, sides_mean]
  rw [isConvex_iff] at h
  simp only [turns, List.forall_mem_cons, List.not_mem_nil, false_implies, implies_true, and_true] at h ⊢
  have ha := w.a_nonneg
  have hb := w.b_nonneg
  have hc := w.c_nonneg
  have hd := w.d_nonneg
  have add {u v s t : K} (hu : 0 ≤ u) (hv : 0 ≤ v) (hs : 0 < s) (ht : 0 < t) : 0 ≤ u * s + v * t := by positivity
  have sub {u v s t : K} (hu : 0 ≤ u) (hv : 0 ≤ v) (hs : s < 0) (ht : t < 0) : u * s + v * t ≤ 0 :=
    add_nonpos (mul_nonpos_of_nonneg_of_nonpos hu hs.le) (mul_nonpos_of_nonneg_of_nonpos hv ht.le)
  rcases h with ⟨habc, hbcd, hcda, hdab⟩ | ⟨habc, hbcd, hcda, hdab⟩
  · exact .inl ⟨add hc hd habc hdab, add ha hd habc hbcd, add ha hb hcda hbcd, add hb hc hdab hcda⟩
  · exact .inr ⟨sub hc hd habc hdab, sub ha hd habc hbcd, sub ha hb hcda hbcd, sub hb hc hdab hcda⟩

/-- The corners of a convex quadrilateral do not lie on one line. -/
theorem exists_turn_ne_zero (h : q.isConvex = true) : ∃ t ∈ q.turns, t ≠ 0 := by
  have hm : turn q.a q.b q.c ∈ q.turns := List.mem_cons_self
  rcases q.isConvex_iff.mp h with h | h
  · exact ⟨_, hm, (h _ hm).ne'⟩
  · exact ⟨_, hm, (h _ hm).ne⟩

theorem contains_iff_hull (h : q.isConvex = true) : q.contains p = true ↔ q.Hull p := by
  refine ⟨fun hp => hull_of_contains hp (exists_turn_ne_zero h), ?_⟩
  rintro ⟨w, rfl⟩
  exact contains_mean h w

/-- **Membership of a point.** A convex quadrilateral contains the means of its
corners and nothing else. Where the outline begins and which way round it is
passed makes no difference to what any quadrilateral contains, and its winding
tells the way round alone. -/
theorem contains_iff_hull_relabelled (q : Quad K) (p : Point K) :
    (q.isConvex = true → (q.contains p = true ↔ q.Hull p)) ∧
    (∀ n, (rotate^[n] q).contains p = q.contains p ∧ (rotate^[n] q).winding = q.winding) ∧
    q.reverse.contains p = q.contains p ∧
    q.reverse.winding = q.winding.map Winding.opposite ∧ (q.winding = none ↔ q.reverse.winding = none) := by
  refine ⟨contains_iff_hull, fun n => ⟨q.iterate_rotate_contains n p, q.iterate_rotate_winding n⟩,
    q.reverse_contains p, q.reverse_winding, ?_⟩
  rw [reverse_winding, Option.map_eq_none_iff]

/-- A quadrilateral that stands askew. -/
def askew : Quad ℚ := ⟨⟨3, 1⟩, ⟨9, 2⟩, ⟨8, 9⟩, ⟨1, 7⟩⟩

/-- A point inside, a corner, and a point just outside an edge. -/
theorem contains_iff_hull_relabelled_askew : askew.isConvex = true ∧ askew.Hull ⟨5, 5⟩ ∧ askew.Hull ⟨9, 2⟩ ∧
    ¬ askew.Hull ⟨9, 3⟩ ∧ (rotate^[2] askew).contains ⟨9, 2⟩ = true ∧
    askew.reverse.winding = some .counterClockwise := by
  have hc : askew.isConvex = true := by decide +kernel
  have h (p : Point ℚ) := contains_iff_hull_relabelled askew p
  refine ⟨hc, ((h _).1 hc).mp (by decide +kernel), ((h _).1 hc).mp (by decide +kernel), fun hout => ?_, ?_, ?_⟩
  · exact absurd (((h _).1 hc).mpr hout) (by decide +kernel)
  · rw [((h _).2.1 2).1]
    decide +kernel
  · rw [(h ⟨0, 0⟩).2.2.2.1]
    decide +kernel

end Quad

end FarmClient
