/-
What the pointer hovers. As long as the viewport has a width and a height, the
plot has an area on the screen. Its Jacobian, which is affine, then vanishes at
no three corners of a cell, so no cell shrinks to a line, not even one beyond
the plot that is folded over: a hovered cell has the pointer in its hull.

A viewport without an area leaves nothing of the plot but one point, on every
side of which every position lies: the first cell is hovered wherever the
pointer is.
-/
import FarmClient.Proofs.FieldCells
import FarmClient.Proofs.QuadHull
import FarmClient.Scene.Basic

namespace FarmClient

variable {K : Type} [ExactScalar K]

/-! ## The place of the picture -/

theorem Scalar.min_eq (x y : K) : Scalar.min x y = if x ≤ y then x else y := by
  simp [Scalar.min]

namespace Layout

/-- How large the picture is drawn. -/
def fitScale (viewport image : Size K) : K :=
  Scalar.min (viewport.width / image.width) (viewport.height / image.height)

/-- Where the picture is drawn. -/
def place (viewport image : Size K) : Rect K :=
  let w := image.width * fitScale viewport image
  ⟨(viewport.width - w) / 2, 0, w, image.height * fitScale viewport image⟩

variable {viewport image : Size K}

theorem fit?_eq (hi : 0 < image.width) (hj : 0 < image.height) :
    fit? viewport image = some ⟨place viewport image, fitScale viewport image⟩ := by
  have h : ¬ (image.width ≤ 0 ∨ image.height ≤ 0) := by simp [hi.not_ge, hj.not_ge]
  simp [fit?, place, fitScale, h]

theorem place_pos (hi : 0 < image.width) (hj : 0 < image.height) (hw : 0 < viewport.width)
    (hh : 0 < viewport.height) : 0 < (place viewport image).w ∧ 0 < (place viewport image).h := by
  have h : 0 < fitScale viewport image := by
    rw [fitScale, Scalar.min_eq]
    split
    · exact div_pos hw hi
    · exact div_pos hh hj
  exact ⟨mul_pos hi h, mul_pos hj h⟩

/-- In a viewport without an area the picture is a point. -/
theorem place_of_empty (hi : 0 < image.width) (hj : 0 < image.height) (hw : 0 ≤ viewport.width)
    (hh : 0 ≤ viewport.height) (h : viewport.width = 0 ∨ viewport.height = 0) :
    place viewport image = ⟨viewport.width / 2, 0, 0, 0⟩ := by
  have hw' := div_nonneg hw hi.le
  have hh' := div_nonneg hh hj.le
  have h₀ : fitScale viewport image = 0 := by
    rw [fitScale, Scalar.min_eq]
    rcases h with h | h
    · rw [h, zero_div] at hw' ⊢
      rw [if_pos hh']
    · rw [h, zero_div] at hh' ⊢
      split
      · next hle => exact le_antisymm hle hw'
      · rfl
  simp [place, h₀]

end Layout

/-! ## A plot with an area -/

namespace Corners

variable {f : Corners K} {u₀ u₁ v₀ v₁ : K}

/-- No patch of a plot with an area shrinks to a line. -/
theorem exists_patch_turn_ne_zero (h : f.jacobian 0 0 ≠ 0) (hu : u₀ < u₁) (hv : v₀ < v₁) :
    ∃ t ∈ (f.patch u₀ u₁ v₀ v₁).turns, t ≠ 0 := by
  have hu' : u₁ - u₀ ≠ 0 := (sub_pos.mpr hu).ne'
  have hv' : v₁ - v₀ ≠ 0 := (sub_pos.mpr hv).ne'
  by_contra! hn
  simp only [patch_turns, List.forall_mem_cons, List.not_mem_nil, false_implies, implies_true, and_true,
    mul_eq_zero, hu', hv', false_or] at hn
  obtain ⟨h₁₀, -, h₀₁, h₀₀⟩ := hn
  -- an affine function that vanishes at three corners of a rectangle is zero
  rw [jacobian_affine] at h₁₀ h₀₁ h₀₀
  have ha : f.jacobian 1 0 - f.jacobian 0 0 = 0 := by
    refine (mul_eq_zero.mp ?_).resolve_right hu'
    linear_combination h₁₀ - h₀₀
  have hb : f.jacobian 0 1 - f.jacobian 0 0 = 0 := by
    refine (mul_eq_zero.mp ?_).resolve_right hv'
    linear_combination h₀₁ - h₀₀
  exact h (by simpa [ha, hb] using h₀₀)

/-- A plot of which nothing is left but a point. -/
theorem at_of_point {q : Point K} (u v : K) : ((Corners.mk q q q q).at u v).point = q := by
  cases q
  simp only [ProjectedPoint.point, Corners.at, Scalar.literal_one, Point.mk.injEq]
  constructor <;> ring

end Corners

namespace Projector

variable (g : Projector K)

theorem ratio_jacobian_ne_zero : g.ratio.jacobian 0 0 ≠ 0 := by
  rcases g.ratio.clockwise_of_isConvex g.convex with h | h
  · exact (h 0 zero_mem_Icc 0 zero_mem_Icc).ne'
  · have h := h 0 zero_mem_Icc 0 zero_mem_Icc
    rw [Corners.mirror_jacobian, neg_pos] at h
    exact h.ne

variable {g} {b : Rect K} {p : Point K} {c : CellPos}

/-- A cell that is found has the point in its hull. -/
theorem hull_of_hit? (hw : b.w ≠ 0) (hh : b.h ≠ 0) (h : g.hit? p (g.resolve b) = some c) :
    (g.corners c (g.resolve b)).Hull p := by
  have hj : (g.resolve b).jacobian 0 0 ≠ 0 := by
    rw [resolve_jacobian]
    exact mul_ne_zero (mul_ne_zero hw hh) g.ratio_jacobian_ne_zero
  refine Quad.hull_of_contains ((g.hit?_eq_some_iff p _ c).mp h).2.1 ?_
  rw [corners_eq_patch]
  exact Corners.exists_patch_turn_ne_zero hj (g.line_lt_succ c.x) (g.line_lt_succ c.y)

/-- On a picture without an area all cells are one point. -/
theorem corners_of_empty (hw : b.w = 0) (hh : b.h = 0) (c : CellPos) :
    g.corners c (g.resolve b) = ⟨⟨b.x, b.y⟩, ⟨b.x, b.y⟩, ⟨b.x, b.y⟩, ⟨b.x, b.y⟩⟩ := by
  have hf : g.resolve b = ⟨⟨b.x, b.y⟩, ⟨b.x, b.y⟩, ⟨b.x, b.y⟩, ⟨b.x, b.y⟩⟩ := by
    simp [resolve, Corners.map, hw, hh]
  simp only [corners_eq_patch, Corners.patch, hf, Corners.at_of_point]

/-- There the search finds the first cell for every point. -/
theorem hit?_of_empty (hw : b.w = 0) (hh : b.h = 0) (p : Point K) : g.hit? p (g.resolve b) = some ⟨0, 0⟩ := by
  have hg := g.two_le_grid
  refine (g.hit?_eq_some_iff p _ _).mpr ⟨(g.mem_cells _).mpr ⟨by simp only; omega, by simp only; omega⟩, ?_, ?_⟩
  · rw [corners_of_empty hw hh, Quad.contains_iff]
    simp [Quad.sides, side_eq]
  · rintro c - (h | ⟨-, h⟩) <;> exact absurd h (Nat.not_lt_zero _)

end Projector

/-- The only mean of four times the same point. -/
theorem Quad.hull_point_iff {r p : Point K} : (Quad.mk r r r r).Hull p ↔ p = r := by
  have hmean (w : Weights K) : w.mean ⟨r, r, r, r⟩ = r := by
    cases r
    simp only [Weights.mean, ← add_mul, w.sum_eq_one, one_mul]
  constructor
  · rintro ⟨w, rfl⟩
    exact hmean w
  · rintro rfl
    have w : Weights K := ⟨1, 0, 0, 0, zero_le_one, le_rfl, le_rfl, le_rfl, by simp⟩
    exact ⟨w, hmean w⟩

/-! ## The pointer over the picture -/

namespace Scene

variable (s : Scene K) {viewport image : Size K}

theorem field?_relayout (hi : 0 < image.width) (hj : 0 < image.height) :
    (s.relayout viewport (some image)).field? = some (s.projector.resolve (Layout.place viewport image)) := by
  simp [field?, relayout, Layout.fit?_eq hi hj]

theorem hovered_relayout (hi : 0 < image.width) (hj : 0 < image.height) (p : Point K) :
    ((s.relayout viewport (some image)).pointerMoved p).hovered =
      s.projector.hit? p (s.projector.resolve (Layout.place viewport image)) := by
  simp only [pointerMoved, s.field?_relayout hi hj, Option.bind_some]
  rfl

/-- In a viewport without an area the first cell is hovered everywhere, although
no cell has any point but one. -/
theorem hovered_of_empty (hi : 0 < image.width) (hj : 0 < image.height) (hw : 0 ≤ viewport.width)
    (hh : 0 ≤ viewport.height) (h : viewport.width = 0 ∨ viewport.height = 0) (p : Point K) :
    ((s.relayout viewport (some image)).pointerMoved p).hovered = some ⟨0, 0⟩ ∧
    ∀ c, (s.projector.corners c (s.projector.resolve (Layout.place viewport image))).Hull p ↔
      p = ⟨viewport.width / 2, 0⟩ := by
  rw [s.hovered_relayout hi hj, Layout.place_of_empty hi hj hw hh h]
  refine ⟨Projector.hit?_of_empty rfl rfl p, fun c => ?_⟩
  rw [Projector.corners_of_empty rfl rfl, Quad.hull_point_iff]

/-- **What is hovered is under the pointer.** A hovered cell is one of the grid,
and the pointer is in the hull of its corners, wherever it is, exactly if the
viewport has an area. Otherwise the first cell is hovered everywhere. -/
theorem hovered_hull (hw : 0 ≤ viewport.width) (hh : 0 ≤ viewport.height) (hi : 0 < image.width)
    (hj : 0 < image.height) :
    ∃ field, (s.relayout viewport (some image)).field? = some field ∧
      (∀ p c, ((s.relayout viewport (some image)).pointerMoved p).hovered = some c →
        c.x < s.projector.grid ∧ c.y < s.projector.grid) ∧
      ((∀ p c, ((s.relayout viewport (some image)).pointerMoved p).hovered = some c →
        (s.projector.corners c field).Hull p) ↔ 0 < viewport.width ∧ 0 < viewport.height) ∧
      (viewport.width = 0 ∨ viewport.height = 0 → ∀ p,
        ((s.relayout viewport (some image)).pointerMoved p).hovered = some ⟨0, 0⟩ ∧
        ∀ c, (s.projector.corners c field).Hull p ↔ p = ⟨viewport.width / 2, 0⟩) := by
  refine ⟨_, s.field?_relayout hi hj, fun p c hc => ?_, ⟨fun hall => ?_, fun hpos p c hc => ?_⟩,
    s.hovered_of_empty hi hj hw hh⟩
  · rw [s.hovered_relayout hi hj] at hc
    exact (s.projector.mem_cells c).mp ((s.projector.hit?_eq_some_iff p _ c).mp hc).1
  · by_contra hn
    have h : viewport.width = 0 ∨ viewport.height = 0 := by
      by_contra! h
      exact hn ⟨hw.lt_of_ne h.1.symm, hh.lt_of_ne h.2.symm⟩
    -- a point below the only one the cells have
    obtain ⟨hhit, hhull⟩ := s.hovered_of_empty hi hj hw hh h ⟨viewport.width / 2, 1⟩
    have hp := (hhull _).mp (hall _ _ hhit)
    exact one_ne_zero (congrArg Point.y hp)
  · rw [s.hovered_relayout hi hj] at hc
    obtain ⟨hw', hh'⟩ := Layout.place_pos hi hj hpos.1 hpos.2
    exact Projector.hull_of_hit? hw'.ne' hh'.ne' hc

/-- Over a cell beyond the plot, which is not convex; and in a viewport of no width. -/
theorem hovered_hull_kite :
    (∃ field, ((ofProjector (Projector.kite 2 le_rfl)).relayout ⟨2048, 1024⟩ (some ⟨32, 32⟩)).field? = some field ∧
      ((Projector.kite 2 le_rfl).corners ⟨0, 1⟩ field).Hull ⟨560, 1040⟩) ∧
    (((ofProjector (Projector.kite 2 le_rfl)).relayout ⟨0, 100⟩ (some ⟨10, 10⟩)).pointerMoved ⟨50, 50⟩).hovered =
      some ⟨0, 0⟩ := by
  obtain ⟨field, hf, -, hull, -⟩ := @hovered_hull ℚ _ (ofProjector (Projector.kite 2 le_rfl)) ⟨2048, 1024⟩ ⟨32, 32⟩
    (by norm_num) (by norm_num) (by norm_num) (by norm_num)
  obtain ⟨_, -, -, -, hempty⟩ := @hovered_hull ℚ _ (ofProjector (Projector.kite 2 le_rfl)) ⟨0, 100⟩ ⟨10, 10⟩
    le_rfl (by norm_num) (by norm_num) (by norm_num)
  refine ⟨⟨field, hf, hull.mpr ⟨by norm_num, by norm_num⟩ _ _ ?_⟩, (hempty (.inl rfl) _).1⟩
  decide +kernel

/-- A cell is hovered that does not have the pointer. -/
theorem not_forall_hovered_hull :
    ¬ ∀ (s : Scene ℚ) (viewport image : Size ℚ), 0 ≤ viewport.width → 0 ≤ viewport.height →
      0 < image.width → 0 < image.height → ∀ field, (s.relayout viewport (some image)).field? = some field →
        ∀ p c, ((s.relayout viewport (some image)).pointerMoved p).hovered = some c →
          c.x < s.projector.grid ∧ c.y < s.projector.grid ∧ (s.projector.corners c field).Hull p := by
  intro h
  have hi : (0 : ℚ) < 10 := by norm_num
  have hh : (0 : ℚ) ≤ 100 := by norm_num
  have hhull := (h (ofProjector (Projector.kite 2 le_rfl)) ⟨0, 100⟩ ⟨10, 10⟩ le_rfl hh hi hi _
    (field?_relayout _ hi hi) ⟨50, 50⟩ _ (hovered_of_empty _ hi hi le_rfl hh (.inl rfl) _).1).2.2
  have hp := ((hovered_of_empty _ hi hi le_rfl hh (.inl rfl) _).2 _).mp hhull
  norm_num at hp

end Scene

end FarmClient
