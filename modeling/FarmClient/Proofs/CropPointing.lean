/-
Pointing at a crop. A crop stands inside its cell (`exists_center_eq`), so on
the plot a pointer at it is always told its cell. The cells of the last row and
column lie beyond the plot, and only the plot is checked when a projector is
made. As long as all cells together form a convex quadrilateral their crops are
found too; where the plot is folded over beyond its edges, a crop is found
exactly if its own cell still contains it and the plot does not
(`hit?_center`). Cells beyond the plot never take such a point away from each
other, since the Jacobian is affine (`affine_not_both`).
-/
import Mathlib.Tactic.NormNum
import FarmClient.Proofs.FieldCells

namespace FarmClient

variable {K : Type} [ExactScalar K]

/-! ## Signs of an affine function -/

/-- An affine function with one sign on three sides around `(s, t)`, and
positive at two earlier points of the first line, does not have the signs that
a cell between these two points would need to contain `(s, t)`. -/
theorem affine_not_both {A : K → K → K} {a b c s s₁ t t₀ t₁ t' : K} (hA : ∀ s t, A s t = a + b * s + c * t)
    (hs : 1 < s) (hs₁ : s < s₁) (ht₀ : t₀ < t₁) (ht₁ : t₁ < t) (ht' : t < t')
    (h₀ : 0 < A 1 t₀) (h₁ : 0 < A 1 t₁)
    (own : (0 ≤ A s t' ∧ 0 ≤ A 1 t ∧ 0 ≤ A s₁ t) ∨ (A s t' ≤ 0 ∧ A 1 t ≤ 0 ∧ A s₁ t ≤ 0)) :
    ¬ ((0 ≤ A s t₀ ∧ A s t₁ ≤ 0 ∧ 0 ≤ A 1 t ∧ 0 ≤ A s₁ t) ∨
      (0 ≤ A s t₁ ∧ A s t₀ ≤ 0 ∧ A s₁ t ≤ 0 ∧ A 1 t ≤ 0)) := by
  have across (s t t' : K) : A s t' = A s t + (t' - t) * c := by rw [hA, hA]; ring
  have along (s s' t : K) : A s' t = A s t + (s' - s) * b := by rw [hA, hA]; ring
  -- zero on both sides, the function is constant along them
  have flat (h : A 1 t = 0) (h' : A s₁ t = 0) : b = 0 := by
    rw [along 1 s₁ t, h, zero_add] at h'
    exact (mul_eq_zero.mp h').resolve_left (sub_pos.mpr (hs.trans hs₁)).ne'
  rintro (⟨hb₀, hb₁, hl, hr⟩ | ⟨hb₁, hb₀, hr, hl⟩) <;> rcases own with ⟨ho, hol, hor⟩ | ⟨ho, hol, hor⟩
  · -- it falls, and then does not: it is zero on the whole line through the point
    have hc₀ : c ≤ 0 := by
      rw [across s t₀ t₁] at hb₁
      exact (sub_mul_nonpos_iff ht₀).mp (by linarith)
    have hc₁ : 0 ≤ c := by
      rw [across s t₁ t'] at ho
      exact (sub_mul_nonneg_iff (ht₁.trans ht')).mp (by linarith)
    obtain rfl : c = 0 := le_antisymm hc₀ hc₁
    have hst : A s t = A s t₁ := by simpa using across s t₁ t
    have hb : b < 0 := by
      have h : A s t₁ = A 1 t₁ + (s - 1) * b := along 1 s t₁
      exact neg_of_mul_neg_right (a := s - 1) (by linarith) (sub_pos.mpr hs).le
    have h : A s₁ t = A s t + (s₁ - s) * b := along s s₁ t
    linarith [mul_neg_of_pos_of_neg (sub_pos.mpr hs₁) hb]
  · obtain rfl := flat (le_antisymm hol hl) (le_antisymm hor hr)
    exact h₁.not_ge (by simpa [along 1 s t₁] using hb₁)
  · obtain rfl := flat (le_antisymm hl hol) (le_antisymm hr hor)
    exact h₀.not_ge (by simpa [along 1 s t₀] using hb₀)
  · have hc : 0 ≤ c := by
      rw [across s t₀ t₁] at hb₁
      exact (sub_mul_nonneg_iff ht₀).mp (by linarith)
    rw [across 1 t₁ t] at hl
    linarith [mul_nonneg (sub_pos.mpr ht₁).le hc]

namespace Corners

variable {f : Corners K} {u v u₀ u₁ v₀ v₁ : K}

/-! ## Containment by the signs of the Jacobian -/

/-- A patch contains a point of it if the Jacobian has one sign where the lines
through the point meet its sides. -/
theorem patch_contains_at_iff (hu₀ : u₀ < u) (hu₁ : u < u₁) (hv₀ : v₀ < v) (hv₁ : v < v₁) :
    (f.patch u₀ u₁ v₀ v₁).contains (f.at u v).point = true ↔
      (0 ≤ f.jacobian u v₀ ∧ 0 ≤ f.jacobian u v₁ ∧ 0 ≤ f.jacobian u₀ v ∧ 0 ≤ f.jacobian u₁ v) ∨
        (f.jacobian u v₁ ≤ 0 ∧ f.jacobian u v₀ ≤ 0 ∧ f.jacobian u₁ v ≤ 0 ∧ f.jacobian u₀ v ≤ 0) := by
  rw [patch_contains_iff f (hu₀.trans hu₁) (hv₀.trans hv₁)]
  simp only [within_iff, rowSide_at, columnSide_at, sub_mul_nonneg_iff hv₀, sub_mul_nonpos_iff hv₀,
    sub_mul_nonneg_iff' hv₁, sub_mul_nonpos_iff' hv₁, sub_mul_nonneg_iff hu₀, sub_mul_nonpos_iff hu₀,
    sub_mul_nonneg_iff' hu₁, sub_mul_nonpos_iff' hu₁]

/-- The same for a patch further up between the same columns. -/
theorem patch_contains_below_iff (hu₀ : u₀ < u) (hu₁ : u < u₁) (hv : v₀ < v₁) (hv₁ : v₁ < v) :
    (f.patch u₀ u₁ v₀ v₁).contains (f.at u v).point = true ↔
      (0 ≤ f.jacobian u v₀ ∧ f.jacobian u v₁ ≤ 0 ∧ 0 ≤ f.jacobian u₀ v ∧ 0 ≤ f.jacobian u₁ v) ∨
        (0 ≤ f.jacobian u v₁ ∧ f.jacobian u v₀ ≤ 0 ∧ f.jacobian u₁ v ≤ 0 ∧ f.jacobian u₀ v ≤ 0) := by
  have hv₀ := hv.trans hv₁
  rw [patch_contains_iff f (hu₀.trans hu₁) hv]
  simp only [within_iff, rowSide_at, columnSide_at, sub_mul_nonneg_iff hv₀, sub_mul_nonpos_iff hv₀,
    sub_mul_nonneg_iff hv₁, sub_mul_nonpos_iff hv₁, sub_mul_nonneg_iff hu₀, sub_mul_nonpos_iff hu₀,
    sub_mul_nonneg_iff' hu₁, sub_mul_nonpos_iff' hu₁]

/-- The same for a patch further left between the same rows. -/
theorem patch_contains_right_iff (hu : u₀ < u₁) (hu₁ : u₁ < u) (hv₀ : v₀ < v) (hv₁ : v < v₁) :
    (f.patch u₀ u₁ v₀ v₁).contains (f.at u v).point = true ↔
      (0 ≤ f.jacobian u v₀ ∧ 0 ≤ f.jacobian u v₁ ∧ 0 ≤ f.jacobian u₀ v ∧ f.jacobian u₁ v ≤ 0) ∨
        (f.jacobian u v₁ ≤ 0 ∧ f.jacobian u v₀ ≤ 0 ∧ 0 ≤ f.jacobian u₁ v ∧ f.jacobian u₀ v ≤ 0) := by
  have hu₀ := hu.trans hu₁
  rw [patch_contains_iff f hu (hv₀.trans hv₁)]
  simp only [within_iff, rowSide_at, columnSide_at, sub_mul_nonneg_iff hv₀, sub_mul_nonpos_iff hv₀,
    sub_mul_nonneg_iff' hv₁, sub_mul_nonpos_iff' hv₁, sub_mul_nonneg_iff hu₀, sub_mul_nonpos_iff hu₀,
    sub_mul_nonneg_iff hu₁, sub_mul_nonpos_iff hu₁]

end Corners

namespace Projector

variable {g : Projector K} {f : Corners K} {c c' : CellPos} {u v : K}

/-! ## Points inside a cell -/

section

variable (hf : f.Clockwise) (hu : u ∈ Set.Ioo (g.line c.x) (g.line (c.x + 1)))
  (hv : v ∈ Set.Ioo (g.line c.y) (g.line (c.y + 1)))

include hf hu hv

/-- On the plot, a point inside a cell is found in it. -/
theorem hit?_inside (hc : g.OnPlot c) : g.hit? (f.at u v).point f = some c := by
  obtain ⟨hu₀, hu₁⟩ := hu
  obtain ⟨hv₀, hv₁⟩ := hv
  have hl := g.line_strictMono.monotone
  have hx := g.line_mem hc.1
  have hy := g.line_mem hc.2
  have hu : u ∈ Set.Icc (0 : K) 1 := ⟨(g.line_mem (Nat.lt_of_succ_lt hc.1)).1.trans hu₀.le, hu₁.le.trans hx.2⟩
  have hv : v ∈ Set.Icc (0 : K) 1 := ⟨(g.line_mem (Nat.lt_of_succ_lt hc.2)).1.trans hv₀.le, hv₁.le.trans hy.2⟩
  refine hit?_of_first hf (hf.within_at hu hv) hc ?_ (fun k hk => ?_) ?_ fun k hk => ?_
  · rw [f.columnSide_at, sub_mul_nonpos_iff' hu₁]
    exact (hf _ hx v hv).le
  · rw [f.columnSide_at]
    exact mul_pos (sub_pos.mpr ((hl hk).trans_lt hu₀)) (hf _ (g.line_mem (by have := hc.1; omega)) v hv)
  · rw [f.rowSide_at, sub_mul_nonpos_iff' hv₁]
    exact (hf u hu _ hy).le
  · rw [f.rowSide_at]
    exact mul_pos (sub_pos.mpr ((hl hk).trans_lt hv₀)) (hf u hu _ (g.line_mem (by have := hc.2; omega)))

/-- A cell of the last column does not take a point away from one further down. -/
theorem not_contains_of_last_column (hx : c.x = g.grid - 1) (hx' : c'.x = c.x) (hy : c'.y < c.y)
    (hc : c.y < g.grid) (own : (g.corners c f).contains (f.at u v).point = true) :
    ¬ (g.corners c' f).contains (f.at u v).point = true := by
  obtain ⟨hu₀, hu₁⟩ := hu
  obtain ⟨hv₀, hv₁⟩ := hv
  have hlast : g.line c.x = 1 := by rw [hx, line_last]
  have hv' : g.line (c'.y + 1) < v := (g.line_strictMono.monotone hy).trans_lt hv₀
  rw [corners_eq_patch, Corners.patch_contains_at_iff hu₀ hu₁ hv₀ hv₁, hlast] at own
  rw [corners_eq_patch, hx', Corners.patch_contains_below_iff hu₀ hu₁ (g.line_lt_succ c'.y) hv', hlast]
  exact affine_not_both f.jacobian_affine (hlast ▸ hu₀) hu₁ (g.line_lt_succ c'.y) hv' hv₁
    (hf 1 one_mem_Icc _ (g.line_mem (by omega))) (hf 1 one_mem_Icc _ (g.line_mem (by omega)))
    (own.imp (fun ⟨_, h⟩ => h) fun ⟨h, _, hr, hl⟩ => ⟨h, hl, hr⟩)

/-- A cell of the last row does not take a point away from one further right. -/
theorem not_contains_of_last_row (hy : c.y = g.grid - 1) (hy' : c'.y = c.y) (hx : c'.x < c.x)
    (hc : c.x < g.grid) (own : (g.corners c f).contains (f.at u v).point = true) :
    ¬ (g.corners c' f).contains (f.at u v).point = true := by
  obtain ⟨hu₀, hu₁⟩ := hu
  obtain ⟨hv₀, hv₁⟩ := hv
  have hlast : g.line c.y = 1 := by rw [hy, line_last]
  have hu' : g.line (c'.x + 1) < u := (g.line_strictMono.monotone hx).trans_lt hu₀
  have hA (s t : K) : f.jacobian t s = f.jacobian 0 0 + (f.jacobian 0 1 - f.jacobian 0 0) * s +
      (f.jacobian 1 0 - f.jacobian 0 0) * t := by
    rw [f.jacobian_affine, add_right_comm]
  rw [corners_eq_patch, Corners.patch_contains_at_iff hu₀ hu₁ hv₀ hv₁, hlast] at own
  rw [corners_eq_patch, hy', Corners.patch_contains_right_iff (g.line_lt_succ c'.x) hu' hv₀ hv₁, hlast]
  have := affine_not_both (A := fun s t => f.jacobian t s) hA (hlast ▸ hv₀) hv₁ (g.line_lt_succ c'.x) hu' hu₁
    (hf _ (g.line_mem (by omega)) 1 one_mem_Icc) (hf _ (g.line_mem (by omega)) 1 one_mem_Icc)
    (own.imp (fun ⟨h, h', _, hr⟩ => ⟨hr, h, h'⟩) fun ⟨h, h', hr, _⟩ => ⟨hr, h', h⟩)
  rintro (⟨h, h', h₀, h₁⟩ | ⟨h, h', h₁, h₀⟩)
  · exact this (.inl ⟨h₀, h₁, h, h'⟩)
  · exact this (.inr ⟨h₁, h₀, h, h'⟩)

omit hu in
/-- No cell contains a point that lies between columns of the plot, below both its rows. -/
theorem not_contains_below (hu : u ∈ Set.Icc (0 : K) 1) (hy : c'.y < c.y) (hc : c.y < g.grid) :
    ¬ (g.corners c' f).contains (f.at u v).point = true := by
  have hv' : g.line (c'.y + 1) < v := (g.line_strictMono.monotone hy).trans_lt hv.1
  rw [corners_eq_patch, Corners.patch_contains_iff f (g.line_lt_succ c'.x) (g.line_lt_succ c'.y)]
  rintro (⟨-, h, -, -⟩ | ⟨-, h, -, -⟩)
  · rw [f.rowSide_at, sub_mul_nonpos_iff hv'] at h
    exact (hf u hu _ (g.line_mem (by omega))).not_ge h
  · rw [f.rowSide_at, sub_mul_nonpos_iff ((g.line_lt_succ c'.y).trans hv')] at h
    exact (hf u hu _ (g.line_mem (by omega))).not_ge h

/-- Of the cells beyond the plot, none that is searched earlier takes away a
point inside a cell that contains it. -/
theorem not_contains_of_beyond (hc : c ∈ g.cells) (hc' : c' ∈ g.cells) (hout : ¬ g.OnPlot c')
    (hb : c'.Before c) (own : (g.corners c f).contains (f.at u v).point = true) :
    ¬ (g.corners c' f).contains (f.at u v).point = true := by
  obtain ⟨hx, hy⟩ := (g.mem_cells c).mp hc
  obtain ⟨hx', hy'⟩ := (g.mem_cells c').mp hc'
  simp only [OnPlot, not_and_or, not_lt] at hout
  rcases hb with hb | ⟨hb, hb'⟩
  · rcases (Nat.le_sub_one_of_lt hx).eq_or_lt with hlast | hlt
    · exact not_contains_of_last_column hf hu hv hlast (by omega) hb hy own
    · have hu' : u ∈ Set.Icc (0 : K) 1 :=
        ⟨(g.line_mem hx).1.trans hu.1.le, hu.2.le.trans (g.line_mem (by omega)).2⟩
      exact not_contains_below hf hv hu' hb hy
  · exact not_contains_of_last_row hf hu hv (by omega) hb hb' hx own

/-- When a point inside a cell is found in it. -/
theorem hit?_inside_iff (hc : c ∈ g.cells) :
    g.hit? (f.at u v).point f = some c ↔ (g.corners c f).contains (f.at u v).point = true ∧
      (g.OnPlot c ∨ f.outline.contains (f.at u v).point = false) := by
  constructor
  · intro h
    refine ⟨((g.hit?_eq_some_iff _ f c).mp h).2.1, or_iff_not_imp_left.mpr fun hn => ?_⟩
    rw [← Bool.not_eq_true, outline_contains_iff_onPlot (g := g) hf]
    rintro ⟨c', h', hc'⟩
    rw [h] at h'
    cases h'
    exact hn hc'
  · rintro ⟨own, hc' | hout⟩
    · exact hit?_inside hf hu hv hc'
    · refine (g.hit?_eq_some_iff _ f c).mpr ⟨hc, own, fun c' hc' hb h => ?_⟩
      by_cases hon : g.OnPlot c'
      · rw [outline_contains_of_onPlot hf hon h] at hout
        cases hout
      · exact not_contains_of_beyond hf hu hv hc hc' hon hb own h

end

/-! ## All cells together -/

/-- The quadrilateral that all cells form, those beyond the plot included. -/
def extent (g : Projector K) (f : Corners K) : Quad K := f.patch 0 (g.line g.grid) 0 (g.line g.grid)

theorem line_grid_pos : 0 < g.line g.grid := by
  rw [← g.line_zero]
  exact g.line_strictMono (by have := g.two_le_grid; omega)

/-- A convex extent is passed the way that the plot is. -/
theorem jacobian_pos_of_extent (hf : f.Clockwise) (h : (g.extent f).isConvex = true)
    (hu : u ∈ Set.Icc 0 (g.line g.grid)) (hv : v ∈ Set.Icc 0 (g.line g.grid)) : 0 < f.jacobian u v := by
  have hl : 0 < g.line g.grid := line_grid_pos
  have h₀ : 0 < f.jacobian 0 0 := hf 0 zero_mem_Icc 0 zero_mem_Icc
  have ha : 0 < g.line g.grid * g.line g.grid := mul_pos hl hl
  simp only [extent, Quad.isConvex_iff, Corners.patch_turns, List.forall_mem_cons, List.not_mem_nil,
    false_implies, implies_true, and_true, sub_zero] at h
  rcases h with ⟨h₁₀, h₁₁, h₀₁, h₀₀⟩ | ⟨-, -, -, h₀₀⟩
  · exact Corners.jacobian_pos h₀ (pos_of_mul_pos_right h₁₀ ha.le) (pos_of_mul_pos_right h₀₁ ha.le)
      (pos_of_mul_pos_right h₁₁ ha.le) hu hv
  · exact absurd (mul_pos ha h₀) h₀₀.not_gt

theorem hit?_inside_of_extent (hf : f.Clockwise) (hu : u ∈ Set.Ioo (g.line c.x) (g.line (c.x + 1)))
    (hv : v ∈ Set.Ioo (g.line c.y) (g.line (c.y + 1))) (hc : c ∈ g.cells)
    (h : (g.extent f).isConvex = true) : g.hit? (f.at u v).point f = some c := by
  obtain ⟨hx, hy⟩ := (g.mem_cells c).mp hc
  have mem {k : ℕ} (hk : k ≤ g.grid) : g.line k ∈ Set.Icc 0 (g.line g.grid) :=
    ⟨g.line_zero ▸ g.line_strictMono.monotone k.zero_le, g.line_strictMono.monotone hk⟩
  have inside {k : ℕ} (hk : k < g.grid) {t : K} (ht : t ∈ Set.Ioo (g.line k) (g.line (k + 1))) :
      t ∈ Set.Icc 0 (g.line g.grid) := ⟨(mem hk.le).1.trans ht.1.le, ht.2.le.trans (mem hk).2⟩
  have pos := fun {u v : K} => jacobian_pos_of_extent (u := u) (v := v) hf h
  rw [hit?_inside_iff hf hu hv hc, corners_eq_patch, Corners.patch_contains_at_iff hu.1 hu.2 hv.1 hv.2]
  refine ⟨.inl ⟨?_, ?_, ?_, ?_⟩, or_iff_not_imp_left.mpr fun hn => ?_⟩
  · exact (pos (inside hx hu) (mem hy.le)).le
  · exact (pos (inside hx hu) (mem hy)).le
  · exact (pos (mem hx.le) (inside hy hv)).le
  · exact (pos (mem hx) (inside hy hv)).le
  · -- beyond the plot, the point is beyond its last column or its last row
    rw [← Bool.not_eq_true, hf.outline_contains_iff]
    rintro ⟨-, hb, -, hr⟩
    simp only [OnPlot, not_and_or, not_lt] at hn
    have last {k : ℕ} (hk : k < g.grid) (hk' : g.grid ≤ k + 1) : g.line k = 1 := by
      rw [show k = g.grid - 1 by omega, line_last]
    have one := g.line_last ▸ mem (k := g.grid - 1) (by omega)
    rcases hn with hn | hn
    · rw [f.columnSide_at, sub_mul_nonpos_iff (last hx hn ▸ hu.1)] at hr
      exact (pos one (inside hy hv)).not_ge hr
    · rw [f.rowSide_at, sub_mul_nonpos_iff (last hy hn ▸ hv.1)] at hb
      exact (pos (inside hx hu) one).not_ge hb

/-! ## The crop of a cell -/

/-- The crop of a cell stands inside it. -/
theorem exists_center_eq (g : Projector K) (c : CellPos) : ∃ u ∈ Set.Ioo (g.line c.x) (g.line (c.x + 1)),
    ∃ v ∈ Set.Ioo (g.line c.y) (g.line (c.y + 1)), ∀ f : Corners K, (g.center c f).point = (f.at u v).point := by
  have between {k : ℕ} {t : K} (h₀ : 0 < t) (h₁ : t < 1) :
      (k + t) / (g.grid - 1 : ℕ) ∈ Set.Ioo (g.line k) (g.line (k + 1)) := by
    constructor
    · exact div_lt_div_of_pos_right (by linarith) g.span_pos
    · exact div_lt_div_of_pos_right (by push_cast; linarith) g.span_pos
  refine ⟨(c.x + 35 / 100) / (g.grid - 1 : ℕ), between (by norm_num) (by norm_num),
    (c.y + 2 / 10) / (g.grid - 1 : ℕ), between (by norm_num) (by norm_num), fun f => ?_⟩
  simp [center, span]

@[simp] theorem center_mirror (g : Projector K) (c : CellPos) (f : Corners K) :
    (g.center c f.mirror).point = (g.center c f).point.mirror := by
  simp only [center, Corners.mirror_at]

@[simp] theorem extent_mirror (g : Projector K) (f : Corners K) : g.extent f.mirror = (g.extent f).mirror := by
  simp only [extent, Corners.mirror_patch]

/-- **Pointing at a crop.** On the plot it tells the cell of the crop, and for
every cell if all of them together form a convex quadrilateral. In general it
does exactly if the cell contains the place of its crop, which beyond the plot
must not be a place on it. -/
theorem hit?_center (g : Projector K) {b : Rect K} (hw : 0 < b.w) (hh : 0 < b.h) :
    (∀ c, g.OnPlot c → g.hit? (g.center c (g.resolve b)).point (g.resolve b) = some c) ∧
    ((g.extent (g.resolve b)).isConvex = true →
      ∀ c ∈ g.cells, g.hit? (g.center c (g.resolve b)).point (g.resolve b) = some c) ∧
    ∀ c ∈ g.cells, g.hit? (g.center c (g.resolve b)).point (g.resolve b) = some c ↔
      (g.corners c (g.resolve b)).contains (g.center c (g.resolve b)).point = true ∧
        (g.OnPlot c ∨ (g.resolve b).outline.contains (g.center c (g.resolve b)).point = false) := by
  have key {f : Corners K} (hf : f.Clockwise) :
      (∀ c, g.OnPlot c → g.hit? (g.center c f).point f = some c) ∧
      ((g.extent f).isConvex = true → ∀ c ∈ g.cells, g.hit? (g.center c f).point f = some c) ∧
      ∀ c ∈ g.cells, g.hit? (g.center c f).point f = some c ↔
        (g.corners c f).contains (g.center c f).point = true ∧
          (g.OnPlot c ∨ f.outline.contains (g.center c f).point = false) := by
    refine ⟨fun c hc => ?_, fun h c hc => ?_, fun c hc => ?_⟩ <;>
      obtain ⟨u, hu, v, hv, hp⟩ := g.exists_center_eq c <;> rw [hp]
    · exact hit?_inside hf hu hv hc
    · exact hit?_inside_of_extent hf hu hv hc h
    · exact hit?_inside_iff hf hu hv hc
  rcases g.resolve_clockwise hw hh with hf | hf
  · exact key hf
  · simpa using key hf

/-- The last cell of the kite is folded over: the crop drawn for it lies on the
plot, in the first cell, while the crop of that cell is found. -/
theorem hit?_center_kite :
    (0 : ℚ) < 1024 ∧
    (kite 2 le_rfl).hit? ((kite 2 le_rfl).center ⟨0, 0⟩ ((kite 2 le_rfl).resolve ⟨0, 0, 1024, 1024⟩)).point
      ((kite 2 le_rfl).resolve ⟨0, 0, 1024, 1024⟩) = some ⟨0, 0⟩ ∧
    (kite 2 le_rfl).hit? ((kite 2 le_rfl).center ⟨1, 1⟩ ((kite 2 le_rfl).resolve ⟨0, 0, 1024, 1024⟩)).point
      ((kite 2 le_rfl).resolve ⟨0, 0, 1024, 1024⟩) ≠ some ⟨1, 1⟩ := by
  obtain ⟨hon, -, hall⟩ :=
    hit?_center (kite 2 le_rfl) (b := ⟨0, 0, 1024, 1024⟩) (by norm_num) (by norm_num)
  refine ⟨by norm_num, hon ⟨0, 0⟩ (by decide), fun h => ?_⟩
  obtain ⟨-, h | h⟩ := (hall ⟨1, 1⟩ (by decide)).mp h
  · exact absurd h (by decide)
  · exact absurd h (by decide +kernel)

/-- Not every crop is found in its own cell. -/
theorem not_forall_hit?_center :
    ¬ ∀ (grid : ℤ) (ratio : Corners ℚ) (g : Projector ℚ), make grid ratio = .ok g →
      ∀ b : Rect ℚ, 0 < b.w → 0 < b.h → ∀ c ∈ g.cells,
        g.hit? (g.center c (g.resolve b)).point (g.resolve b) = some c := by
  intro h
  have hit := h 2 _ (kite 2 le_rfl) (make_eq_ok_iff.mpr ⟨rfl, rfl⟩) ⟨0, 0, 1024, 1024⟩ (by norm_num) (by norm_num)
    ⟨1, 1⟩ (by decide)
  -- what is found instead is the first cell
  have hit' : (kite 2 le_rfl).hit?
      ((kite 2 le_rfl).center ⟨1, 1⟩ ((kite 2 le_rfl).resolve ⟨0, 0, 1024, 1024⟩)).point
      ((kite 2 le_rfl).resolve ⟨0, 0, 1024, 1024⟩) = some ⟨0, 0⟩ := by decide +kernel
  rw [hit'] at hit
  cases hit

end Projector

end FarmClient
