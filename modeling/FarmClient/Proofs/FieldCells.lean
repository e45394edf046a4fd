/-
Which cell a point of the plot belongs to. The cells that lie on the plot
cover it and nothing else: a point is in the outline exactly if the search
finds such a cell (`contains_iff_hit_onPlot`), and what it finds for the
point at given fractions is told by rounding them up (`hit?_at`).

The cells of the last row and column lie beyond the plot, where it may be
folded over, and those of the last column are searched before cells of the
plot. None takes a point of the plot away: a point that is not between its two
rows is on the same side of both, folded over or not.
-/
import Mathlib.Order.Bounds.Basic
import Mathlib.Tactic.NormNum
import FarmClient.Proofs.BilinearField

namespace FarmClient

/-- The order in which cells are searched. -/
def CellPos.Before (c c' : CellPos) : Prop := c.y < c'.y ∨ c.y = c'.y ∧ c.x < c'.x

theorem CellPos.Before.asymm {c c' : CellPos} (h : c.Before c') : ¬ c'.Before c := by
  rintro (h' | h') <;> rcases h with h | h <;> omega

/-- The search through a list in which everything stands in some order. -/
theorem find?_eq_some_iff_of_pairwise {α : Type} {r : α → α → Prop} (hr : ∀ a b, r a b → ¬ r b a) {l : List α}
    (hl : l.Pairwise r) {q : α → Bool} {a : α} :
    l.find? q = some a ↔ a ∈ l ∧ q a = true ∧ ∀ b ∈ l, r b a → ¬ q b = true := by
  simp only [List.find?_eq_some_iff_append, Bool.not_eq_true']
  constructor
  · rintro ⟨ha, before, after, rfl, hb⟩
    refine ⟨by simp, ha, fun b hm hba => ?_⟩
    simp only [List.pairwise_append, List.pairwise_cons] at hl
    simp only [List.mem_append, List.mem_cons] at hm
    rcases hm with hm | rfl | hm
    · simp [hb b hm]
    · exact absurd hba (hr _ _ hba)
    · exact absurd hba (hr _ _ (hl.2.1.1 b hm))
  · rintro ⟨hm, ha, hb⟩
    obtain ⟨before, after, rfl⟩ := List.append_of_mem hm
    rw [List.pairwise_append] at hl
    exact ⟨ha, before, after, rfl, fun b hbm => by
      simpa using hb b (by simp [hbm]) (hl.2.2 b hbm a List.mem_cons_self)⟩

variable {K : Type} [ExactScalar K]

namespace Projector

/-- Every projector is made, from its grid and its corners and from nothing else. -/
theorem make_eq_ok_iff {L : Type} [Scalar L] {grid : ℤ} {ratio : Corners L} {g : Projector L} :
    make grid ratio = .ok g ↔ (g.grid : ℤ) = grid ∧ g.ratio = ratio := by
  constructor
  · intro h
    unfold make at h
    split at h
    · split at h
      · cases h
      · split at h
        · cases h
          exact ⟨by simp only; omega, rfl⟩
        · cases h
    · cases h
  · rintro ⟨rfl, rfl⟩
    have hc : g.ratio.components.find? (fun c => !isFraction c.2) = none := by simpa using g.fractions
    unfold make
    rw [dif_pos (by exact_mod_cast g.two_le_grid)]
    split
    · rename_i h
      rw [hc] at h
      cases h
    · rw [dif_pos g.convex]
      rfl

variable (g : Projector K)

/-- The cell lies on the plot, not beyond it. -/
def OnPlot (c : CellPos) : Prop := c.x + 1 < g.grid ∧ c.y + 1 < g.grid

instance (c : CellPos) : Decidable (g.OnPlot c) := inferInstanceAs (Decidable (_ ∧ _))

/-! ## The lines of the grid -/

/-- The fraction at which a line of the grid runs. -/
def line (k : ℕ) : K := k / (g.grid - 1 : ℕ)

theorem span_pos : (0 : K) < (g.grid - 1 : ℕ) := by
  have := g.two_le_grid
  exact_mod_cast (by omega : 0 < g.grid - 1)

@[simp] theorem line_zero : g.line 0 = 0 := by simp [line]

@[simp] theorem line_last : g.line (g.grid - 1) = 1 := div_self g.span_pos.ne'

theorem line_strictMono : StrictMono g.line := fun _ _ h =>
  div_lt_div_of_pos_right (Nat.cast_lt.mpr h) g.span_pos

theorem line_lt_succ (k : ℕ) : g.line k < g.line (k + 1) := g.line_strictMono k.lt_succ_self

theorem line_mem {k : ℕ} (h : k < g.grid) : g.line k ∈ Set.Icc (0 : K) 1 := by
  refine ⟨div_nonneg (Nat.cast_nonneg k) g.span_pos.le, ?_⟩
  rw [line, div_le_one g.span_pos]
  exact_mod_cast (by omega : k ≤ g.grid - 1)

theorem corners_eq_patch (c : CellPos) (f : Corners K) :
    g.corners c f = f.patch (g.line c.x) (g.line (c.x + 1)) (g.line c.y) (g.line (c.y + 1)) := by
  simp [corners, Corners.patch, line, span, div_eq_mul_inv]

/-! ## The search -/

theorem mem_cells (c : CellPos) : c ∈ g.cells ↔ c.x < g.grid ∧ c.y < g.grid := by
  cases c
  simp [cells, and_comm]

theorem cells_pairwise : g.cells.Pairwise CellPos.Before := by
  simp only [cells, List.pairwise_flatMap, List.pairwise_map, List.forall_mem_map, CellPos.Before]
  exact ⟨fun y _ => List.pairwise_lt_range.imp fun h => .inr ⟨trivial, h⟩,
    List.pairwise_lt_range.imp fun h _ _ _ _ => .inl h⟩

/-- What the search finds contains the point, and nothing before it does. -/
theorem hit?_eq_some_iff (p : Point K) (f : Corners K) (c : CellPos) :
    g.hit? p f = some c ↔ c ∈ g.cells ∧ (g.corners c f).contains p = true ∧
      ∀ c' ∈ g.cells, c'.Before c → ¬ (g.corners c' f).contains p = true :=
  find?_eq_some_iff_of_pairwise (fun _ _ => CellPos.Before.asymm) g.cells_pairwise

/-! ## Points of the plot -/

variable {g} {f : Corners K} {p : Point K}

/-- A point of the plot is found in the first column, and the first row, of
which it does not lie beyond the far side. -/
theorem hit?_of_first (hf : f.Clockwise) (hp : f.Within 0 1 0 1 p) {c : CellPos} (hc : g.OnPlot c)
    (hx : f.columnSide (g.line (c.x + 1)) p ≤ 0) (hx' : ∀ k < c.x, 0 < f.columnSide (g.line (k + 1)) p)
    (hy : f.rowSide (g.line (c.y + 1)) p ≤ 0) (hy' : ∀ k < c.y, 0 < f.rowSide (g.line (k + 1)) p) :
    g.hit? p f = some c := by
  obtain ⟨hcx, hcy⟩ := hc
  rw [hit?_eq_some_iff]
  refine ⟨(g.mem_cells c).mpr ⟨by omega, by omega⟩, ?_, fun c' _ hb h => ?_⟩
  · rw [corners_eq_patch, Corners.patch_contains_iff f (g.line_lt_succ c.x) (g.line_lt_succ c.y)]
    refine .inl ⟨?_, hy, ?_, hx⟩
    · cases hk : c.y with
      | zero => simpa using hp.top
      | succ k => exact (hy' k (by omega)).le
    · cases hk : c.x with
      | zero => simpa using hp.left
      | succ k => exact (hx' k (by omega)).le
  · rw [corners_eq_patch, Corners.patch_contains_iff f (g.line_lt_succ c'.x) (g.line_lt_succ c'.y)] at h
    rcases h with h | h
    · rcases hb with hb | ⟨-, hb⟩
      · exact (hy' _ hb).not_ge h.bottom
      · exact (hx' _ hb).not_ge h.right
    · -- a cell that is turned over has the point on the wrong side of one of its rows
      have hle : c'.y ≤ c.y := by rcases hb with hb | hb <;> omega
      have hn := hf.rowSide_neg (g.line_zero ▸ g.line_mem (by omega)) (g.line_last ▸ g.line_mem (by omega))
        hp.left hp.right (g.line_mem (by omega)) (g.line_mem (by omega)) (g.line_lt_succ c'.y) h.bottom
      exact hn.not_ge h.top

/-- Where a sequence that ends at most zero gets there first. -/
theorem exists_first {s : ℕ → K} {n : ℕ} (hn : 0 < n) (h : s n ≤ 0) :
    ∃ k < n, s (k + 1) ≤ 0 ∧ ∀ j < k, 0 < s (j + 1) := by
  have he : ∃ k, s (k + 1) ≤ 0 := ⟨n - 1, by rwa [Nat.sub_add_cancel hn]⟩
  classical
  refine ⟨Nat.find he, ?_, Nat.find_spec he, fun j hj => not_le.mp (Nat.find_min he hj)⟩
  have := Nat.find_min' he (m := n - 1) (by rwa [Nat.sub_add_cancel hn])
  omega

theorem exists_hit (hf : f.Clockwise) (hp : f.Within 0 1 0 1 p) :
    ∃ c, g.OnPlot c ∧ g.hit? p f = some c ∧
      (f.columnSide (g.line (c.x + 1)) p ≤ 0 ∧ ∀ k < c.x, 0 < f.columnSide (g.line (k + 1)) p) ∧
      f.rowSide (g.line (c.y + 1)) p ≤ 0 ∧ ∀ k < c.y, 0 < f.rowSide (g.line (k + 1)) p := by
  have hg := g.two_le_grid
  obtain ⟨x, hx, hx₁, hx₂⟩ := exists_first (s := fun k => f.columnSide (g.line k) p)
    (n := g.grid - 1) (by omega) (by simpa using hp.right)
  obtain ⟨y, hy, hy₁, hy₂⟩ := exists_first (s := fun k => f.rowSide (g.line k) p)
    (n := g.grid - 1) (by omega) (by simpa using hp.bottom)
  have hc : g.OnPlot ⟨x, y⟩ := ⟨by simp only; omega, by simp only; omega⟩
  exact ⟨⟨x, y⟩, hc, hit?_of_first hf hp hc hx₁ hx₂ hy₁ hy₂, ⟨hx₁, hx₂⟩, hy₁, hy₂⟩

/-- A cell of the plot is not turned over. -/
theorem corners_contains_iff (hf : f.Clockwise) {c : CellPos} (hc : g.OnPlot c) :
    (g.corners c f).contains p = true ↔
      f.Within (g.line c.x) (g.line (c.x + 1)) (g.line c.y) (g.line (c.y + 1)) p := by
  rw [corners_eq_patch]
  exact hf.contains_iff (g.line_mem (Nat.lt_of_succ_lt hc.1)) (g.line_mem hc.1)
    (g.line_mem (Nat.lt_of_succ_lt hc.2)) (g.line_mem hc.2) (g.line_lt_succ c.x) (g.line_lt_succ c.y)

theorem outline_contains_of_onPlot (hf : f.Clockwise) {c : CellPos} (hc : g.OnPlot c)
    (h : (g.corners c f).contains p = true) : f.outline.contains p = true := by
  rw [corners_contains_iff hf hc] at h
  rw [hf.outline_contains_iff]
  exact hf.within_plot (g.line_mem (Nat.lt_of_succ_lt hc.1)) (g.line_mem hc.1)
    (g.line_mem (Nat.lt_of_succ_lt hc.2)) (g.line_mem hc.2) h

/-- **The cells of the plot cover it**, and nothing else. -/
theorem outline_contains_iff_onPlot (hf : f.Clockwise) :
    f.outline.contains p = true ↔ ∃ c, g.hit? p f = some c ∧ g.OnPlot c := by
  constructor
  · intro hp
    obtain ⟨c, hc, hh, -⟩ := exists_hit (g := g) hf (hf.outline_contains_iff.mp hp)
    exact ⟨c, hh, hc⟩
  · rintro ⟨c, hh, hc⟩
    exact outline_contains_of_onPlot hf hc ((g.hit?_eq_some_iff p f c).mp hh).2.1

/-! ### The point at given fractions -/

theorem le_line_iff (u : K) (k : ℕ) : u ≤ g.line k ↔ u * (g.grid - 1 : ℕ) ≤ k :=
  le_div_iff₀ g.span_pos

theorem line_le_iff (u : K) (k : ℕ) : g.line k ≤ u ↔ (k : K) ≤ u * (g.grid - 1 : ℕ) :=
  div_le_iff₀ g.span_pos

section

variable {u v : K} {k : ℕ}

theorem rowSide_at_nonpos_iff (hf : f.Clockwise) (hu : u ∈ Set.Icc (0 : K) 1) (hk : k < g.grid) :
    f.rowSide (g.line k) (f.at u v).point ≤ 0 ↔ v * (g.grid - 1 : ℕ) ≤ k := by
  rw [f.rowSide_at, ← not_lt, mul_pos_iff_of_pos_right (hf u hu _ (g.line_mem hk)), sub_pos, not_lt, le_line_iff]

theorem rowSide_at_nonneg_iff (hf : f.Clockwise) (hu : u ∈ Set.Icc (0 : K) 1) (hk : k < g.grid) :
    0 ≤ f.rowSide (g.line k) (f.at u v).point ↔ (k : K) ≤ v * (g.grid - 1 : ℕ) := by
  rw [f.rowSide_at, mul_nonneg_iff_of_pos_right (hf u hu _ (g.line_mem hk)), sub_nonneg, line_le_iff]

theorem columnSide_at_nonpos_iff (hf : f.Clockwise) (hv : v ∈ Set.Icc (0 : K) 1) (hk : k < g.grid) :
    f.columnSide (g.line k) (f.at u v).point ≤ 0 ↔ u * (g.grid - 1 : ℕ) ≤ k := by
  rw [f.columnSide_at, ← not_lt, mul_pos_iff_of_pos_right (hf _ (g.line_mem hk) v hv), sub_pos, not_lt,
    le_line_iff]

theorem columnSide_at_nonneg_iff (hf : f.Clockwise) (hv : v ∈ Set.Icc (0 : K) 1) (hk : k < g.grid) :
    0 ≤ f.columnSide (g.line k) (f.at u v).point ↔ (k : K) ≤ u * (g.grid - 1 : ℕ) := by
  rw [f.columnSide_at, mul_nonneg_iff_of_pos_right (hf _ (g.line_mem hk) v hv), sub_nonneg, line_le_iff]

/-- The cells of the plot that contain the point at given fractions. -/
theorem contains_at_iff (hf : f.Clockwise) (hu : u ∈ Set.Icc (0 : K) 1) (hv : v ∈ Set.Icc (0 : K) 1)
    {c : CellPos} (hc : g.OnPlot c) :
    (g.corners c f).contains (f.at u v).point = true ↔
      u * (g.grid - 1 : ℕ) ∈ Set.Icc (c.x : K) (c.x + 1) ∧ v * (g.grid - 1 : ℕ) ∈ Set.Icc (c.y : K) (c.y + 1) := by
  have hx : c.x < g.grid := Nat.lt_of_succ_lt hc.1
  have hy : c.y < g.grid := Nat.lt_of_succ_lt hc.2
  rw [corners_contains_iff hf hc]
  simp only [Set.mem_Icc, ← Nat.cast_add_one, ← rowSide_at_nonpos_iff hf hu hc.2, ← rowSide_at_nonneg_iff hf hu hy,
    ← columnSide_at_nonpos_iff hf hv hc.1, ← columnSide_at_nonneg_iff hf hv hx]
  exact ⟨fun ⟨ht, hb, hl, hr⟩ => ⟨⟨hl, hr⟩, ht, hb⟩, fun ⟨⟨hl, hr⟩, ht, hb⟩ => ⟨ht, hb, hl, hr⟩⟩

/-- Rounding up, and how far before that the first cell is. -/
theorem exists_isLeast {t : K} {x : ℕ} (ht : 0 ≤ t) (h : t ≤ (x + 1 : ℕ)) (h' : ∀ k < x, ((k + 1 : ℕ) : K) < t) :
    ∃ i : ℤ, IsLeast {k : ℤ | t ≤ k} i ∧ x = (max (i - 1) 0).toNat := by
  rcases ht.eq_or_lt with rfl | ht
  · refine ⟨0, ⟨by simp, fun k hk => by simpa using hk⟩, ?_⟩
    cases x with
    | zero => rfl
    | succ x => exact absurd (h' 0 x.succ_pos) (by simp [zero_le_one.not_gt])
  · refine ⟨x + 1, ⟨by simpa using h, fun k hk => ?_⟩, by simp⟩
    cases x with
    | zero =>
      have : (0 : K) < k := ht.trans_le hk
      have : 0 < k := by exact_mod_cast this
      omega
    | succ x =>
      have : ((x + 1 : ℕ) : K) < k := (h' x x.lt_succ_self).trans_le hk
      have : ((x + 1 : ℕ) : ℤ) < k := by exact_mod_cast this
      push_cast at this ⊢
      omega

/-- The first of them, found by rounding up. -/
theorem exists_hit_at (hf : f.Clockwise) (hu : u ∈ Set.Icc (0 : K) 1) (hv : v ∈ Set.Icc (0 : K) 1) :
    ∃ i j : ℤ, IsLeast {k : ℤ | u * (g.grid - 1 : ℕ) ≤ k} i ∧ IsLeast {k : ℤ | v * (g.grid - 1 : ℕ) ≤ k} j ∧
      g.hit? (f.at u v).point f = some ⟨(max (i - 1) 0).toNat, (max (j - 1) 0).toNat⟩ := by
  obtain ⟨⟨x, y⟩, ⟨hcx, hcy⟩, hh, ⟨hx, hx'⟩, hy, hy'⟩ := exists_hit (g := g) hf (hf.within_at hu hv)
  rw [columnSide_at_nonpos_iff hf hv hcx] at hx
  rw [rowSide_at_nonpos_iff hf hu hcy] at hy
  have hx₂ : ∀ k < x, ((k + 1 : ℕ) : K) < u * (g.grid - 1 : ℕ) := fun k hk =>
    not_le.mp fun h => (hx' k hk).not_ge ((columnSide_at_nonpos_iff hf hv (by simp only at hcx; omega)).mpr h)
  have hy₂ : ∀ k < y, ((k + 1 : ℕ) : K) < v * (g.grid - 1 : ℕ) := fun k hk =>
    not_le.mp fun h => (hy' k hk).not_ge ((rowSide_at_nonpos_iff hf hu (by simp only at hcy; omega)).mpr h)
  obtain ⟨i, hi, hxi⟩ := exists_isLeast (mul_nonneg hu.1 g.span_pos.le) hx hx₂
  obtain ⟨j, hj, hyj⟩ := exists_isLeast (mul_nonneg hv.1 g.span_pos.le) hy hy₂
  refine ⟨i, j, hi, hj, ?_⟩
  simp only at hxi hyj
  rw [hh, hxi, hyj]

end

/-! ## The plot on the screen -/

theorem resolve_jacobian (g : Projector K) (b : Rect K) (u v : K) :
    (g.resolve b).jacobian u v = b.w * b.h * g.ratio.jacobian u v := by
  simp only [resolve, Corners.map, Corners.jacobian_eq, Corners.at_x, Corners.at_y]
  ring

/-- The plot is clockwise on the screen, or in the mirror. -/
theorem resolve_clockwise (g : Projector K) {b : Rect K} (hw : 0 < b.w) (hh : 0 < b.h) :
    (g.resolve b).Clockwise ∨ (g.resolve b).mirror.Clockwise := by
  have hb := mul_pos hw hh
  refine (g.ratio.clockwise_of_isConvex g.convex).imp (fun h u hu v hv => ?_) fun h u hu v hv => ?_
  · rw [resolve_jacobian]
    exact mul_pos hb (h u hu v hv)
  · have := h u hu v hv
    rw [Corners.mirror_jacobian] at this ⊢
    rw [resolve_jacobian, ← mul_neg]
    exact mul_pos hb this

@[simp] theorem corners_mirror (g : Projector K) (c : CellPos) (f : Corners K) :
    g.corners c f.mirror = (g.corners c f).mirror := by
  simp [corners_eq_patch]

@[simp] theorem hit?_mirror (g : Projector K) (p : Point K) (f : Corners K) :
    g.hit? p.mirror f.mirror = g.hit? p f := by
  simp [hit?]

/-- A plot that is nearly a triangle: its last corner stands out by little. -/
def kite (grid : ℕ) (h : 2 ≤ grid) : Projector ℚ where
  grid := grid
  ratio := ⟨⟨0, 0⟩, ⟨1, 0⟩, ⟨0, 1⟩, ⟨17 / 32, 17 / 32⟩⟩
  two_le_grid := h
  fractions := by decide +kernel
  convex := by decide +kernel

variable {b : Rect K} {u v : K}

/-- **The search inverts the projection.** A point of the plot is found in the
cell that its fractions tell, rounded up, whatever the shape of the plot; on a
line of the grid that is the cell before the line. -/
theorem hit?_at (g : Projector K) (hw : 0 < b.w) (hh : 0 < b.h) (hu : u ∈ Set.Icc (0 : K) 1)
    (hv : v ∈ Set.Icc (0 : K) 1) :
    (∃ i j : ℤ, IsLeast {k : ℤ | u * (g.grid - 1 : ℕ) ≤ k} i ∧ IsLeast {k : ℤ | v * (g.grid - 1 : ℕ) ≤ k} j ∧
      g.hit? ((g.resolve b).at u v).point (g.resolve b) =
        some ⟨(max (i - 1) 0).toNat, (max (j - 1) 0).toNat⟩) ∧
    (∀ c, g.hit? ((g.resolve b).at u v).point (g.resolve b) = some c → g.OnPlot c) ∧
    ∀ c, g.OnPlot c → ((g.corners c (g.resolve b)).contains ((g.resolve b).at u v).point = true ↔
      u * (g.grid - 1 : ℕ) ∈ Set.Icc (c.x : K) (c.x + 1) ∧
        v * (g.grid - 1 : ℕ) ∈ Set.Icc (c.y : K) (c.y + 1)) := by
  have key {f : Corners K} (hf : f.Clockwise) :
      (∃ i j : ℤ, IsLeast {k : ℤ | u * (g.grid - 1 : ℕ) ≤ k} i ∧
        IsLeast {k : ℤ | v * (g.grid - 1 : ℕ) ≤ k} j ∧
        g.hit? (f.at u v).point f = some ⟨(max (i - 1) 0).toNat, (max (j - 1) 0).toNat⟩) ∧
      (∀ c, g.hit? (f.at u v).point f = some c → g.OnPlot c) ∧
      ∀ c, g.OnPlot c → ((g.corners c f).contains (f.at u v).point = true ↔
        u * (g.grid - 1 : ℕ) ∈ Set.Icc (c.x : K) (c.x + 1) ∧
          v * (g.grid - 1 : ℕ) ∈ Set.Icc (c.y : K) (c.y + 1)) := by
    refine ⟨exists_hit_at hf hu hv, fun c hc => ?_, fun c hc => contains_at_iff hf hu hv hc⟩
    obtain ⟨c', hc', hh, -⟩ := exists_hit (g := g) hf (hf.within_at hu hv)
    rw [hh] at hc
    cases hc
    exact hc'
  rcases g.resolve_clockwise hw hh with hf | hf
  · exact key hf
  · simpa using key hf

/-- On the line between the columns, between the rows: the first column, the second row. -/
theorem hit?_at_kite :
    (0 : ℚ) < 1024 ∧ (1 / 2 : ℚ) ∈ Set.Icc 0 1 ∧ (3 / 4 : ℚ) ∈ Set.Icc 0 1 ∧
    (kite 3 (by decide)).hit? (((kite 3 (by decide)).resolve ⟨0, 0, 1024, 1024⟩).at (1 / 2) (3 / 4)).point
      ((kite 3 (by decide)).resolve ⟨0, 0, 1024, 1024⟩) = some ⟨0, 1⟩ := by
  have hu : (1 / 2 : ℚ) ∈ Set.Icc 0 1 := by norm_num
  have hv : (3 / 4 : ℚ) ∈ Set.Icc 0 1 := by norm_num
  refine ⟨by norm_num, hu, hv, ?_⟩
  obtain ⟨⟨i, j, hi, hj, h⟩, -⟩ :=
    hit?_at (kite 3 (by decide)) (b := ⟨0, 0, 1024, 1024⟩) (by norm_num) (by norm_num) hu hv
  have hi' : IsLeast {k : ℤ | (1 / 2 : ℚ) * ((kite 3 (by decide)).grid - 1 : ℕ) ≤ k} 1 := by
    refine ⟨by norm_num [kite], fun k hk => ?_⟩
    have : (1 : ℚ) ≤ k := by simpa [kite] using hk
    exact_mod_cast this
  have hj' : IsLeast {k : ℤ | (3 / 4 : ℚ) * ((kite 3 (by decide)).grid - 1 : ℕ) ≤ k} 2 := by
    refine ⟨by norm_num [kite], fun k hk => ?_⟩
    have h : (3 / 4 * 2 : ℚ) ≤ k := by simpa [kite] using hk
    have : (1 : ℚ) < k := by linarith
    have : 1 < k := by exact_mod_cast this
    omega
  rw [hi.unique hi', hj.unique hj'] at h
  exact h

/-- **The cells of the plot cover exactly the plot.** -/
theorem contains_iff_hit_onPlot (g : Projector K) (hw : 0 < b.w) (hh : 0 < b.h) (p : Point K) :
    (g.resolve b).outline.contains p = true ↔ ∃ c, g.hit? p (g.resolve b) = some c ∧ g.OnPlot c := by
  rcases g.resolve_clockwise hw hh with hf | hf
  · exact outline_contains_iff_onPlot hf
  · simpa using outline_contains_iff_onPlot (g := g) (p := p.mirror) hf

/-- A point near the last corner is on the plot, and the mirror image of the
first corner is beyond it. -/
theorem contains_iff_hit_onPlot_kite :
    (0 : ℚ) < 1024 ∧
    (∃ c, (kite 3 (by decide)).hit? ⟨540, 540⟩ ((kite 3 (by decide)).resolve ⟨0, 0, 1024, 1024⟩) = some c ∧
      (kite 3 (by decide)).OnPlot c) ∧
    ¬ ∃ c, (kite 3 (by decide)).hit? ⟨1024, 1024⟩ ((kite 3 (by decide)).resolve ⟨0, 0, 1024, 1024⟩) = some c ∧
      (kite 3 (by decide)).OnPlot c := by
  have h (p : Point ℚ) := contains_iff_hit_onPlot (kite 3 (by decide)) (b := ⟨0, 0, 1024, 1024⟩)
    (by norm_num) (by norm_num) p
  refine ⟨by norm_num, (h _).mp (by decide +kernel), fun h' => ?_⟩
  exact absurd ((h _).mpr h') (by decide +kernel)

end Projector

end FarmClient
