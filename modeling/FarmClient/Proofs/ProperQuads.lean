/-
Which quadrilaterals are convex: those whose diagonals cross. Where they cross
divides both diagonals, and in the same proportions the signed area is divided
into the turns at opposite corners (`Quad.turns_eq_parts_iff`). So the turns
are of one sign exactly if the crossing is strictly inside both diagonals, and
that leaves no room for edges that cross, for a corner in the triangle of the
others, or for corners that coincide or lie on one line (`Quad.Flawed`).

A projector is made exactly for such corners.
-/
import Mathlib.Tactic.FieldSimp
import FarmClient.Proofs.FieldCells
import FarmClient.Proofs.QuadHull

namespace FarmClient

variable {K : Type} [ExactScalar K]

/-! ## Between two points -/

/-- The point a fraction of the way from one point to another. -/
def Point.toward (p r : Point K) (t : K) : Point K := ⟨p.x + t * (r.x - p.x), p.y + t * (r.y - p.y)⟩

/-- A point strictly between two others; between a point and itself there is none. -/
def Point.Between (p r q : Point K) : Prop := p ≠ r ∧ ∃ t ∈ Set.Ioo (0 : K) 1, p.toward r t = q

/-- Three points on one line. -/
def OnOneLine (p q r : Point K) : Prop :=
  ∃ u v w : K, (u ≠ 0 ∨ v ≠ 0) ∧ u * p.x + v * p.y = w ∧ u * q.x + v * q.y = w ∧ u * r.x + v * r.y = w

theorem side_toward (p q r s : Point K) (t : K) :
    side p q (r.toward s t) = (1 - t) * side p q r + t * side p q s := by
  simp only [side_eq, Point.toward]
  ring

theorem turn_of_onOneLine {p q r : Point K} (h : OnOneLine p q r) : turn p q r = 0 := by
  obtain ⟨u, v, w, huv, hp, hq, hr⟩ := h
  have hu : u * turn p q r = 0 := by
    rw [turn_eq]
    linear_combination (r.y - q.y) * (hq - hp) - (q.y - p.y) * (hr - hq)
  have hv : v * turn p q r = 0 := by
    rw [turn_eq]
    linear_combination (q.x - p.x) * (hr - hq) - (r.x - q.x) * (hq - hp)
  rcases huv with h | h
  · exact (mul_eq_zero.mp hu).resolve_left h
  · exact (mul_eq_zero.mp hv).resolve_left h

namespace Quad

/-! ## Diagonals and turns -/

/-- The diagonals cross: they have a point in common strictly inside both, and
no other. Diagonals on one line overlap, but do not cross. -/
def DiagonalsCross (q : Quad K) : Prop := ∃! p, q.a.Between q.c p ∧ q.b.Between q.d p

variable {q : Quad K}

theorem turn_add_turn (q : Quad K) : turn q.a q.b q.c + turn q.c q.d q.a = q.twiceArea := by
  simp only [turn_eq, twiceArea, cross]
  ring

theorem turn_add_turn' (q : Quad K) : turn q.b q.c q.d + turn q.d q.a q.b = q.twiceArea := by
  simp only [turn_eq, twiceArea, cross]
  ring

/-- The turns, if the area is divided among opposite corners in two proportions. -/
def parts (q : Quad K) (s t : K) : List K :=
  [t * q.twiceArea, (1 - s) * q.twiceArea, (1 - t) * q.twiceArea, s * q.twiceArea]

/-- A crossing of the diagonals divides the area as it divides them. -/
theorem turns_of_crossing {s t : K} (h : q.a.toward q.c s = q.b.toward q.d t) : q.turns = q.parts s t := by
  simp only [Point.toward, Point.mk.injEq] at h
  obtain ⟨hx, hy⟩ := h
  simp only [turns, parts, turn_eq, twiceArea, cross, List.cons.injEq, and_true]
  refine ⟨?_, ?_, ?_, ?_⟩
  · linear_combination (q.c.x - q.a.x) * hy - (q.c.y - q.a.y) * hx
  · linear_combination (q.d.y - q.b.y) * hx - (q.d.x - q.b.x) * hy
  · linear_combination (q.c.y - q.a.y) * hx - (q.c.x - q.a.x) * hy
  · linear_combination (q.d.x - q.b.x) * hy - (q.d.y - q.b.y) * hx

/-- **The area is divided as the diagonals are**, if there is one. -/
theorem turns_eq_parts_iff (ha : q.twiceArea ≠ 0) {s t : K} :
    q.turns = q.parts s t ↔ q.a.toward q.c s = q.b.toward q.d t := by
  refine ⟨fun h => ?_, turns_of_crossing⟩
  simp only [turns, parts, List.cons.injEq, and_true] at h
  obtain ⟨hb, -, -, hd⟩ := h
  have hx : q.twiceArea * (q.a.x - q.b.x) = turn q.a q.b q.c * (q.d.x - q.b.x) -
      turn q.d q.a q.b * (q.c.x - q.a.x) := by
    simp only [turn_eq, twiceArea, cross]
    ring
  have hy : q.twiceArea * (q.a.y - q.b.y) = turn q.a q.b q.c * (q.d.y - q.b.y) -
      turn q.d q.a q.b * (q.c.y - q.a.y) := by
    simp only [turn_eq, twiceArea, cross]
    ring
  rw [hb, hd] at hx hy
  simp only [Point.toward, Point.mk.injEq]
  constructor
  · refine mul_left_cancel₀ ha ?_
    linear_combination hx
  · refine mul_left_cancel₀ ha ?_
    linear_combination hy

/-- The turns have one sign exactly if they divide an area, in proper proportions. -/
theorem isConvex_iff_parts : q.isConvex = true ↔
    q.twiceArea ≠ 0 ∧ ∃ s ∈ Set.Ioo (0 : K) 1, ∃ t ∈ Set.Ioo (0 : K) 1, q.turns = q.parts s t := by
  have hbd := q.turn_add_turn
  have hac := q.turn_add_turn'
  rw [isConvex_iff]
  constructor
  · intro h
    -- the proportions of two numbers of one sign to their sum
    have key {x y z : K} (hz : x + y = z) (h : 0 < x ∧ 0 < y ∨ x < 0 ∧ y < 0) :
        z ≠ 0 ∧ x / z ∈ Set.Ioo (0 : K) 1 ∧ x = x / z * z ∧ y = (1 - x / z) * z := by
      have hz₀ : z ≠ 0 := by rcases h with ⟨hx, hy⟩ | ⟨hx, hy⟩ <;> intro h <;> linarith
      refine ⟨hz₀, ?_, (div_mul_cancel₀ x hz₀).symm, ?_⟩
      · rcases h with ⟨hx, hy⟩ | ⟨hx, hy⟩
        · exact ⟨div_pos hx (by linarith), (div_lt_one (by linarith)).mpr (by linarith)⟩
        · exact ⟨div_pos_of_neg_of_neg hx (by linarith), (div_lt_one_of_neg (by linarith)).mpr (by linarith)⟩
      · rw [sub_mul, div_mul_cancel₀ x hz₀]
        linear_combination hz
    simp only [turns, List.forall_mem_cons, List.not_mem_nil, false_implies, implies_true, and_true] at h
    obtain ⟨ha, hs, ha', hc⟩ := key ((add_comm _ _).trans hac)
      (h.imp (fun h => ⟨h.2.2.2, h.2.1⟩) fun h => ⟨h.2.2.2, h.2.1⟩)
    obtain ⟨-, ht, hb, hd⟩ := key hbd (h.imp (fun h => ⟨h.1, h.2.2.1⟩) fun h => ⟨h.1, h.2.2.1⟩)
    refine ⟨ha, _, hs, _, ht, ?_⟩
    simp only [turns, parts, List.cons.injEq, and_true]
    exact ⟨hb, hc, hd, ha'⟩
  · rintro ⟨ha, s, hs, t, ht, h⟩
    have hs' := sub_pos.mpr hs.2
    have ht' := sub_pos.mpr ht.2
    simp only [h, parts, List.forall_mem_cons, List.not_mem_nil, false_implies, implies_true, and_true]
    rcases ha.lt_or_gt with ha | ha
    · exact .inr ⟨mul_neg_of_pos_of_neg ht.1 ha, mul_neg_of_pos_of_neg hs' ha, mul_neg_of_pos_of_neg ht' ha,
        mul_neg_of_pos_of_neg hs.1 ha⟩
    · exact .inl ⟨mul_pos ht.1 ha, mul_pos hs' ha, mul_pos ht' ha, mul_pos hs.1 ha⟩

/-! ### Diagonals that overlap -/

/-- Two directions of which one is not zero, without an area between them. -/
theorem exists_multiple {vx vy wx wy : K} (hv : vx ≠ 0 ∨ vy ≠ 0) (h : vx * wy = vy * wx) :
    ∃ k, wx = k * vx ∧ wy = k * vy := by
  rcases hv with hv | hv
  · refine ⟨wx / vx, (div_mul_cancel₀ wx hv).symm, mul_left_cancel₀ hv ?_⟩
    rw [h]
    field_simp
  · refine ⟨wy / vy, mul_left_cancel₀ hv ?_, (div_mul_cancel₀ wy hv).symm⟩
    rw [← h]
    field_simp

/-- On one line the diagonals have another point in common beside the first. -/
theorem exists_other_crossing {s t : K} (hs : s ∈ Set.Ioo (0 : K) 1) (ht : t ∈ Set.Ioo (0 : K) 1)
    (hac : q.a ≠ q.c) (h : q.a.toward q.c s = q.b.toward q.d t) (h₀ : q.twiceArea = 0) :
    ∃ s' ∈ Set.Ioo (0 : K) 1, ∃ t' ∈ Set.Ioo (0 : K) 1,
      q.a.toward q.c s' = q.b.toward q.d t' ∧ t' ≠ t := by
  have hv : q.c.x - q.a.x ≠ 0 ∨ q.c.y - q.a.y ≠ 0 := by
    by_contra! hn
    refine hac ?_
    cases ha : q.a
    cases hc : q.c
    rw [ha, hc] at hn
    simp only [Point.mk.injEq]
    exact ⟨(sub_eq_zero.mp hn.1).symm, (sub_eq_zero.mp hn.2).symm⟩
  have hcross : (q.c.x - q.a.x) * (q.d.y - q.b.y) = (q.c.y - q.a.y) * (q.d.x - q.b.x) := by
    simp only [twiceArea, cross] at h₀
    linear_combination h₀
  obtain ⟨k, hx, hy⟩ := exists_multiple hv hcross
  -- a step along both that is shorter than what is left of either
  obtain ⟨ε, hε₀, hε⟩ := exists_between (lt_min (lt_min hs.1 (sub_pos.mpr hs.2)) (sub_pos.mpr ht.2))
  simp only [lt_min_iff] at hε
  obtain ⟨⟨hεs, hεs'⟩, hεt⟩ := hε
  have hm : (0 : K) < 1 + |k| := by positivity
  have hstep : ε / (1 + |k|) ≤ ε := div_le_self hε₀.le (by linarith [abs_nonneg k])
  have hk : |k * (ε / (1 + |k|))| ≤ ε := by
    rw [abs_mul, abs_of_pos (div_pos hε₀ hm), mul_div_assoc', div_le_iff₀ hm]
    nlinarith [abs_nonneg k]
  obtain ⟨hk₁, hk₂⟩ := abs_le.mp hk
  have hpos := div_pos hε₀ hm
  refine ⟨s + k * (ε / (1 + |k|)), ⟨by linarith, by linarith⟩, t + ε / (1 + |k|),
    ⟨by linarith [ht.1], by linarith⟩, ?_, by linarith⟩
  simp only [Point.toward, Point.mk.injEq] at h ⊢
  exact ⟨by linear_combination h.1 - ε / (1 + |k|) * hx, by linear_combination h.2 - ε / (1 + |k|) * hy⟩

/-- **Convex is where the diagonals cross.** -/
theorem isConvex_iff_diagonalsCross (q : Quad K) : q.isConvex = true ↔ q.DiagonalsCross := by
  rw [isConvex_iff_parts]
  constructor
  · rintro ⟨ha, s, hs, t, ht, h⟩
    have hparts := h
    rw [turns_eq_parts_iff ha] at h
    have hab : turn q.a q.b q.c = t * q.twiceArea := (List.cons.inj hparts).1
    have hbc : turn q.b q.c q.d = (1 - s) * q.twiceArea := (List.cons.inj (List.cons.inj hparts).2).1
    have hac : q.a ≠ q.c := by
      intro he
      rw [he, turn_eq] at hab
      exact mul_ne_zero ht.1.ne' ha (by rw [← hab]; ring)
    have hbd : q.b ≠ q.d := by
      intro he
      rw [he, turn_eq] at hbc
      exact mul_ne_zero (sub_pos.mpr hs.2).ne' ha (by rw [← hbc]; ring)
    refine ⟨q.a.toward q.c s, ⟨⟨hac, s, hs, rfl⟩, hbd, t, ht, h.symm⟩, ?_⟩
    rintro p ⟨⟨-, s', -, rfl⟩, -, t', -, h'⟩
    -- the turn at the second corner tells the proportion
    have hp' := turns_of_crossing h'.symm
    have hab' : turn q.a q.b q.c = t' * q.twiceArea := (List.cons.inj hp').1
    rw [← h', h, mul_right_cancel₀ ha (hab'.symm.trans hab)]
  · rintro ⟨p, ⟨⟨hac, s, hs, rfl⟩, hbd, t, ht, h⟩, hu⟩
    have ha : q.twiceArea ≠ 0 := by
      intro h₀
      obtain ⟨s', hs', t', ht', h', hne⟩ := exists_other_crossing hs ht hac h.symm h₀
      have he : q.b.toward q.d t' = q.b.toward q.d t := by
        rw [← h', h]
        exact hu _ ⟨⟨hac, s', hs', rfl⟩, hbd, t', ht', h'.symm⟩
      simp only [Point.toward, Point.mk.injEq, add_right_inj, mul_eq_mul_right_iff, hne, false_or, sub_eq_zero] at he
      refine hbd ?_
      cases hb : q.b
      cases hd : q.d
      rw [hb, hd] at he
      simp only [Point.mk.injEq]
      exact ⟨he.1.symm, he.2.symm⟩
    exact ⟨ha, s, hs, t, ht, turns_of_crossing h.symm⟩

/-! ## What is not convex -/

/-- What can be wrong with four corners, seen from any of them. -/
inductive Flawed : Quad K → Prop
  /-- Two opposite edges cross, or overlap. -/
  | bowTie {q : Quad K} {p : Point K} : q.a.Between q.b p → q.c.Between q.d p → Flawed q
  /-- A corner lies in the triangle of the others. -/
  | dart {q : Quad K} : (Quad.mk q.b q.c q.d q.d).Hull q.a → Flawed q
  | equalNeighbours {q : Quad K} : q.a = q.b → Flawed q
  | equalOpposites {q : Quad K} : q.a = q.c → Flawed q
  | straight {q : Quad K} : OnOneLine q.a q.b q.c → Flawed q
  | rotate {q : Quad K} : Flawed q.rotate → Flawed q

@[simp] theorem rotate_isConvex (q : Quad K) : q.rotate.isConvex = q.isConvex := by
  rw [Bool.eq_iff_iff, isConvex_iff, isConvex_iff, rotate_turns]
  simp only [List.mem_rotate]

/-- No two turns of a convex quadrilateral balance each other. -/
theorem mix_ne_zero (h : q.isConvex = true) {x y u v : K} (hx : x ∈ q.turns) (hy : y ∈ q.turns) (hu : 0 ≤ u)
    (hv : 0 ≤ v) (huv : 0 < u + v) : u * x + v * y ≠ 0 := by
  -- one of the weights counts
  have key {x y : K} (hx : 0 < x) (hy : 0 < y) : 0 < u * x + v * y := by
    rcases hu.eq_or_lt with rfl | hu
    · rw [zero_add] at huv
      simpa using mul_pos huv hy
    · exact add_pos_of_pos_of_nonneg (mul_pos hu hx) (mul_nonneg hv hy.le)
  rcases q.isConvex_iff.mp h with h | h
  · exact (key (h x hx) (h y hy)).ne'
  · have := key (neg_pos.mpr (h x hx)) (neg_pos.mpr (h y hy))
    intro h₀
    linarith

theorem turns_mem (q : Quad K) : turn q.a q.b q.c ∈ q.turns ∧ turn q.b q.c q.d ∈ q.turns ∧
    turn q.d q.a q.b ∈ q.turns := by
  simp [turns]

/-- **Flawed corners are refused.** -/
theorem Flawed.isConvex_eq_false (h : q.Flawed) : q.isConvex = false := by
  induction h with
  | rotate _ ih => rwa [rotate_isConvex] at ih
  | @bowTie q p hab hcd =>
    obtain ⟨-, s, -, rfl⟩ := hab
    obtain ⟨-, t, ht, h⟩ := hcd
    obtain ⟨hb, -, ha⟩ := q.turns_mem
    rw [Bool.eq_false_iff]
    intro hq
    -- one edge is on one side of the other
    have hzero : side q.a q.b (q.c.toward q.d t) = 0 := by rw [h, side_toward, side_start, side_stop]; ring
    rw [side_toward, side_eq_turn, side_eq_turn, turn_cycle q.d q.a q.b] at hzero
    exact mix_ne_zero hq hb ha (sub_pos.mpr ht.2).le ht.1.le (by linarith) hzero
  | @dart q h =>
    obtain ⟨w, h⟩ := h
    obtain ⟨-, hc, ha⟩ := q.turns_mem
    rw [Bool.eq_false_iff]
    intro hq
    -- the corner is beyond the diagonal between its neighbours, as the opposite one is
    have hside := w.side_mean ⟨q.b, q.c, q.d, q.d⟩ q.b q.d
    simp only [h, side_start, side_stop, mul_zero, zero_add, add_zero] at hside
    rw [side_swap q.d q.b q.c, side_eq_turn, side_eq_turn, turn_cycle q.a q.b q.d, turn_cycle q.d q.a q.b,
      turn_cycle q.c q.d q.b, turn_cycle q.b q.c q.d] at hside
    refine mix_ne_zero hq ha hc zero_le_one w.b_nonneg (add_pos_of_pos_of_nonneg one_pos w.b_nonneg) ?_
    linear_combination hside
  | @equalNeighbours q h =>
    rw [Bool.eq_false_iff]
    intro hq
    refine mix_ne_zero hq q.turns_mem.1 q.turns_mem.1 zero_le_one le_rfl (by simp) ?_
    rw [h, turn_eq]
    ring
  | @equalOpposites q h =>
    rw [Bool.eq_false_iff]
    intro hq
    refine mix_ne_zero hq q.turns_mem.1 q.turns_mem.1 zero_le_one le_rfl (by simp) ?_
    rw [h, turn_eq]
    ring
  | @straight q h =>
    rw [Bool.eq_false_iff]
    intro hq
    refine mix_ne_zero hq q.turns_mem.1 q.turns_mem.1 zero_le_one le_rfl (by simp) ?_
    rw [turn_of_onOneLine h]
    ring

/-! ## The way round -/

/-- The corners of a convex quadrilateral turn right exactly if it is passed clockwise. -/
theorem winding_eq_clockwise_iff (h : q.isConvex = true) :
    q.winding = some .clockwise ↔ ∀ t ∈ q.turns, 0 < t := by
  have ha := q.turn_add_turn
  have hm := q.turns_mem.1
  have hm' : turn q.c q.d q.a ∈ q.turns := by simp [turns]
  rcases q.isConvex_iff.mp h with h | h
  · have hpos : 0 < q.twiceArea := by linarith [h _ hm, h _ hm']
    simp only [winding, Scalar.literal_zero, hpos, if_true, true_iff]
    exact h
  · have hneg : q.twiceArea < 0 := by linarith [h _ hm, h _ hm']
    simp only [winding, Scalar.literal_zero, hneg.not_gt, hneg, if_true, if_false]
    exact ⟨fun hw => by simp at hw, fun hp => absurd (hp _ hm) (h _ hm).not_gt⟩

theorem winding_ne_none (h : q.isConvex = true) : q.winding ≠ none := by
  have ha := (isConvex_iff_parts.mp h).1
  rcases ha.lt_or_gt with ha | ha
  · simp [winding, ha, ha.not_gt]
  · simp [winding, ha]

end Quad

/-! ## Which projectors are made -/

/-- The corners as the outline passes them, by their names. -/
def Corners.named (c : Corners K) : List (String × Point K) :=
  [("topLeft", c.topLeft), ("topRight", c.topRight), ("bottomRight", c.bottomRight), ("bottomLeft", c.bottomLeft)]

/-- What is read of the corners, one after the other: how far right, then how far down. -/
def Corners.readings (c : Corners K) : List (String × K) :=
  c.named.flatMap fun (name, p) => [(name, p.x), (name, p.y)]

theorem Corners.components_eq {L : Type} (c : Corners L) : c.components = c.readings := rfl

theorem isFraction_iff (x : K) : isFraction x = true ↔ x ∈ Set.Icc (0 : K) 1 := by
  simp [isFraction]

/-- Why no projector is made: the grid comes first, then the readings in their
order, then the shape. -/
inductive Projector.Refused (grid : ℤ) (ratio : Corners K) : GeometryError K → Prop
  | gridTooSmall : grid < 2 → Refused grid ratio (.gridTooSmall grid)
  | ratioOutOfRange {before after : List (String × K)} {corner : String} {value : K} : 2 ≤ grid →
      ratio.readings = before ++ (corner, value) :: after → (∀ r ∈ before, r.2 ∈ Set.Icc (0 : K) 1) →
      value ∉ Set.Icc (0 : K) 1 → Refused grid ratio (.ratioOutOfRange corner value)
  | notConvex : 2 ≤ grid → (∀ r ∈ ratio.readings, r.2 ∈ Set.Icc (0 : K) 1) → ¬ ratio.outline.DiagonalsCross →
      Refused grid ratio .notConvex

namespace Projector

variable {grid : ℤ} {ratio : Corners K}

theorem find?_readings_eq_none_iff :
    ratio.readings.find? (fun r => !isFraction r.2) = none ↔ ∀ r ∈ ratio.readings, r.2 ∈ Set.Icc (0 : K) 1 := by
  simp [List.find?_eq_none, isFraction_iff]

theorem find?_readings_eq_some_iff {corner : String} {value : K} :
    ratio.readings.find? (fun r => !isFraction r.2) = some (corner, value) ↔
      value ∉ Set.Icc (0 : K) 1 ∧ ∃ before after, ratio.readings = before ++ (corner, value) :: after ∧
        ∀ r ∈ before, r.2 ∈ Set.Icc (0 : K) 1 := by
  simp only [List.find?_eq_some_iff_append, Bool.not_eq_true', isFraction_iff,
    ← Bool.not_eq_true, not_not]

theorem exists_make_iff : (∃ g, make grid ratio = .ok g ∧ (g.grid : ℤ) = grid ∧ g.ratio = ratio) ↔
    2 ≤ grid ∧ (∀ r ∈ ratio.readings, r.2 ∈ Set.Icc (0 : K) 1) ∧ ratio.outline.DiagonalsCross := by
  simp only [make_eq_ok_iff, and_self, ← Quad.isConvex_iff_diagonalsCross]
  constructor
  · rintro ⟨g, rfl, rfl⟩
    refine ⟨by exact_mod_cast g.two_le_grid, find?_readings_eq_none_iff.mp ?_, g.convex⟩
    simpa [Corners.components_eq] using g.fractions
  · rintro ⟨hg, hr, hc⟩
    refine ⟨⟨grid.toNat, ratio, by omega, ?_, hc⟩, by simp only; omega, rfl⟩
    simpa [Corners.components_eq, isFraction_iff] using hr

theorem make_eq_error_iff {e : GeometryError K} : make grid ratio = .error e ↔ Refused grid ratio e := by
  constructor
  · intro h
    unfold make at h
    split at h
    · next hg =>
      split at h
      · next hf =>
        cases h
        obtain ⟨hv, before, after, hr, hb⟩ := find?_readings_eq_some_iff.mp hf
        exact .ratioOutOfRange hg hr hb hv
      · next hf =>
        split at h
        · cases h
        · next hc =>
          cases h
          exact .notConvex hg (find?_readings_eq_none_iff.mp hf) (mt (Quad.isConvex_iff_diagonalsCross _).mpr hc)
    · next hg =>
      cases h
      exact .gridTooSmall (not_le.mp hg)
  · intro h
    unfold make
    cases h with
    | gridTooSmall hg => rw [dif_neg hg.not_ge]
    | ratioOutOfRange hg hr hb hv =>
      have hf := find?_readings_eq_some_iff.mpr ⟨hv, _, _, hr, hb⟩
      rw [dif_pos hg]
      split
      · next h' => rw [Corners.components_eq, hf] at h'; cases h'; rfl
      · next h' => rw [Corners.components_eq, hf] at h'; cases h'
    | notConvex hg hr hc =>
      have hf := find?_readings_eq_none_iff.mpr hr
      rw [dif_pos hg]
      split
      · next h' => rw [Corners.components_eq, hf] at h'; cases h'
      · rw [dif_neg (mt (Quad.isConvex_iff_diagonalsCross _).mp hc)]

/-- **Projectors are made for proper quadrilaterals.** Four corners are taken
for convex exactly if their diagonals cross, whatever else may be wrong with
them, and they then turn right exactly if they are passed clockwise. So a
projector is made exactly for a grid of two cells a side or more and for
fractions whose diagonals cross; otherwise the first thing wrong is named. -/
theorem made_iff_diagonals_cross :
    (∀ q : Quad K, (q.isConvex = true ↔ q.DiagonalsCross) ∧ (q.Flawed → q.isConvex = false) ∧
      (q.isConvex = true → (q.winding = some .clockwise ↔ ∀ t ∈ q.turns, 0 < t))) ∧
    ∀ (grid : ℤ) (ratio : Corners K),
      ((∃ g, make grid ratio = .ok g ∧ (g.grid : ℤ) = grid ∧ g.ratio = ratio) ↔
        2 ≤ grid ∧ (∀ r ∈ ratio.readings, r.2 ∈ Set.Icc (0 : K) 1) ∧ ratio.outline.DiagonalsCross) ∧
      ∀ e, make grid ratio = .error e ↔ Refused grid ratio e := by
  refine ⟨fun q => ⟨q.isConvex_iff_diagonalsCross, Quad.Flawed.isConvex_eq_false, Quad.winding_eq_clockwise_iff⟩,
    fun grid ratio => ⟨exists_make_iff, fun e => make_eq_error_iff⟩⟩

/-- Corners in the order of a bow-tie: the way down crosses the way back up. -/
def bowTie : Corners ℚ := ⟨⟨0, 0⟩, ⟨1, 1⟩, ⟨0, 1⟩, ⟨1, 0⟩⟩

/-- A quadrilateral that stands askew is convex and clockwise; a bow-tie is
refused for its shape, and only behind a grid that is too small. -/
theorem made_iff_diagonals_cross_bow_tie :
    Quad.askew.DiagonalsCross ∧ Quad.askew.winding = some .clockwise ∧ bowTie.outline.isConvex = false ∧
    make 2 bowTie = .error .notConvex ∧ make 1 bowTie = .error (.gridTooSmall 1) := by
  obtain ⟨hquad, hmake⟩ := made_iff_diagonals_cross (K := ℚ)
  have hq : Quad.askew.isConvex = true := by decide +kernel
  have hflawed : bowTie.outline.Flawed := by
    refine .bowTie (p := ⟨1 / 2, 1 / 2⟩) ⟨?_, 1 / 2, by norm_num, ?_⟩ ⟨?_, 1 / 2, by norm_num, ?_⟩
    · simp [bowTie, Corners.outline]
    · norm_num [bowTie, Corners.outline, Point.toward]
    · simp [bowTie, Corners.outline]
    · norm_num [bowTie, Corners.outline, Point.toward]
  have hc := (hquad bowTie.outline).2.1 hflawed
  have hr : ∀ r ∈ bowTie.readings, r.2 ∈ Set.Icc (0 : ℚ) 1 := by
    simp [Corners.readings, Corners.named, bowTie]
  refine ⟨(hquad _).1.mp hq, ((hquad _).2.2 hq).mpr (by decide +kernel), hc, ?_, ?_⟩
  · refine ((hmake 2 bowTie).2 _).mpr (.notConvex le_rfl hr fun h => ?_)
    rw [(hquad _).1.mpr h] at hc
    cases hc
  · exact ((hmake 1 bowTie).2 _).mpr (.gridTooSmall (by norm_num))

end Projector

end FarmClient
