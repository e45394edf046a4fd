/-
The plot in every viewport. A picture is drawn as large as fits
(`Layout.Fitted`), so the place of a corner on the screen differs from its
place in the picture by a move and by a positive factor in each direction.
Turns and areas are multiplied by the product of the two factors
(`Quad.place_turns`, `Quad.place_twiceArea`), so what was checked of the corners
as fractions of the picture holds of them on the screen.
-/
import FarmClient.Proofs.Hovering
import FarmClient.Proofs.ProperQuads

namespace FarmClient

variable {K : Type} [ExactScalar K]

/-! ## The place of the picture -/

/-- A point of a rectangle, its edges included. -/
def Rect.Holds (r : Rect K) (p : Point K) : Prop :=
  p.x ∈ Set.Icc r.x (r.x + r.w) ∧ p.y ∈ Set.Icc r.y (r.y + r.h)

/-- A picture is drawn in its proportions, as large as fits into the viewport,
in the middle at the top. -/
structure Layout.Fitted (viewport image : Size K) (l : Layout K) : Prop where
  width_eq : l.rect.w = image.width * l.scale
  height_eq : l.rect.h = image.height * l.scale
  aspect : l.rect.w / l.rect.h = image.width / image.height
  left : 0 ≤ l.rect.x
  right : l.rect.x + l.rect.w ≤ viewport.width
  bottom : l.rect.y + l.rect.h ≤ viewport.height
  full : l.rect.w = viewport.width ∨ l.rect.h = viewport.height
  largest : ∀ scale, image.width * scale ≤ viewport.width → image.height * scale ≤ viewport.height →
    scale ≤ l.scale
  top : l.rect.y = 0
  margins : l.rect.x = viewport.width - (l.rect.x + l.rect.w)

namespace Layout

variable {viewport image : Size K}

/-- The scale is the one that a side of the viewport allows, and neither side
allows a larger one. -/
theorem fitScale_cases (viewport image : Size K) :
    (fitScale viewport image = viewport.width / image.width ∨
      fitScale viewport image = viewport.height / image.height) ∧
    fitScale viewport image ≤ viewport.width / image.width ∧
    fitScale viewport image ≤ viewport.height / image.height := by
  rw [fitScale, Scalar.min_eq]
  split
  · next h => exact ⟨.inl rfl, le_rfl, h⟩
  · next h => exact ⟨.inr rfl, (not_le.mp h).le, le_rfl⟩

theorem fitted_place (hi : 0 < image.width) (hj : 0 < image.height) (hw : 0 < viewport.width)
    (hh : 0 < viewport.height) : Fitted viewport image ⟨place viewport image, fitScale viewport image⟩ := by
  obtain ⟨hfull, hw', hh'⟩ := fitScale_cases viewport image
  have hp := (place_pos hi hj hw hh).2
  rw [le_div_iff₀ hi, mul_comm] at hw'
  rw [le_div_iff₀ hj, mul_comm] at hh'
  constructor
  case width_eq => rfl
  case height_eq => rfl
  case aspect =>
    have hs : fitScale viewport image ≠ 0 := right_ne_zero_of_mul hp.ne'
    exact mul_div_mul_right _ _ hs
  case left => exact div_nonneg (sub_nonneg.mpr hw') (by simp)
  case right =>
    simp only [place]
    linarith
  case bottom => simpa [place] using hh'
  case full =>
    refine hfull.imp (fun h => ?_) fun h => ?_
    · simp only [place, h]
      exact mul_div_cancel₀ _ hi.ne'
    · simp only [place, h]
      exact mul_div_cancel₀ _ hj.ne'
  case largest =>
    intro scale hsw hsh
    rw [mul_comm, ← le_div_iff₀ hi] at hsw
    rw [mul_comm, ← le_div_iff₀ hj] at hsh
    rcases hfull with h | h
    · rwa [h]
    · rwa [h]
  case top => simp [place]
  case margins =>
    simp only [place]
    ring

end Layout

/-! ## Corners on the screen -/

/-- Where a point of the picture is on the screen. -/
def Rect.spot (b : Rect K) (p : Point K) : Point K := ⟨b.x + p.x * b.w, b.y + p.y * b.h⟩

/-- An outline in the picture as it is on the screen. -/
def Quad.place (b : Rect K) (q : Quad K) : Quad K := ⟨b.spot q.a, b.spot q.b, b.spot q.c, b.spot q.d⟩

theorem Projector.resolve_outline (g : Projector K) (b : Rect K) :
    (g.resolve b).outline = g.ratio.outline.place b := rfl

/-- The screen has the fractions of the picture between its edges. -/
theorem Rect.holds_spot {b : Rect K} (hw : 0 ≤ b.w) (hh : 0 ≤ b.h) {p : Point K} (hx : p.x ∈ Set.Icc (0 : K) 1)
    (hy : p.y ∈ Set.Icc (0 : K) 1) : b.Holds (b.spot p) := by
  have key {x u w : K} (hw : 0 ≤ w) (hu : u ∈ Set.Icc (0 : K) 1) : x + u * w ∈ Set.Icc x (x + w) := by
    refine ⟨le_add_of_nonneg_right (mul_nonneg hu.1 hw), ?_⟩
    exact add_le_add_right (mul_le_of_le_one_left hw hu.2) x
  exact ⟨key hw hx, key hh hy⟩

theorem turn_spot (b : Rect K) (p q r : Point K) :
    turn (b.spot p) (b.spot q) (b.spot r) = b.w * b.h * turn p q r := by
  simp only [turn_eq, Rect.spot]
  ring

theorem mul_neg_iff_of_pos {c x : K} (hc : 0 < c) : c * x < 0 ↔ x < 0 := by
  rw [← neg_pos, ← mul_neg, mul_pos_iff_of_pos_left hc, neg_pos]

namespace Quad

variable {b : Rect K} {q : Quad K}

theorem place_turns (b : Rect K) (q : Quad K) : (q.place b).turns = q.turns.map (b.w * b.h * ·) := by
  simp [turns, place, turn_spot]

theorem place_twiceArea (b : Rect K) (q : Quad K) : (q.place b).twiceArea = b.w * b.h * q.twiceArea := by
  simp only [twiceArea, place, cross, Rect.spot]
  ring

theorem place_isConvex (hb : 0 < b.w * b.h) : (q.place b).isConvex = q.isConvex := by
  rw [Bool.eq_iff_iff, isConvex_iff, isConvex_iff, place_turns]
  simp only [List.forall_mem_map, mul_pos_iff_of_pos_left hb, mul_neg_iff_of_pos hb]

theorem place_winding (hb : 0 < b.w * b.h) : (q.place b).winding = q.winding := by
  simp only [winding, Scalar.literal_zero, place_twiceArea, mul_pos_iff_of_pos_left hb, mul_neg_iff_of_pos hb]

end Quad

/-! ## Every viewport -/

namespace Layout

variable {viewport image : Size K}

/-- **What was checked of the corners holds in every viewport.** A picture with
an area is drawn as large as fits into a viewport with an area. There the plot
of a projector has its corners on the picture, is convex, and is passed the way
round that its corners tell. -/
theorem fit_keeps_plots (hw : 0 < viewport.width) (hh : 0 < viewport.height) (hi : 0 < image.width)
    (hj : 0 < image.height) :
    ∃ l, fit? viewport image = some l ∧ l.Fitted viewport image ∧
      (∀ s : Scene K, (s.relayout viewport (some image)).field? = some (s.projector.resolve l.rect)) ∧
      ∀ (grid : ℤ) (ratio : Corners K) (g : Projector K), Projector.make grid ratio = .ok g →
        (∀ p ∈ [(g.resolve l.rect).topLeft, (g.resolve l.rect).topRight, (g.resolve l.rect).bottomLeft,
          (g.resolve l.rect).bottomRight], l.rect.Holds p) ∧
        (g.resolve l.rect).outline.isConvex = true ∧
        (g.resolve l.rect).outline.winding = ratio.outline.winding ∧ ratio.outline.winding ≠ none := by
  obtain ⟨hpw, hph⟩ := place_pos hi hj hw hh
  have hb := mul_pos hpw hph
  refine ⟨_, fit?_eq hi hj, fitted_place hi hj hw hh, fun s => s.field?_relayout hi hj, ?_⟩
  intro grid ratio g hg
  obtain ⟨-, rfl⟩ := Projector.make_eq_ok_iff.mp hg
  have hr : ∀ r ∈ g.ratio.readings, r.2 ∈ Set.Icc (0 : K) 1 :=
    (Projector.exists_make_iff.mp ⟨g, hg, Projector.make_eq_ok_iff.mp hg⟩).2.1
  refine ⟨?_, ?_, ?_, Quad.winding_ne_none g.convex⟩
  · have hspot {p : Point K} (hx : p.x ∈ Set.Icc (0 : K) 1) (hy : p.y ∈ Set.Icc (0 : K) 1) :=
      Rect.holds_spot (b := place viewport image) hpw.le hph.le hx hy
    simp only [Corners.readings, Corners.named, List.flatMap_cons, List.flatMap_nil, List.cons_append, List.nil_append,
      List.forall_mem_cons, List.not_mem_nil, false_implies, implies_true, and_true] at hr ⊢
    obtain ⟨htlx, htly, htrx, htry, hbrx, hbry, hblx, hbly⟩ := hr
    exact ⟨hspot htlx htly, hspot htrx htry, hspot hblx hbly, hspot hbrx hbry⟩
  · rw [Projector.resolve_outline, Quad.place_isConvex hb]
    exact g.convex
  · rw [Projector.resolve_outline, Quad.place_winding hb]

/-- A tall picture in a wide viewport: only the height is full. -/
theorem fit_keeps_plots_tall :
    ∃ l, fit? (⟨2048, 1024⟩ : Size ℚ) ⟨32, 64⟩ = some l ∧ l.Fitted ⟨2048, 1024⟩ ⟨32, 64⟩ ∧ l.rect.h = 1024 ∧
      ((Projector.kite 2 le_rfl).resolve l.rect).outline.isConvex = true ∧
      ((Projector.kite 2 le_rfl).resolve l.rect).outline.winding = some .clockwise := by
  have hw : 0 < (⟨2048, 1024⟩ : Size ℚ).width := by norm_num
  have hh : 0 < (⟨2048, 1024⟩ : Size ℚ).height := by norm_num
  have hi : 0 < (⟨32, 64⟩ : Size ℚ).width := by norm_num
  have hj : 0 < (⟨32, 64⟩ : Size ℚ).height := by norm_num
  obtain ⟨l, hl, hfit, -, hplots⟩ := fit_keeps_plots hw hh hi hj
  obtain ⟨-, hc, hwind, -⟩ := hplots 2 _ (Projector.kite 2 le_rfl) (Projector.make_eq_ok_iff.mpr ⟨rfl, rfl⟩)
  refine ⟨l, hl, hfit, ?_, hc, ?_⟩
  · refine hfit.full.resolve_left fun hfull => ?_
    have hb := hfit.bottom
    rw [hfit.width_eq] at hfull
    rw [hfit.top, hfit.height_eq] at hb
    norm_num at hfull hb
    linarith
  · rw [hwind]
    decide +kernel

end Layout

end FarmClient
