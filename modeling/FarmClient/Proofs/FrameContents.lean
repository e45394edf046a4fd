/-
What a frame shows. Under the labels it is the cached farm and nothing else:
each cell that the farm has is drawn once, row by row, at its own place, with
the outline of the hovered cell before that cell's sprites. The projector counts
as many cells as the farm has, in any run of the client, so that no cell of a
snapshot is left out.
-/
import FarmClient.Proofs.FieldCells
import FarmClient.Proofs.FloatingLabels
import FarmClient.Proofs.LastWrites

namespace FarmClient

/-! ## The cells of a farm -/

theorem Farm.cell?_eq_some_iff {f : Farm} {x y : Nat} {c : Cell} :
    f.cell? x y = some c ↔ ∃ row, f.grid[y]? = some row ∧ row[x]? = some (some c) := by
  simp [Farm.cell?, Option.bind_eq_some_iff]

/-- A farm that fits has cells in its square alone. -/
theorem Farm.Fits.cell?_lt {size : Nat} {f : Farm} (h : f.Fits size) {x y : Nat} {c : Cell}
    (hc : f.cell? x y = some c) : x < size ∧ y < size := by
  obtain ⟨row, hrow, hcell⟩ := Farm.cell?_eq_some_iff.mp hc
  obtain ⟨hy, rfl⟩ := List.getElem?_eq_some_iff.mp hrow
  obtain ⟨hx, -⟩ := List.getElem?_eq_some_iff.mp hcell
  rcases h with hnone | ⟨hlength, hrows⟩
  · simp [hnone] at hy
  · exact ⟨hrows _ (List.getElem_mem hy) ▸ hx, hlength ▸ hy⟩

theorem flatMap_eq_flatten_filterMap {α β γ : Type} {f : α → List γ} {g : α → Option β} {k : β → List γ}
    (hnone : ∀ a, g a = none → f a = []) (hsome : ∀ a b, g a = some b → f a = k b) (l : List α) :
    l.flatMap f = ((l.filterMap g).map k).flatten := by
  induction l with
  | nil => rfl
  | cons a l ih =>
    cases ha : g a with
    | none => rw [List.flatMap_cons, hnone a ha, List.filterMap_cons_none ha, List.nil_append, ih]
    | some b => rw [List.flatMap_cons, hsome a b ha, List.filterMap_cons_some ha, List.map_cons, List.flatten_cons, ih]

variable {K : Type} [ExactScalar K]

/-! ## What is drawn of them -/

/-- What stands in a frame for the crop that a cell may have: its sprite at the
cell's place, within the bounds of sizes, and behind it that of the harvest if
the crop is grown. -/
inductive ShowsCrop (p : ProjectedPoint K) (cell : Cell) : List (DrawCommand K) → Prop
  | bare : cell.crop = none → ShowsCrop p cell []
  | growing (crop : Crop) (size : K) : cell.crop = some crop → ¬ 1 ≤ cell.maturity → 32 ≤ size → size ≤ 64 →
      ShowsCrop p cell [.glyph crop.emoji p.x p.y size]
  | grown (crop : Crop) (size x y dot : K) : cell.crop = some crop → 1 ≤ cell.maturity → 32 ≤ size → size ≤ 64 →
      ShowsCrop p cell [.glyph crop.emoji p.x p.y size, .glyph Scene.harvestGlyph x y dot]

/-- What stands in a frame for a cell: its outline if it is hovered, then its crop. -/
def ShowsCell (s : Scene K) (l : Layout K) (pos : CellPos) (cell : Cell) (shown : List (DrawCommand K)) : Prop :=
  let field := s.projector.resolve l.rect
  ∃ sprites, ShowsCrop (s.projector.center pos field) cell sprites ∧
    shown = (if s.hovered = some pos then [.highlight (s.projector.corners pos field)] else []) ++ sprites

theorem Scalar.clamp_mem {low high : K} (h : low ≤ high) (x : K) :
    low ≤ Scalar.clamp low high x ∧ Scalar.clamp low high x ≤ high := by
  unfold Scalar.clamp
  split
  · exact ⟨le_refl _, h⟩
  · next hlow =>
    split
    · exact ⟨h, le_refl _⟩
    · next hhigh => exact ⟨not_lt.mp hlow, not_lt.mp hhigh⟩

theorem CropScale.standard_size_mem (scale depth maturity : K) :
    32 ≤ (CropScale.standard.size scale depth maturity : K) ∧ CropScale.standard.size scale depth maturity ≤ 64 := by
  have hlow : (CropScale.standard : CropScale K).low = 32 := Scalar.literal_ofNat 32
  have hhigh : (CropScale.standard : CropScale K).high = 64 := Scalar.literal_ofNat 64
  have hbounds : (32 : K) ≤ 64 := by norm_num
  rw [CropScale.size, hlow, hhigh]
  exact Scalar.clamp_mem hbounds _

namespace Scene

variable (s : Scene K) (l : Layout K)

/-- The cells of the cached farm, row by row. -/
def plots : List (CellPos × Cell) :=
  s.projector.cells.filterMap fun pos => (s.cache.cell? pos.x pos.y).map fun cell => (pos, cell)

theorem drawCrop_shows (scale : K) (p : ProjectedPoint K) {cell : Cell} {crop : Crop} (h : cell.crop = some crop) :
    ShowsCrop p cell (drawCrop .standard scale p cell crop) := by
  obtain ⟨hlow, hhigh⟩ := CropScale.standard_size_mem scale p.depth (Scalar.ofDouble cell.maturity)
  unfold drawCrop Cell.isMature
  by_cases hm : 1 ≤ cell.maturity
  · simp only [hm, decide_true, if_true]
    exact .grown crop _ _ _ _ h hm hlow hhigh
  · simp only [hm, decide_false, Bool.false_eq_true, if_false]
    exact .growing crop _ h hm hlow hhigh

theorem drawCell_shows {pos : CellPos} {cell : Cell} (h : s.cache.cell? pos.x pos.y = some cell) :
    ShowsCell s l pos cell (s.drawCell .standard l (s.projector.resolve l.rect) pos) := by
  rw [drawCell, h]
  cases hcrop : cell.crop with
  | none => exact ⟨[], .bare hcrop, by simp [hcrop]⟩
  | some crop => exact ⟨_, drawCrop_shows l.scale _ hcrop, by simp [hcrop]⟩

theorem mem_plots_iff (hsize : s.cache.gridSize = s.projector.grid) (hfits : s.cache.farm.Fits s.cache.gridSize)
    (pos : CellPos) (cell : Cell) : (pos, cell) ∈ s.plots ↔ s.cache.farm.cell? pos.x pos.y = some cell := by
  simp only [plots, List.mem_filterMap, Option.map_eq_some_iff, Prod.mk.injEq]
  constructor
  · rintro ⟨_, -, _, hcell, rfl, rfl⟩
    exact hcell
  · intro hcell
    refine ⟨pos, (s.projector.mem_cells pos).mpr ?_, cell, hcell, rfl, rfl⟩
    exact hsize ▸ hfits.cell?_lt hcell

theorem plots_pairwise : s.plots.Pairwise fun p q => p.1.Before q.1 := by
  rw [plots, List.pairwise_filterMap]
  refine s.projector.cells_pairwise.imp fun {pos pos'} hbefore p hp q hq => ?_
  obtain ⟨cell, -, rfl⟩ := Option.map_eq_some_iff.mp hp
  obtain ⟨cell', -, rfl⟩ := Option.map_eq_some_iff.mp hq
  exact hbefore

/-- Cells that the farm does not have are passed over. -/
theorem flatMap_drawCell (field : Corners K) : s.projector.cells.flatMap (s.drawCell .standard l field) =
    (s.plots.map fun p => s.drawCell .standard l field p.1).flatten := by
  refine flatMap_eq_flatten_filterMap (fun pos hnone => ?_) (fun pos p hsome => ?_) _
  · rw [drawCell, Option.map_eq_none_iff.mp hnone]
  · obtain ⟨cell, -, rfl⟩ := Option.map_eq_some_iff.mp hsome
    rfl

/-- **The farm under the labels**, cell by cell. -/
theorem drawFarm_eq : s.drawFarm .standard l = .background l.rect ::
    (s.plots.map fun p => s.drawCell .standard l (s.projector.resolve l.rect) p.1).flatten := by
  rw [drawFarm, ← flatMap_drawCell]
  cases hgrid : s.cache.hasGrid with
  | true => rfl
  | false =>
    -- a farm without a grid has no cells
    have hempty : s.cache.farm.grid = [] := by simpa [FarmCache.hasGrid] using hgrid
    have hnone (pos : CellPos) : s.cache.cell? pos.x pos.y = none := by
      simp [FarmCache.cell?, Farm.cell?, hempty]
    simp [drawCell, hnone]

end Scene

/-! ## Outlines -/

def DrawCommand.isHighlight : DrawCommand K → Bool
  | .highlight _ => true
  | _ => false

theorem ShowsCrop.countP_highlight {p : ProjectedPoint K} {cell : Cell} {shown : List (DrawCommand K)}
    (h : ShowsCrop p cell shown) : shown.countP DrawCommand.isHighlight = 0 := by
  cases h <;> rfl

theorem ShowsCell.countP_highlight {s : Scene K} {l : Layout K} {pos : CellPos} {cell : Cell}
    {shown : List (DrawCommand K)} (h : ShowsCell s l pos cell shown) :
    shown.countP DrawCommand.isHighlight = if s.hovered = some pos then 1 else 0 := by
  obtain ⟨sprites, hcrop, rfl⟩ := h
  rw [List.countP_append, hcrop.countP_highlight]
  split <;> rfl

theorem countP_highlight_flatten {L : Type} {hovered : Option CellPos} {draw : CellPos × Cell → List (DrawCommand L)} :
    ∀ {plots : List (CellPos × Cell)},
      (∀ p ∈ plots, (draw p).countP DrawCommand.isHighlight = if hovered = some p.1 then 1 else 0) →
      (plots.map draw).flatten.countP DrawCommand.isHighlight =
        (plots.map Prod.fst).countP fun pos => hovered = some pos
  | [], _ => rfl
  | p :: plots, h => by
    obtain ⟨hp, hplots⟩ := List.forall_mem_cons.mp h
    rw [List.map_cons, List.flatten_cons, List.countP_append, hp, countP_highlight_flatten hplots, List.map_cons,
      List.countP_cons, Nat.add_comm]
    simp

/-- One cell at most is hovered, and it is outlined if the farm has it. -/
theorem Scene.countP_highlight (s : Scene K) (l : Layout K) (hsize : s.cache.gridSize = s.projector.grid)
    (hfits : s.cache.farm.Fits s.cache.gridSize) : (s.drawFarm .standard l).countP DrawCommand.isHighlight =
      if (s.hovered.bind fun pos => s.cache.farm.cell? pos.x pos.y).isSome then 1 else 0 := by
  have hplot (p : CellPos × Cell) (hp : p ∈ s.plots) :
      (s.drawCell .standard l (s.projector.resolve l.rect) p.1).countP DrawCommand.isHighlight =
        if s.hovered = some p.1 then 1 else 0 :=
    (s.drawCell_shows l ((s.mem_plots_iff hsize hfits p.1 p.2).mp hp)).countP_highlight
  have hnodup : (s.plots.map Prod.fst).Nodup := by
    rw [List.Nodup, List.pairwise_map]
    exact s.plots_pairwise.imp fun hbefore heq => by
      rw [heq] at hbefore
      exact hbefore.asymm hbefore
  rw [drawFarm_eq, List.countP_cons_of_neg (by simp [DrawCommand.isHighlight]), countP_highlight_flatten hplot]
  cases hhovered : s.hovered with
  | none => simp
  | some pos =>
    have hmem : pos ∈ s.plots.map Prod.fst ↔ (s.cache.farm.cell? pos.x pos.y).isSome = true := by
      simp [Option.isSome_iff_exists, s.mem_plots_iff hsize hfits]
    have hsame (q : CellPos) : decide (some pos = some q) = (q == pos) := by
      rw [Bool.eq_iff_iff]
      simp only [decide_eq_true_eq, Option.some.injEq, beq_iff_eq]
      exact eq_comm
    simp only [hsame, Option.bind_some, ← hmem]
    exact hnodup.count

theorem Scene.countP_highlight_labels (labels : List (FloatingText K)) :
    (labels.map drawLabel).countP DrawCommand.isHighlight = 0 := by
  simp [List.countP_eq_zero, drawLabel, DrawCommand.isHighlight]

/-! ## Every frame -/

/-- Nothing moves the projector. -/
theorem Change.projector {a : App K} {i : Input K} {scene : Scene K} (h : Change a i scene)
    (hi : ∀ scene, i ≠ .scene scene) : scene.projector = a.scene.projector := by
  cases h with
  | replace => exact absurd rfl (hi _)
  | _ => rfl

theorem Leads.projector {s : Settings K} {turns : List (Turn K)} {a : App K}
    (h : Leads KeepsScene [] (.ofSettings s) turns a) : a.scene.projector = s.projector :=
  h.invariant (I := fun _ c => c.scene.projector = s.projector) rfl fun {_ c i} hc hi =>
    ((c.answer_change i).projector hi).trans hc

/-- **A frame shows the cached farm.** After any run, a frame is cleared first.
If the background has its place, it follows, and then each cell that the farm
has, once and row by row, as `ShowsCell` says; only one of them is outlined, and
only if it is hovered. At the end stand the labels that are alive, oldest first,
each as a text at its place. -/
theorem frame_shows_farm {s : Settings K} {turns : List (Turn K)} {a : App K}
    (h : Leads KeepsScene [] (.ofSettings s) turns a) (now : K) (viewport : Size K) (image : Option (Size K)) :
    let b := a.frame now viewport image
    let farm := a.scene.cache.farm
    ∃ drawn, b.draw.commands = .clear viewport ::
        (drawn ++ (labelsOf none (turns ++ [⟨a, .frame now viewport image⟩])).map
          fun t => .label t.text t.x t.y t.alpha) ∧
      (b.scene.layout = none → drawn = []) ∧
      (∀ l, b.scene.layout = some l → ∃ plots shown,
        plots.Pairwise (fun p q : CellPos × Cell => p.1.Before q.1) ∧
        (∀ pos cell, (pos, cell) ∈ plots ↔ farm.cell? pos.x pos.y = some cell) ∧
        List.Forall₂ (fun p commands => ShowsCell b.scene l p.1 p.2 commands) plots shown ∧
        drawn = .background l.rect :: shown.flatten) ∧
      b.draw.commands.countP DrawCommand.isHighlight =
        if b.scene.layout.isSome ∧ (b.scene.hovered.bind fun pos => farm.cell? pos.x pos.y).isSome then 1 else 0 := by
  intro b farm
  obtain ⟨hgridSize, hfarm, -, -, -⟩ := h.written
  have hsize : b.scene.cache.gridSize = b.scene.projector.grid :=
    hgridSize.trans (congrArg Projector.grid h.projector).symm
  have hfits : b.scene.cache.farm.Fits b.scene.cache.gridSize := hgridSize ▸ hfarm
  have hfloats : Floats turns a := by simpa using (Floats.ofSettings s).leads h
  have hlabels : b.scene.overlay.labels = labelsOf none (turns ++ [⟨a, .frame now viewport image⟩]) :=
    (hfloats.answer (i := .frame now viewport image) (by simp [KeepsScene])).labels
  have hviewport : b.scene.viewport = viewport := rfl
  have hdraw : (fun t : FloatingText K => DrawCommand.label t.text t.x t.y t.alpha) = Scene.drawLabel := rfl
  rw [← hlabels, hdraw]
  cases hlayout : b.scene.layout with
  | none =>
    have hcommands : b.draw.commands = .clear viewport :: ([] ++ b.scene.overlay.labels.map Scene.drawLabel) := by
      simp [App.draw, Scene.draw, hlayout, hviewport]
    refine ⟨[], hcommands, fun _ => rfl, fun l hl => absurd hl.symm (Option.some_ne_none l), ?_⟩
    rw [hcommands, List.nil_append, List.countP_cons_of_neg Bool.false_ne_true, Scene.countP_highlight_labels]
    rfl
  | some l =>
    have hcommands : b.draw.commands =
        .clear viewport :: (b.scene.drawFarm .standard l ++ b.scene.overlay.labels.map Scene.drawLabel) := by
      simp [App.draw, Scene.draw, hlayout, hviewport]
    refine ⟨b.scene.drawFarm .standard l, hcommands, fun hl => absurd hl (Option.some_ne_none l), fun l' hl => ?_, ?_⟩
    · cases hl
      refine ⟨b.scene.plots, _, b.scene.plots_pairwise, b.scene.mem_plots_iff hsize hfits, ?_, b.scene.drawFarm_eq l⟩
      rw [List.forall₂_map_right_iff, List.forall₂_same]
      exact fun p hp => b.scene.drawCell_shows l ((b.scene.mem_plots_iff hsize hfits p.1 p.2).mp hp)
    · rw [hcommands, List.countP_cons_of_neg Bool.false_ne_true, List.countP_append, Scene.countP_highlight_labels,
        b.scene.countP_highlight l hsize hfits]
      simp only [Option.isSome_some, true_and, Nat.add_zero]
      rfl

/-- A ripe crop, and a bare cell in the other corner. -/
def ripeFarm : Farm := ⟨some 10, none, [[some ⟨some .wheat, 1, 0, 0⟩, none], [none, some ⟨none, 0, 0, 0⟩]]⟩

/-- The pointer is over the bare cell, and the gold of the ripe one has just been counted. -/
def pointedInputs : List (Input Rat) :=
  [.frame 0 ⟨100, 100⟩ (some ⟨100, 100⟩), .resync ripeFarm, .toggleRun "till()", .message (.event ⟨1, 0, 0, 25⟩),
    .pointerMoved ⟨140, 140⟩]

theorem frame_shows_farm_hovered :
    let picture : Size Rat := ⟨100, 100⟩
    let a := ExactFarm.client.after pointedInputs
    let b := a.frame 50 picture (some picture)
    b.draw.commands = [.clear ⟨100, 100⟩, .background ⟨0, 0, 100, 100⟩, .glyph "🌾" 35 20 (231 / 5),
        .glyph "🟢" (249 / 5) (26 / 5) (74 / 5),
        .highlight ⟨⟨100, 100⟩, ⟨200, 100⟩, ⟨200, 200⟩, ⟨100, 200⟩⟩, .label "+15 💰" 35 (-2) (19 / 20)] ∧
      b.draw.commands.countP DrawCommand.isHighlight = 1 ∧
      ∃ l plots shown, b.scene.layout = some l ∧
        b.draw.commands =
          .clear picture :: (.background l.rect :: shown.flatten ++ [.label "+15 💰" 35 (-2) (19 / 20)]) ∧
        plots.Pairwise (fun p q : CellPos × Cell => p.1.Before q.1) ∧
        (∀ pos cell, (pos, cell) ∈ plots ↔ ripeFarm.cell? pos.x pos.y = some cell) ∧
        List.Forall₂ (fun p commands => ShowsCell b.scene l p.1 p.2 commands) plots shown := by
  intro picture a b
  have hk : Allowed KeepsScene [] ExactFarm.client pointedInputs := by
    simp [pointedInputs, Allowed, KeepsScene]
  obtain ⟨drawn, hcommands, -, hlayout, hcount⟩ := frame_shows_farm hk.leads 50 picture (some picture)
  have hlabels : (labelsOf none (ExactFarm.client.turns pointedInputs ++
      [⟨a, .frame 50 picture (some picture)⟩])).map (fun t => DrawCommand.label t.text t.x t.y t.alpha) =
        [.label "+15 💰" 35 (-2) (19 / 20)] := by decide +kernel
  have hsome : b.scene.layout.isSome = true := by decide +kernel
  have hhovered : b.scene.hovered = some ⟨1, 1⟩ := by decide +kernel
  have hfarm : a.scene.cache.farm = { ripeFarm with gold := some 25 } := rfl
  have hcell (x y : Nat) : a.scene.cache.farm.cell? x y = ripeFarm.cell? x y := by rw [hfarm]; rfl
  obtain ⟨l, hl⟩ := Option.isSome_iff_exists.mp hsome
  obtain ⟨plots, shown, hordered, hplots, hshown, rfl⟩ := hlayout l hl
  refine ⟨by decide +kernel, hcount.trans ?_, l, plots, shown, hl, ?_, hordered, ?_, hshown⟩
  · have hbare : (ripeFarm.cell? 1 1).isSome = true := rfl
    exact if_pos ⟨hsome, by rw [hhovered, Option.bind_some, hcell]; exact hbare⟩
  · rw [hcommands, hlabels]
  · intro pos cell
    rw [hplots, hcell]

end FarmClient
