/-
What one input can do to the scene. Snapshots are accepted or refused by
their shape alone (`Farm.Fits`, `Farm.Refused`); an event that a running
session handles writes the gold and lets at most one label rise; a frame ages
the labels; everything else leaves farm and labels as they are. `Change` says
this once, and whatever holds of the scene along a run is derived from it.
-/
import FarmClient.Proofs.ClientRuns

namespace FarmClient

/-! ## Snapshots that fit -/

/-- The grid of a farm is empty, or it is a square of that many cells a side. -/
def Farm.Fits (size : Nat) (f : Farm) : Prop :=
  f.grid = [] ∨ f.grid.length = size ∧ ∀ row ∈ f.grid, row.length = size

/-- Why a farm does not fit. The rows are counted first, and of the rows that
are too short or too long the first one is named. -/
inductive Farm.Refused (size : Nat) (f : Farm) : SnapshotError → Prop
  | rowCount : f.grid ≠ [] → f.grid.length ≠ size → Refused size f (.rowCount size f.grid.length)
  | rowWidth (n : Nat) (row : List (Option Cell)) : f.grid.length = size → f.grid[n]? = some row →
      row.length ≠ size → (∀ m row', m < n → f.grid[m]? = some row' → row'.length = size) →
      Refused size f (.rowWidth n size row.length)

theorem FarmCache.badRow?_eq_some_iff {size n width : Nat} {grid : List (List (Option Cell))} :
    badRow? size grid = some (n, width) ↔ ∃ row, grid[n]? = some row ∧ row.length = width ∧ row.length ≠ size ∧
      ∀ m row', m < n → grid[m]? = some row' → row'.length = size := by
  simp only [badRow?, Option.map_eq_some_iff, List.find?_eq_some_iff_getElem, Prod.mk.injEq]
  constructor
  · rintro ⟨⟨row, k⟩, ⟨hw, i, hi, he, hb⟩, rfl, rfl⟩
    rw [List.getElem_zipIdx, Prod.mk.injEq, Nat.zero_add] at he
    obtain ⟨rfl, rfl⟩ := he
    have hi' : i < grid.length := by simpa using hi
    refine ⟨grid[i], List.getElem?_eq_getElem hi', rfl, by simpa using hw, fun m row' hm hr => ?_⟩
    obtain ⟨hm', rfl⟩ := List.getElem?_eq_some_iff.mp hr
    simpa using hb m hm
  · rintro ⟨row, hr, rfl, hw, hb⟩
    obtain ⟨hn, rfl⟩ := List.getElem?_eq_some_iff.mp hr
    refine ⟨(grid[n], n), ⟨by simpa using hw, n, by simpa using hn, by simp, fun m hm => ?_⟩, rfl, rfl⟩
    have hm' : m < grid.length := Nat.lt_trans hm hn
    simpa using hb m _ hm (List.getElem?_eq_getElem hm')

theorem FarmCache.badRow?_eq_none_iff {size : Nat} {grid : List (List (Option Cell))} :
    badRow? size grid = none ↔ ∀ row ∈ grid, row.length = size := by
  simp only [badRow?, Option.map_eq_none_iff, List.find?_eq_none]
  constructor
  · intro h row hr
    obtain ⟨n, hn, rfl⟩ := List.getElem_of_mem hr
    have hm : (grid[n], n) ∈ grid.zipIdx := List.mk_mem_zipIdx_iff_getElem?.mpr (List.getElem?_eq_getElem hn)
    simpa using h _ hm
  · rintro h ⟨row, n⟩ hm
    have hr := List.mk_mem_zipIdx_iff_getElem?.mp hm
    simpa using h row (List.mem_of_getElem? hr)

theorem FarmCache.fault?_eq_none_iff {size : Nat} {f : Farm} : fault? size f.grid = none ↔ f.Fits size := by
  unfold fault? Farm.Fits
  by_cases hg : f.grid = []
  · simp [hg]
  · by_cases hl : f.grid.length = size
    · simp [hg, hl, badRow?_eq_none_iff]
    · simp [hg, hl]

theorem FarmCache.fault?_eq_some_iff {size : Nat} {f : Farm} {e : SnapshotError} :
    fault? size f.grid = some e ↔ f.Refused size e := by
  unfold fault?
  constructor
  · intro h
    split at h
    · cases h
    split at h
    · next hg hl =>
      obtain rfl := Option.some.inj h
      exact .rowCount (by simpa using hg) hl
    · next hl =>
      obtain ⟨⟨n, width⟩, hb, rfl⟩ := Option.map_eq_some_iff.mp h
      obtain ⟨row, hr, rfl, hw, hf⟩ := badRow?_eq_some_iff.mp hb
      exact .rowWidth n row (by simpa using hl) hr hw hf
  · intro h
    cases h with
    | rowCount hg hl => simp [hg, hl]
    | rowWidth n row hl hr hw hf =>
      have hg : f.grid ≠ [] := List.ne_nil_of_mem (List.mem_of_getElem? hr)
      have hb := badRow?_eq_some_iff.mpr ⟨row, hr, rfl, hw, hf⟩
      simp [hg, hl, hb]

/-- A farm that does not fit is refused for a reason. -/
theorem Farm.not_fits_iff {size : Nat} {f : Farm} : ¬ f.Fits size ↔ ∃ e, f.Refused size e := by
  rw [← FarmCache.fault?_eq_none_iff]
  cases h : FarmCache.fault? size f.grid with
  | none => simp [← FarmCache.fault?_eq_some_iff, h]
  | some e => simp [← FarmCache.fault?_eq_some_iff, h]

instance (size : Nat) (f : Farm) : Decidable (f.Fits size) :=
  decidable_of_iff (FarmCache.fault? size f.grid = none) FarmCache.fault?_eq_none_iff

variable {K : Type} [Scalar K]

/-- The scene with another farm. -/
def Scene.withFarm (s : Scene K) (farm : Farm) : Scene K := { s with cache := { s.cache with farm } }

theorem Scene.apply_of_fits {s : Scene K} {farm : Farm} (h : farm.Fits s.cache.gridSize) :
    s.apply farm = .ok (s.withFarm farm) := by
  simp [Scene.apply, FarmCache.apply, FarmCache.fault?_eq_none_iff.mpr h, Except.map, Scene.withFarm]

theorem Scene.apply_of_refused {s : Scene K} {farm : Farm} {e : SnapshotError}
    (h : farm.Refused s.cache.gridSize e) : s.apply farm = .error e := by
  simp [Scene.apply, FarmCache.apply, FarmCache.fault?_eq_some_iff.mpr h, Except.map]

/-! ## Events -/

/-- The label that rises when an event at a cell brings a new total of gold. -/
def Scene.newLabel? (s : Scene K) (x y : Int) (gold : Int64) : Option (FloatingText K) :=
  match s.cache.gold?, s.field? with
  | some known, some field =>
    if gold ≠ known ∧ 0 ≤ x ∧ 0 ≤ y then
      let p := s.projector.center ⟨x.toNat, y.toNat⟩ field
      some ⟨p.x, p.y - labelLift, goldLabel (gold - known).toInt,
        Scalar.min Overlay.fullLife Overlay.fullLife, labelSpeed⟩
    else none
  | _, _ => none

/-- The scene with another total of gold, and with labels more. -/
def Scene.withGold (s : Scene K) (gold : Int64) (labels : List (FloatingText K)) : Scene K :=
  { s.withFarm { s.cache.farm with gold := some gold } with overlay := ⟨s.overlay.labels ++ labels⟩ }

theorem Scene.recordGold_eq (s : Scene K) (x y : Int) (gold : Int64) :
    (s.recordGold x y gold).1 = s.withGold gold (s.newLabel? x y gold).toList := by
  have hd (known : Int64) : (gold - known).toInt = 0 ↔ gold = known := by
    rw [← Int64.toInt_zero, Int64.toInt_inj, Int64.sub_eq_iff_eq_add, Int64.zero_add]
  unfold Scene.newLabel? Scene.recordGold FarmCache.recordGold FarmCache.gold? Scene.withGold Scene.withFarm
    Scene.field?
  cases hg : s.cache.farm.gold with
  | none => simp
  | some known =>
    by_cases hk : gold = known
    · cases s.layout <;> simp [hk, Option.filter]
    · by_cases hp : 0 ≤ x ∧ 0 ≤ y
      · cases s.layout <;> simp [hk, hp, hd, Option.filter, Overlay.spawn, -Int64.toInt_sub]
      · cases s.layout <;> simp [hk, hp, hd, Option.filter, -Int64.toInt_sub]

/-! ## What one input does -/

/-- The snapshot an input brings. -/
def Input.snapshot? (i : Input K) : Option Farm :=
  match i with
  | .resync farm => some farm
  | _ =>
    match i.message? with
    | some (.farmState farm) => some farm
    | _ => none

/-- The host's time, if the input is a frame. -/
def Input.stamp? : Input K → Option K
  | .frame now _ _ => some now
  | _ => none

/-- An input that has nothing for the farm and the labels: an event without a
session, a snapshot that does not fit, or neither. -/
structure Input.Idles (a : App K) (i : Input K) : Prop where
  event : ∀ e, i.message? = some (.event e) → a.controller.isActive = false
  snapshot : ∀ farm, i.snapshot? = some farm → ¬ farm.Fits a.scene.cache.gridSize
  stamp : i.stamp? = none

/-- **What an input can do** to the scene. -/
inductive Change (a : App K) : Input K → Scene K → Prop
  | event {i} (e : ExecEvent) : i.message? = some (.event e) → a.controller.isActive = true →
      Change a i (a.scene.withGold e.gold (a.scene.newLabel? e.x.toInt e.y.toInt e.gold).toList)
  | snapshot {i} (farm : Farm) : i.snapshot? = some farm → farm.Fits a.scene.cache.gridSize →
      Change a i (a.scene.withFarm farm)
  | frame (now : K) (viewport : Size K) (image : Option (Size K)) :
      Change a (.frame now viewport image) ((a.scene.advance (a.clock.elapsed now)).relayout viewport image)
  | pointerMoved (p : Point K) : Change a (.pointerMoved p) (a.scene.pointerMoved p)
  | pointerLeft : Change a .pointerLeft a.scene.pointerLeft
  | replace (scene : Scene K) : Change a (.scene scene) scene
  | rest {i} : i.Idles a → Change a i a.scene

theorem Input.Idles.of {a : App K} {i : Input K} (hm : i.message? = none) (hr : ∀ farm, i ≠ .resync farm)
    (hs : i.stamp? = none) : i.Idles a := by
  refine ⟨fun e he => ?_, fun farm hf => ?_, hs⟩
  · rw [hm] at he
    cases he
  · unfold Input.snapshot? at hf
    split at hf
    · exact absurd rfl (hr _)
    · simp [hm] at hf

theorem Input.snapshot?_of_message {i : Input K} {m : ServerMessage} (hi : i.message? = some m) :
    i.snapshot? = match m with
      | .farmState farm => some farm
      | _ => none := by
  cases i with
  | text | message => simp only [Input.snapshot?, hi]; cases m <;> rfl
  | _ => cases hi

theorem Input.stamp?_of_message {i : Input K} {m : ServerMessage} (hi : i.message? = some m) :
    i.stamp? = none := by
  cases i with
  | text | message => rfl
  | _ => cases hi

theorem Input.message?_of_snapshot {i : Input K} {farm : Farm} (hi : i.snapshot? = some farm) (e : ExecEvent) :
    i.message? ≠ some (.event e) := by
  intro he
  rw [Input.snapshot?_of_message he] at hi
  cases hi

theorem Input.stamp?_of_snapshot {i : Input K} {farm : Farm} (hi : i.snapshot? = some farm) : i.stamp? = none := by
  cases i with
  | frame => cases hi
  | _ => rfl

/-! ### Snapshots -/

theorem App.handle_of_fits {a : App K} {farm : Farm} (h : farm.Fits a.scene.cache.gridSize) :
    a.handle (.farmState farm) = ({ a with scene := a.scene.withFarm farm }, []) := by
  simp only [App.handle, Scene.apply_of_fits h]

theorem App.handle_of_refused {a : App K} {farm : Farm} {e : SnapshotError}
    (h : farm.Refused a.scene.cache.gridSize e) :
    a.handle (.farmState farm) = (a, [.log ("[error] snapshot: " ++ e.text)]) := by
  simp only [App.handle, Scene.apply_of_refused h]

theorem App.resync_of_fits {a : App K} {farm : Farm} (h : farm.Fits a.scene.cache.gridSize) :
    a.resync farm = .ok { a with scene := a.scene.withFarm farm, controller := a.controller.resynced } := by
  simp [App.resync, Scene.apply_of_fits h, Except.map]

theorem App.resync_of_refused {a : App K} {farm : Farm} {e : SnapshotError}
    (h : farm.Refused a.scene.cache.gridSize e) : a.resync farm = .error e := by
  simp [App.resync, Scene.apply_of_refused h, Except.map]

theorem App.resyncIfFits_of_refused {a : App K} {farm : Farm} {e : SnapshotError}
    (h : farm.Refused a.scene.cache.gridSize e) : a.resyncIfFits farm = a := by
  simp only [App.resyncIfFits, App.resync_of_refused h]

/-! ### Every input -/

theorem App.handle_change (a : App K) {i : Input K} {m : ServerMessage} (hi : i.message? = some m) :
    Change a i (a.handle m).1.scene := by
  have hs := Input.stamp?_of_message hi
  have hf := Input.snapshot?_of_message hi
  cases m with
  | event e =>
    simp only [App.handle]
    split
    · next ha =>
      have h := Change.event e hi ha
      rw [← Scene.recordGold_eq] at h
      exact h
    · next ha =>
      exact .rest ⟨fun _ _ => by simpa using ha, by simp [hf], hs⟩
  | farmState farm =>
    by_cases hfit : farm.Fits a.scene.cache.gridSize
    · rw [App.handle_of_fits hfit]
      exact .snapshot farm hf hfit
    · obtain ⟨e, he⟩ := Farm.not_fits_iff.mp hfit
      rw [App.handle_of_refused he]
      refine .rest ⟨by simp [hi], fun farm' h => ?_, hs⟩
      rw [hf] at h
      cases h
      exact hfit
  | done r => exact .rest ⟨by simp [hi], by simp [hf], hs⟩
  | error text line => exact .rest ⟨by simp [hi], by simp [hf], hs⟩

/-- Every input makes one of the changes. -/
theorem App.answer_change (a : App K) (i : Input K) : Change a i (a.answer i).1.scene := by
  cases i with
  | text t =>
    cases hm : (Input.text t : Input K).message? with
    | some m =>
      rw [a.answer_of_message hm]
      exact a.handle_change hm
    | none =>
      have hi : (Input.text t : Input K).Idles a := .of hm (by simp) rfl
      cases hr : ServerMessage.read t.toList with
      | error e => simpa [App.answer, App.receive, hr] using Change.rest hi
      | ok m => simp [Input.message?, hr, Except.toOption] at hm
  | message m => exact a.handle_change rfl
  | resync farm =>
    by_cases hfit : farm.Fits a.scene.cache.gridSize
    · simp only [App.answer, App.resyncIfFits, App.resync_of_fits hfit]
      exact .snapshot farm rfl hfit
    · obtain ⟨e, he⟩ := Farm.not_fits_iff.mp hfit
      simp only [App.answer, App.resyncIfFits_of_refused he]
      refine .rest ⟨by simp [Input.message?], fun farm' h => ?_, rfl⟩
      cases h
      exact hfit
  | frame now viewport image => exact .frame now viewport image
  | pointerMoved p => exact .pointerMoved p
  | pointerLeft => exact .pointerLeft
  | scene scene => exact .replace scene
  | toggleRun | step | abort | elapsed | connected | connectionLost | resynced =>
    exact .rest (.of rfl (by simp) rfl)

/-- The clock ticks at frames alone. -/
theorem App.answer_clock (a : App K) (i : Input K) :
    (a.answer i).1.clock = match i.stamp? with
      | some now => ⟨some now⟩
      | none => a.clock := by
  have hh (m : ServerMessage) : (a.handle m).1.clock = a.clock := by
    cases m with
    | event | farmState => simp only [App.handle]; split <;> rfl
    | done | error => rfl
  cases i with
  | text t =>
    simp only [App.answer, App.receive, Input.stamp?]
    split
    · exact hh _
    · rfl
  | message m => exact hh m
  | resync farm =>
    simp only [App.answer, App.resyncIfFits, App.resync, Input.stamp?]
    cases a.scene.apply farm <;> rfl
  | _ => rfl

/-! ## Runs that keep their scene -/

/-- The host leaves the scene to the client. -/
def KeepsScene (_ : List (Turn K)) (_ : App K) (i : Input K) : Prop := ∀ scene, i ≠ .scene scene

end FarmClient
