/-
The farm a client knows, told by its history: grid and time are those of the
latest snapshot that fits, and the gold is what the latest such snapshot or
the latest event of a running session said, whichever came later. Nothing
else writes, and a snapshot that does not fit is refused whole, in any state
of the controller.
-/
import FarmClient.Proofs.ExactFarm
import FarmClient.Proofs.SceneChanges

namespace FarmClient

variable {K : Type} [Scalar K]

/-- The snapshot that a turn puts in the place of the farm. -/
def Turn.snapshot? (size : Nat) (t : Turn K) : Option Farm := t.input.snapshot?.filter (·.Fits size)

/-- The gold a turn writes: what its snapshot says of it, be it nothing, or
what an event of a running session says. -/
def Turn.gold? (size : Nat) (t : Turn K) : Option (Option Int64) :=
  match t.input.message? with
  | some (.event e) => if t.before.controller.isActive then some (some e.gold) else none
  | _ => (t.snapshot? size).map (·.gold)

/-- What was written last in some turns. -/
def latest? {α : Type} (write? : Turn K → Option α) (turns : List (Turn K)) : Option α :=
  (turns.filterMap write?).getLast?

@[simp] theorem latest?_nil {α : Type} (write? : Turn K → Option α) : latest? write? [] = none := rfl

theorem latest?_snoc_some {α : Type} {write? : Turn K → Option α} {t : Turn K} {x : α} (turns : List (Turn K))
    (h : write? t = some x) : latest? write? (turns ++ [t]) = some x := by
  simp [latest?, h]

theorem latest?_snoc_none {α : Type} {write? : Turn K → Option α} {t : Turn K} (turns : List (Turn K))
    (h : write? t = none) : latest? write? (turns ++ [t]) = latest? write? turns := by
  simp [latest?, h]

/-- The farm as the turns so far have written it. -/
structure Written (size : Nat) (turns : List (Turn K)) (c : FarmCache) : Prop where
  gridSize : c.gridSize = size
  fits : c.farm.Fits size
  grid : c.farm.grid = ((latest? (Turn.snapshot? size) turns).map Farm.grid).getD []
  time : c.farm.time = (latest? (Turn.snapshot? size) turns).bind Farm.time
  gold : c.farm.gold = (latest? (Turn.gold? size) turns).join

theorem Written.empty (size : Nat) : Written (K := K) size [] (.empty size) :=
  ⟨rfl, .inl rfl, rfl, rfl, rfl⟩

namespace Written

variable {size : Nat} {turns : List (Turn K)} {c : FarmCache} {t : Turn K}

/-- A turn that writes nothing. -/
theorem keep (h : Written size turns c) (hs : t.snapshot? size = none) (hg : t.gold? size = none) :
    Written size (turns ++ [t]) c := by
  refine ⟨h.gridSize, h.fits, ?_, ?_, ?_⟩
  · rw [latest?_snoc_none turns hs]
    exact h.grid
  · rw [latest?_snoc_none turns hs]
    exact h.time
  · rw [latest?_snoc_none turns hg]
    exact h.gold

/-- A turn that writes the gold alone. -/
theorem record (h : Written size turns c) {gold : Int64} (hs : t.snapshot? size = none)
    (hg : t.gold? size = some (some gold)) :
    Written size (turns ++ [t]) { c with farm := { c.farm with gold := some gold } } := by
  refine ⟨h.gridSize, h.fits, ?_, ?_, ?_⟩
  · rw [latest?_snoc_none turns hs]
    exact h.grid
  · rw [latest?_snoc_none turns hs]
    exact h.time
  · rw [latest?_snoc_some turns hg]
    rfl

/-- A turn that writes the whole farm. -/
theorem replace (h : Written size turns c) {farm : Farm} (hf : farm.Fits size)
    (hs : t.snapshot? size = some farm) (hg : t.gold? size = some farm.gold) :
    Written size (turns ++ [t]) { c with farm } := by
  refine ⟨h.gridSize, hf, ?_, ?_, ?_⟩
  · rw [latest?_snoc_some turns hs]
    rfl
  · rw [latest?_snoc_some turns hs]
    rfl
  · rw [latest?_snoc_some turns hg]
    rfl

end Written

/-! ## What the changes of the scene write -/

theorem Turn.snapshot?_of_none {t : Turn K} (size : Nat) (h : t.input.snapshot? = none) :
    t.snapshot? size = none := by
  rw [Turn.snapshot?, h]
  rfl

theorem Turn.snapshot?_of_fits {t : Turn K} {size : Nat} {farm : Farm} (h : t.input.snapshot? = some farm)
    (hf : farm.Fits size) : t.snapshot? size = some farm := by
  simp [Turn.snapshot?, h, hf]

/-- Without an event a turn writes the gold of its snapshot. -/
theorem Turn.gold?_of_no_event {t : Turn K} (size : Nat) (h : ∀ e, t.input.message? ≠ some (.event e)) :
    t.gold? size = (t.snapshot? size).map (·.gold) := by
  unfold Turn.gold?
  split
  · next e he => exact absurd he (h e)
  · rfl

theorem Input.Idles.writes {a : App K} {i : Input K} (h : i.Idles a) :
    (⟨a, i⟩ : Turn K).snapshot? a.scene.cache.gridSize = none ∧
      (⟨a, i⟩ : Turn K).gold? a.scene.cache.gridSize = none := by
  have hs : (⟨a, i⟩ : Turn K).snapshot? a.scene.cache.gridSize = none := by
    simp only [Turn.snapshot?, Option.filter_eq_none_iff, decide_eq_true_eq]
    exact h.snapshot
  refine ⟨hs, ?_⟩
  unfold Turn.gold?
  split
  · next e he => simp [h.event e he]
  · rw [hs]
    rfl

/-- **One change of the scene** writes what its turn says. -/
theorem Written.change {size : Nat} {turns : List (Turn K)} {a : App K} {i : Input K} {s : Scene K}
    (h : Written size turns a.scene.cache) (hc : Change a i s) (hi : ∀ scene, i ≠ .scene scene) :
    Written size (turns ++ [⟨a, i⟩]) s.cache := by
  have hquiet (hm : i.message? = none) (hr : ∀ farm, i ≠ .resync farm) :
      (⟨a, i⟩ : Turn K).snapshot? size = none ∧ (⟨a, i⟩ : Turn K).gold? size = none := by
    have hs : i.snapshot? = none := by
      cases i with
      | resync farm => exact absurd rfl (hr farm)
      | _ => simp [Input.snapshot?, hm]
    have hn := Turn.snapshot?_of_none (t := ⟨a, i⟩) size hs
    refine ⟨hn, ?_⟩
    rw [Turn.gold?_of_no_event size (by simp [hm]), hn]
    rfl
  cases hc with
  | event e he ha =>
    have hs : i.snapshot? = none := Input.snapshot?_of_message he
    exact h.record (Turn.snapshot?_of_none size hs) (by simp [Turn.gold?, he, ha])
  | snapshot farm hf hfit =>
    rw [h.gridSize] at hfit
    have hs := Turn.snapshot?_of_fits (t := ⟨a, i⟩) hf hfit
    refine h.replace hfit hs ?_
    rw [Turn.gold?_of_no_event size (Input.message?_of_snapshot hf), hs]
    rfl
  | frame | pointerMoved | pointerLeft =>
    obtain ⟨hs, hg⟩ := hquiet rfl (by simp)
    exact h.keep hs hg
  | replace => exact absurd rfl (hi _)
  | rest hidle =>
    obtain ⟨hs, hg⟩ := hidle.writes
    rw [h.gridSize] at hs hg
    exact h.keep hs hg

theorem Leads.written {s : Settings K} {turns : List (Turn K)} {b : App K}
    (h : Leads KeepsScene [] (.ofSettings s) turns b) : Written s.projector.grid turns b.scene.cache := by
  have hi := h.invariant (I := fun turns c => Written s.projector.grid turns c.scene.cache) (.empty _)
    fun {turns c i} hw hk => hw.change (c.answer_change i) hk
  simpa using hi

/-! ## The law -/

/-- **The last writer counts.** A client's grid is empty or has the client's
size. Grid and time are those of the latest snapshot that fits, the gold is
what the latest snapshot that fits or event of a session said. In any state of
the controller a snapshot is applied if it fits, and else refused for its
reason, and nothing is changed. -/
theorem farm_last_written {s : Settings K} {turns : List (Turn K)} {b : App K} {size : Nat}
    (hg : s.projector.grid = size) (h : Leads KeepsScene [] (.ofSettings s) turns b) :
    b.scene.cache.farm.Fits size ∧
      b.scene.cache.farm.grid = ((latest? (Turn.snapshot? size) turns).map Farm.grid).getD [] ∧
      b.scene.cache.farm.time = (latest? (Turn.snapshot? size) turns).bind Farm.time ∧
      b.scene.cache.farm.gold = (latest? (Turn.gold? size) turns).join ∧
      (∀ f : Farm, ¬ f.Fits size ↔ ∃ e, f.Refused size e) ∧
      (∀ f : Farm, f.Fits size →
        b.resync f = .ok { b with scene := b.scene.withFarm f, controller := b.controller.resynced } ∧
          ∀ i, i.message? = some (.farmState f) → b.answer i = ({ b with scene := b.scene.withFarm f }, [])) ∧
      ∀ (f : Farm) e, f.Refused size e →
        b.resync f = .error e ∧ b.resyncIfFits f = b ∧
          ∀ i, i.message? = some (.farmState f) → b.answer i = (b, [.log ("[error] snapshot: " ++ e.text)]) := by
  subst hg
  obtain ⟨hsize, hfits, hgrid, htime, hgold⟩ := h.written
  refine ⟨hfits, hgrid, htime, hgold, fun f => Farm.not_fits_iff, fun f hf => ?_, fun f e he => ?_⟩
  · rw [← hsize] at hf
    refine ⟨App.resync_of_fits hf, fun i hi => ?_⟩
    rw [b.answer_of_message hi, App.handle_of_fits hf]
  · rw [← hsize] at he
    refine ⟨App.resync_of_refused he, App.resyncIfFits_of_refused he, fun i hi => ?_⟩
    rw [b.answer_of_message hi, App.handle_of_refused he]

/-- The event without a session and the farm that is too small write nothing;
the event of the session writes the gold over that of the snapshot. -/
theorem farm_last_written_event_last :
    let farm : Farm := ⟨some 10, none, [[none, none], [none, none]]⟩
    let b := ExactFarm.client.after [.message (.event ⟨1, 0, 0, 7⟩), .resync farm, .toggleRun "till()",
      .message (.event ⟨1, 0, 0, 25⟩), .message (.farmState ⟨some 99, none, [[none]]⟩)]
    b.scene.cache.farm.grid = farm.grid ∧ b.scene.cache.farm.gold = some 25 ∧
      b.resync ⟨some 99, none, [[none]]⟩ = .error (.rowCount 2 1) := by
  intro farm b
  have hk : Allowed KeepsScene [] ExactFarm.client [.message (.event ⟨1, 0, 0, 7⟩), .resync farm,
      .toggleRun "till()", .message (.event ⟨1, 0, 0, 25⟩), .message (.farmState ⟨some 99, none, [[none]]⟩)] := by
    simp [Allowed, KeepsScene]
  obtain ⟨-, hgrid, -, hgold, -, -, hrefused⟩ := farm_last_written rfl hk.leads
  refine ⟨hgrid.trans ?_, hgold.trans ?_, (hrefused _ (.rowCount 2 1) (.rowCount ?_ ?_)).1⟩
  · rfl
  · rfl
  · simp
  · simp [ExactFarm.projector]

end FarmClient
