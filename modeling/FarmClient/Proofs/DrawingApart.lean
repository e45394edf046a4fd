/-
What is drawn has no say in what is sent. Frames and the pointer change neither
the controller nor the cached farm, and these two alone decide what every other
input is answered with (`SameCore.answer`): so inputs that only serve the
drawing may be put anywhere between the others. The other way round, commands,
tickets and the state of the connection leave the scene alone.
-/
import FarmClient.Proofs.SceneChanges

namespace FarmClient

variable {K : Type} [Scalar K]

/-- A frame, or something the pointer does. -/
def Input.draws : Input K → Bool
  | .pointerMoved _ | .pointerLeft | .frame .. => true
  | _ => false

/-- A command, a ticket, or news of the connection. -/
def Input.commands : Input K → Bool
  | .toggleRun _ | .step _ | .abort | .elapsed _ | .connected | .connectionLost => true
  | _ => false

/-- What a turn gives back: the actions and, for a farm that was fetched, whether it was refused. -/
structure Reply where
  actions : List Action
  resync : Option (Except SnapshotError Unit)

def Turn.reply (t : Turn K) : Reply where
  actions := t.actions
  resync :=
    match t.input with
    | .resync farm => some ((t.before.resync farm).map fun _ => ())
    | _ => none

/-- Two clients that differ in nothing but the drawing. -/
structure SameCore (a b : App K) : Prop where
  controller : a.controller = b.controller
  cache : a.scene.cache = b.scene.cache

namespace SameCore

variable {a b : App K}

theorem refl (a : App K) : SameCore a a := ⟨rfl, rfl⟩

theorem farm {farm : Farm} (h : SameCore a b) :
    (a.scene.withFarm farm).cache = (b.scene.withFarm farm).cache := by
  simp only [Scene.withFarm, h.cache]

/-- What is drawn changes nothing else. -/
theorem draw {i : Input K} (hi : i.draws = true) (h : SameCore a b) : SameCore (a.answer i).1 b := by
  cases i with
  | pointerMoved | pointerLeft | frame => exact ⟨h.controller, h.cache⟩
  | _ => cases hi

theorem control (h : SameCore a b) (f : Controller → Controller × List Action) :
    (a.control f).2 = (b.control f).2 ∧ SameCore (a.control f).1 (b.control f).1 := by
  simp only [App.control, h.controller]
  exact ⟨trivial, rfl, h.cache⟩

/-- A fetched farm is measured against the size that the cached one has. -/
theorem resync (h : SameCore a b) (farm : Farm) :
    (a.resync farm).map (fun _ => ()) = (b.resync farm).map (fun _ => ()) ∧
      SameCore (a.resyncIfFits farm) (b.resyncIfFits farm) := by
  by_cases hfit : farm.Fits a.scene.cache.gridSize
  · have hfit' : farm.Fits b.scene.cache.gridSize := h.cache ▸ hfit
    simp only [App.resyncIfFits, App.resync_of_fits hfit, App.resync_of_fits hfit']
    exact ⟨rfl, congrArg Controller.resynced h.controller, h.farm⟩
  · obtain ⟨e, he⟩ := Farm.not_fits_iff.mp hfit
    have he' : farm.Refused b.scene.cache.gridSize e := h.cache ▸ he
    rw [App.resyncIfFits_of_refused he, App.resyncIfFits_of_refused he', App.resync_of_refused he,
      App.resync_of_refused he']
    exact ⟨rfl, h⟩

/-- A label may rise or not, but the gold is taken over and the event passed on in any case. -/
theorem event (h : SameCore a b) (e : ExecEvent) :
    (a.handle (.event e)).2 = (b.handle (.event e)).2 ∧
      SameCore (a.handle (.event e)).1 (b.handle (.event e)).1 := by
  have hcache : (a.scene.recordGold e.x.toInt e.y.toInt e.gold).1.cache =
      (b.scene.recordGold e.x.toInt e.y.toInt e.gold).1.cache := by
    rw [Scene.recordGold_eq, Scene.recordGold_eq]
    simp only [Scene.withGold, Scene.withFarm, h.cache]
  have hcore : SameCore { a with scene := (a.scene.recordGold e.x.toInt e.y.toInt e.gold).1 }
      { b with scene := (b.scene.recordGold e.x.toInt e.y.toInt e.gold).1 } := ⟨h.controller, hcache⟩
  cases ha : a.controller.isActive with
  | true =>
    have hb : b.controller.isActive = true := h.controller ▸ ha
    simp only [App.handle, ha, hb, if_true]
    exact hcore.control _
  | false =>
    have hb : b.controller.isActive = false := h.controller ▸ ha
    simp only [App.handle, ha, hb, Bool.false_eq_true, if_false]
    exact ⟨trivial, h⟩

theorem handle (h : SameCore a b) (m : ServerMessage) :
    (a.handle m).2 = (b.handle m).2 ∧ SameCore (a.handle m).1 (b.handle m).1 := by
  cases m with
  | event e => exact h.event e
  | farmState farm =>
    by_cases hfit : farm.Fits a.scene.cache.gridSize
    · have hfit' : farm.Fits b.scene.cache.gridSize := h.cache ▸ hfit
      rw [App.handle_of_fits hfit, App.handle_of_fits hfit']
      exact ⟨rfl, h.controller, h.farm⟩
    · obtain ⟨e, he⟩ := Farm.not_fits_iff.mp hfit
      have he' : farm.Refused b.scene.cache.gridSize e := h.cache ▸ he
      rw [App.handle_of_refused he, App.handle_of_refused he']
      exact ⟨rfl, h⟩
  | done r => exact h.control _
  | error text line => exact ⟨rfl, h⟩

theorem answer (h : SameCore a b) {i : Input K} (hi : i.draws = false) :
    (a.answer i).2 = (b.answer i).2 ∧ SameCore (a.answer i).1 (b.answer i).1 := by
  cases i with
  | toggleRun | step | abort | elapsed | connected | connectionLost => exact h.control _
  | text text =>
    simp only [App.answer, App.receive]
    cases ServerMessage.read text.toList with
    | ok m => exact h.handle m
    | error e => exact ⟨rfl, h⟩
  | message m => exact h.handle m
  | resynced => exact ⟨rfl, congrArg Controller.resynced h.controller, h.cache⟩
  | resync farm => exact ⟨rfl, (h.resync farm).2⟩
  | scene scene => exact ⟨rfl, h.controller, rfl⟩
  | pointerMoved | pointerLeft | frame => cases hi

/-- **Controller and cached farm decide** what is given back. -/
theorem reply (h : SameCore a b) {i : Input K} (hi : i.draws = false) :
    Turn.reply ⟨a, i⟩ = Turn.reply ⟨b, i⟩ := by
  have hactions : (Turn.mk a i).actions = (Turn.mk b i).actions := (h.answer hi).1
  cases i with
  | resync farm => simp only [Turn.reply, hactions, (h.resync farm).1]
  | _ => simp only [Turn.reply, hactions]

/-- Drawing inputs may be left out of a run. -/
theorem run : ∀ {a b : App K} (is : List (Input K)), SameCore a b →
    ((a.turns is).filter (fun t => !t.input.draws)).map (fun t => (t.input, t.reply)) =
        (b.turns (is.filter fun i => !i.draws)).map (fun t => (t.input, t.reply)) ∧
      SameCore (a.after is) (b.after (is.filter fun i => !i.draws))
  | _, _, [], h => ⟨rfl, h⟩
  | a, b, i :: is, h => by
    cases hi : i.draws with
    | true =>
      obtain ⟨hreplies, hafter⟩ := run is (h.draw hi)
      simp only [App.turns, App.after, List.filter_cons, hi, Bool.not_true, Bool.false_eq_true, if_false]
      exact ⟨hreplies, hafter⟩
    | false =>
      obtain ⟨hreplies, hafter⟩ := run is (h.answer hi).2
      simp only [App.turns, App.after, List.filter_cons, hi, Bool.not_false, if_true, List.map_cons, h.reply hi]
      exact ⟨congrArg _ hreplies, hafter⟩

end SameCore

/-- A command leaves the scene alone. -/
theorem App.answer_scene (a : App K) {i : Input K} (hi : i.commands = true) : (a.answer i).1.scene = a.scene := by
  cases i with
  | toggleRun | step | abort | elapsed | connected | connectionLost => rfl
  | _ => cases hi

theorem App.after_commands (a : App K) (is : List (Input K)) :
    (a.after (is.filter Input.commands)).scene = a.scene := by
  induction is generalizing a with
  | nil => rfl
  | cons i is ih =>
    cases hi : i.commands with
    | true =>
      rw [List.filter_cons_of_pos hi, App.after, ih, a.answer_scene hi]
    | false => rw [List.filter_cons_of_neg (by simp [hi]), ih]

/-- **Drawing has no influence**: wherever frames and the pointer come between
the other inputs of a run, those are answered as without them, and leave the
same controller and the same farm. Commands, tickets and the connection in turn
leave the scene as it was: farm, labels, layout and hovered cell. -/
theorem drawing_apart (a : App K) (is : List (Input K)) :
    ((a.turns is).filter (fun t => !t.input.draws)).map (fun t => (t.input, t.reply)) =
        (a.turns (is.filter fun i => !i.draws)).map (fun t => (t.input, t.reply)) ∧
      (a.after is).controller = (a.after (is.filter fun i => !i.draws)).controller ∧
      (a.after is).scene.cache = (a.after (is.filter fun i => !i.draws)).scene.cache ∧
      (a.after (is.filter Input.commands)).scene = a.scene := by
  obtain ⟨hreplies, hcore⟩ := SameCore.run is (.refl a)
  exact ⟨hreplies, hcore.controller, hcore.cache, a.after_commands is⟩

end FarmClient
