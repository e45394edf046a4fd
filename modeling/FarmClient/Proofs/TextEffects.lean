/-
What one text of the server does to a client. Texts that are no messages,
snapshots that are refused and notices put one line on the console and change
nothing at all; an event or the end of a script without a session does not
even do that. What is left changes one part each: a snapshot the farm, an
event the gold and the labels, the end of a script the state of the session.
-/
import FarmClient.Proofs.MessageTags
import FarmClient.Proofs.SceneChanges

namespace FarmClient

open Json (Value)

/-- A text that is no message: not JSON, without a text under `type`, with one
that is no kind of message, or with a payload that its kind does not have. -/
inductive Unreadable (text : String) : Prop
  | notJson {f} : Value.read text.toList = .error f → Unreadable text
  | untagged {v} : Value.read text.toList = .ok v → v.tag? = none → Unreadable text
  | unknownKind {v kind} : Value.read text.toList = .ok v → v.tag? = some kind → kind ∉ Wire.serverKinds →
      Unreadable text
  | wrongPayload {v kind e} : Value.read text.toList = .ok v → v.tag? = some kind → kind ∈ Wire.serverKinds →
      ServerMessage.ofValue v = .error e → Unreadable text

theorem ServerMessage.read_of_value {text : List Char} {v : Value} (h : Value.read text = .ok v) :
    ServerMessage.read text = ServerMessage.ofValue v := by
  simp only [ServerMessage.read, h]

theorem unreadable_iff {text : String} : Unreadable text ↔ ∃ e, ServerMessage.read text.toList = .error e := by
  constructor
  · intro h
    cases h with
    | notJson hr => simp only [ServerMessage.read, hr, Except.error.injEq, exists_eq']
    | untagged hr ht => exact ⟨_, (ServerMessage.read_of_value hr).trans (ServerMessage.ofValue_of_untagged ht)⟩
    | unknownKind hr ht hk =>
      exact ⟨_, (ServerMessage.read_of_value hr).trans (ServerMessage.ofValue_of_unknown ht hk)⟩
    | wrongPayload hr _ _ he => exact ⟨_, (ServerMessage.read_of_value hr).trans he⟩
  · rintro ⟨e, he⟩
    cases hr : Value.read text.toList with
    | error f => exact .notJson hr
    | ok v =>
      rw [ServerMessage.read_of_value hr] at he
      cases ht : v.tag? with
      | none => exact .untagged hr ht
      | some kind =>
        by_cases hk : kind ∈ Wire.serverKinds
        · exact .wrongPayload hr ht hk he
        · exact .unknownKind hr ht hk

variable {K : Type} [Scalar K]

theorem App.receive_of_read (a : App K) {text : String} {m : ServerMessage}
    (h : ServerMessage.read text.toList = .ok m) : a.receive text = a.handle m := by
  simp only [App.receive, h]

theorem App.receive_of_unreadable (a : App K) {text : String} (h : Unreadable text) :
    ∃ line, a.receive text = (a, [.log line]) := by
  obtain ⟨e, he⟩ := unreadable_iff.mp h
  exact ⟨"[error] protocol: " ++ e.text, by simp only [App.receive, he]⟩

/-- An event of a session writes the gold and lets one label rise at most. -/
theorem App.handle_event (a : App K) (e : ExecEvent) (h : a.controller.isActive = true) :
    (a.handle (.event e)).1 =
      { a with scene := a.scene.withGold e.gold (a.scene.newLabel? e.x.toInt e.y.toInt e.gold).toList } := by
  simp only [App.handle, h, if_true, App.control, Controller.event, Scene.recordGold_eq]

theorem App.handle_event_of_idle (a : App K) (e : ExecEvent) (h : a.controller.isActive = false) :
    a.handle (.event e) = (a, []) := by
  simp [App.handle, h]

theorem App.handle_done (a : App K) (r : Option ScriptResult) (h : a.controller.isActive = true) :
    (a.handle (.done r)).1 = { a with controller := { a.controller with state := .idle } } := by
  simp only [App.handle, App.control, Controller.done, h, if_true]

theorem App.handle_done_of_idle (a : App K) (r : Option ScriptResult) (h : a.controller.isActive = false) :
    a.handle (.done r) = (a, []) := by
  simp [App.handle, App.control, Controller.done, h]

/-- **What a text does.** -/
theorem receive_effect (a : App K) (text : String) :
    (Unreadable text ↔ ∀ m, ServerMessage.read text.toList ≠ .ok m) ∧
    (Unreadable text → ∃ line, a.receive text = (a, [.log line])) ∧
    (∀ message n, ServerMessage.read text.toList = .ok (.error message n) →
      ∃ line, a.receive text = (a, [.log line])) ∧
    (∀ farm, ServerMessage.read text.toList = .ok (.farmState farm) →
      (¬ farm.Fits a.scene.cache.gridSize → ∃ line, a.receive text = (a, [.log line])) ∧
      (farm.Fits a.scene.cache.gridSize → a.receive text = ({ a with scene := a.scene.withFarm farm }, []))) ∧
    (∀ e, ServerMessage.read text.toList = .ok (.event e) →
      (a.controller.state = .idle → a.receive text = (a, [])) ∧
      (a.controller.state ≠ .idle → ∃ labels : List (FloatingText K), labels.length ≤ 1 ∧
        (a.receive text).1 = { a with scene := a.scene.withGold e.gold labels })) ∧
    ∀ r, ServerMessage.read text.toList = .ok (.done r) →
      (a.controller.state = .idle → a.receive text = (a, [])) ∧
      (a.controller.state ≠ .idle →
        (a.receive text).1 = { a with controller := { a.controller with state := .idle } }) := by
  refine ⟨?unreadable, a.receive_of_unreadable, ?notice, ?snapshot, ?event, ?done⟩
  case unreadable =>
    rw [unreadable_iff]
    cases ServerMessage.read text.toList with
    | ok m => simp
    | error e => simp
  case notice =>
    intro message n hm
    rw [a.receive_of_read hm]
    exact ⟨_, rfl⟩
  case snapshot =>
    intro farm hm
    rw [a.receive_of_read hm]
    refine ⟨fun hf => ?_, fun hf => App.handle_of_fits hf⟩
    obtain ⟨e, he⟩ := Farm.not_fits_iff.mp hf
    exact ⟨_, App.handle_of_refused he⟩
  case event =>
    intro e hm
    rw [a.receive_of_read hm]
    refine ⟨fun hs => ?_, fun hs => ?_⟩
    · exact a.handle_event_of_idle e (Controller.isActive_eq_false.mpr hs)
    · refine ⟨_, ?_, a.handle_event e (Controller.isActive_eq_true.mpr hs)⟩
      cases a.scene.newLabel? e.x.toInt e.y.toInt e.gold <;> simp
  case done =>
    intro r hm
    rw [a.receive_of_read hm]
    refine ⟨fun hs => ?_, fun hs => ?_⟩
    · exact a.handle_done_of_idle r (Controller.isActive_eq_false.mpr hs)
    · exact a.handle_done r (Controller.isActive_eq_true.mpr hs)

end FarmClient
