/-
What a host shows that carries out the actions of a controller, in order and
nothing else: the buttons, the highlighted line and the console. The actions
are updates, and what is shown is right only if no answer leaves one out. What
an answer does to a display is said once, by `Shows`; that buttons, line and
console agree with the controller after every run is derived from that.
-/
import Mathlib.Data.List.DropRight
import FarmClient.Proofs.ClientRuns
import FarmClient.Proofs.ExactFarm

namespace FarmClient

variable {K : Type} [Scalar K]

/-! ## Displays -/

/-- What a host shows of a controller. -/
structure Display where
  controls : Controls
  /-- The highlighted line of the program. -/
  line : Option UInt32
  /-- The lines of the console, oldest first. -/
  console : List String
deriving DecidableEq

namespace Display

/-- The display of a controller to which nothing has happened. -/
def ofController (c : Controller) : Display := ⟨c.controls, none, []⟩

/-- One action is carried out. -/
def carryOut (d : Display) : Action → Display
  | .highlightLine n => { d with line := some n }
  | .clearHighlight => { d with line := none }
  | .clearConsole => { d with console := [] }
  | .log text => { d with console := d.console ++ [text] }
  | .controls controls => { d with controls }
  | .send _ | .scheduleAck _ _ | .resync => d

/-- Actions are carried out in order. -/
def replay (d : Display) (actions : List Action) : Display := actions.foldl carryOut d

theorem replay_append (d : Display) (xs ys : List Action) : d.replay (xs ++ ys) = (d.replay xs).replay ys :=
  List.foldl_append

end Display

@[simp] def Action.logged? : Action → Option String
  | .log text => some text
  | _ => none

/-- The lines logged among actions. -/
def logsOf (actions : List Action) : List String := actions.filterMap Action.logged?

@[simp] theorem logsOf_nil : logsOf [] = [] := rfl

@[simp] theorem logsOf_cons (x : Action) (xs : List Action) :
    logsOf (x :: xs) = x.logged?.toList ++ logsOf xs := by
  cases h : x.logged? with
  | none => exact List.filterMap_cons_none h
  | some m => exact List.filterMap_cons_some h

def ClientMessage.isStart : ClientMessage → Bool
  | .start _ _ => true
  | _ => false

/-- The start of a session is sent among actions. -/
def startsAmong (actions : List Action) : Bool := (messagesOf actions).any ClientMessage.isStart

/-- The line of the event that a running session handles. -/
def Input.line? (c : Controller) (i : Input K) : Option UInt32 :=
  match i.message? with
  | some (.event e) => if c.isActive then some e.line else none
  | _ => none

theorem Input.line?_of_no_event {i : Input K} (h : ∀ e, i.message? ≠ some (.event e)) (c : Controller) :
    i.line? c = none := by
  unfold Input.line?
  split
  · next e he => exact absurd he (h e)
  · rfl

/-! ## What one answer shows -/

/-- **What an answer can do** to a display: clear it for a session that starts,
highlight the line of an event, clear the line of a session that ends, or bring
the buttons of a session that goes on, or of none. -/
inductive Shows (c : Controller) (i : Input K) (c' : Controller) (xs : List Action) : Prop
  | starts : startsAmong xs = true → i.line? c = none → (∀ d : Display, d.replay xs = ⟨c'.controls, none, []⟩) →
      Shows c i c' xs
  | event (n : UInt32) : startsAmong xs = false → logsOf xs = [] → i.line? c = some n → c' = c →
      (∀ d : Display, d.replay xs = { d with line := some n }) → Shows c i c' xs
  | ends : startsAmong xs = false → i.line? c = none → c'.state = .idle →
      (∀ d : Display, d.replay xs = ⟨c'.controls, none, d.console ++ logsOf xs⟩) → Shows c i c' xs
  | goesOn : startsAmong xs = false → i.line? c = none → c'.isActive = c.isActive →
      (∀ d : Display, d.controls = c.controls → d.replay xs = ⟨c'.controls, d.line, d.console ++ logsOf xs⟩) →
      Shows c i c' xs

section

variable {c : Controller} {i : Input K}

/-- An answer without actions to an input that ends nothing. -/
theorem Shows.nothing {c' : Controller} (hl : i.line? c = none) (hs : c'.state = c.state) : Shows c i c' [] := by
  refine .goesOn rfl hl (by simp only [Controller.isActive, hs]) fun d hd => ?_
  simp only [Display.replay, List.foldl_nil, logsOf_nil, List.append_nil, Controller.controls, hs]
  rw [← Controller.controls, ← hd]

/-- A line on the console. -/
theorem Shows.log (hl : i.line? c = none) (text : String) : Shows c i c [.log text] := by
  refine .goesOn rfl hl rfl fun d hd => ?_
  rw [← hd]
  rfl

theorem Controller.start_shows (mode : ExecMode) (code : String) (hl : i.line? c = none) :
    Shows c i (c.start mode code).1 (c.start mode code).2 := by
  unfold Controller.start
  split
  · exact .log hl _
  · exact .starts rfl hl fun d => rfl

theorem Controller.toggleRun_shows (code : String) :
    Shows (K := K) c (.toggleRun code) (c.toggleRun code).1 (c.toggleRun code).2 := by
  have hl : (Input.toggleRun code : Input K).line? c = none := rfl
  cases h : c.state with
  | idle => simpa [Controller.toggleRun, h] using start_shows .autoStep code hl
  | runningAuto | pausedAuto =>
    simp only [Controller.toggleRun, h]
    exact .goesOn rfl hl (by simp [Controller.isActive, ExecState.isActive, h]) fun d _ => rfl
  | runningManual =>
    simp only [Controller.toggleRun, h]
    exact .nothing hl rfl

theorem Controller.step_shows (code : String) :
    Shows (K := K) c (.step code) (c.step code).1 (c.step code).2 := by
  have hl : (Input.step code : Input K).line? c = none := rfl
  cases h : c.state with
  | idle => simpa [Controller.step, h] using start_shows .manualStep code hl
  | runningAuto | pausedAuto =>
    simp only [Controller.step, h]
    exact .nothing hl rfl
  | runningManual =>
    simp only [Controller.step, h]
    refine .goesOn rfl hl rfl fun d hd => ?_
    rw [← hd]
    simp [Display.replay, Display.carryOut]

theorem Controller.abort_shows : Shows (K := K) c .abort c.abort.1 c.abort.2 := by
  unfold Controller.abort
  split
  · exact .ends rfl rfl rfl fun d => rfl
  · exact .nothing rfl rfl

theorem Controller.pacingElapsed_shows (ticket : AckTicket) :
    Shows (K := K) c (.elapsed ticket) (c.pacingElapsed ticket).1 (c.pacingElapsed ticket).2 := by
  unfold Controller.pacingElapsed
  split
  · refine .goesOn rfl rfl rfl fun d hd => ?_
    rw [← hd]
    simp [Display.replay, Display.carryOut]
  · exact .nothing rfl rfl

theorem Controller.connectionLost_shows :
    Shows (K := K) c .connectionLost c.connectionLost.1 c.connectionLost.2 := by
  unfold Controller.connectionLost
  split
  · exact .ends rfl rfl rfl fun d => rfl
  · next ha =>
    have hs : c.state = .idle := by simpa [Controller.isActive_eq_true] using ha
    refine .goesOn rfl rfl (by simp [Controller.isActive, hs]) fun d hd => ?_
    simp only [Controller.controls, hs] at hd ⊢
    rw [← hd]
    rfl

theorem Controller.connected_shows : Shows (K := K) c .connected c.connected.1 c.connected.2 := by
  unfold Controller.connected
  split
  all_goals
    refine .goesOn rfl rfl rfl fun d hd => ?_
    rw [← hd]
    rfl

theorem Controller.event_shows {e : ExecEvent} (hi : i.message? = some (.event e)) (ha : c.isActive = true) :
    Shows c i (c.event e.line).1 (c.event e.line).2 := by
  have hl : i.line? c = some e.line := by simp [Input.line?, hi, ha]
  simp only [Controller.event, ha, if_true]
  split
  all_goals exact .event e.line rfl rfl hl rfl fun d => rfl

theorem Controller.done_shows (r : Option ScriptResult) (hl : i.line? c = none) :
    Shows c i (c.done r).1 (c.done r).2 := by
  unfold Controller.done
  split
  · cases r
    all_goals
      refine .ends rfl hl rfl fun d => ?_
      simp [Display.replay, Display.carryOut, Controller.controls]
  · exact .nothing hl rfl

end

theorem App.handle_shows (a : App K) {i : Input K} {m : ServerMessage} (hi : i.message? = some m) :
    Shows a.controller i (a.handle m).1.controller (a.handle m).2 := by
  have hl (hm : ∀ e, m ≠ .event e) : i.line? a.controller = none :=
    Input.line?_of_no_event (fun e he => hm e (by simpa [hi] using he)) _
  cases m with
  | event e =>
    simp only [App.handle]
    split
    · next ha => exact Controller.event_shows hi ha
    · next ha => exact .nothing (by simp [Input.line?, hi, ha]) rfl
  | farmState farm =>
    simp only [App.handle]
    split
    · exact .nothing (hl (by simp)) rfl
    · exact .log (hl (by simp)) _
  | done r => exact Controller.done_shows r (hl (by simp))
  | error text line => exact .log (hl (by simp)) _

/-- Every answer shows one of these things. -/
theorem App.answer_shows (a : App K) (i : Input K) :
    Shows a.controller i (a.answer i).1.controller (a.answer i).2 := by
  cases i with
  | toggleRun code => exact Controller.toggleRun_shows code
  | step code => exact Controller.step_shows code
  | abort => exact Controller.abort_shows
  | text t =>
    cases hm : (Input.text t : Input K).message? with
    | some m => rw [a.answer_of_message hm]; exact a.handle_shows hm
    | none =>
      cases hr : ServerMessage.read t.toList with
      | error e => simpa [App.answer, App.receive, hr] using Shows.log (by simp [Input.line?, hm]) _
      | ok m => simp [Input.message?, hr, Except.toOption] at hm
  | message m => exact a.handle_shows rfl
  | elapsed ticket => exact Controller.pacingElapsed_shows ticket
  | connected => exact Controller.connected_shows
  | connectionLost => exact Controller.connectionLost_shows
  | resynced => exact .nothing rfl rfl
  | resync farm =>
    refine .nothing rfl ?_
    simp only [App.answer, App.resyncIfFits, App.resync]
    cases a.scene.apply farm <;> rfl
  | pointerMoved | pointerLeft | frame | scene => exact .nothing rfl rfl

/-! ## Runs -/

/-- What some turns asked the host for. -/
def actionsIn (turns : List (Turn K)) : List Action := turns.flatMap Turn.actions

/-- The turns since the start of the latest session, or all if there was none. -/
def sinceStart (turns : List (Turn K)) : List (Turn K) := turns.rtakeWhile fun t => !startsAmong t.actions

/-- The line of the last event handled in some turns. -/
def lastLine? (turns : List (Turn K)) : Option UInt32 :=
  (turns.filterMap fun t => t.input.line? t.before.controller).getLast?

theorem actionsIn_snoc (turns : List (Turn K)) (a : App K) (i : Input K) :
    actionsIn (turns ++ [⟨a, i⟩]) = actionsIn turns ++ (a.answer i).2 := by
  simp [actionsIn, Turn.actions]

theorem sinceStart_snoc_of_starts (turns : List (Turn K)) {a : App K} {i : Input K}
    (h : startsAmong (a.answer i).2 = true) : sinceStart (turns ++ [⟨a, i⟩]) = [] :=
  List.rtakeWhile_concat_neg _ _ _ (by simp [Turn.actions, h])

theorem sinceStart_snoc (turns : List (Turn K)) {a : App K} {i : Input K}
    (h : startsAmong (a.answer i).2 = false) : sinceStart (turns ++ [⟨a, i⟩]) = sinceStart turns ++ [⟨a, i⟩] :=
  List.rtakeWhile_concat_pos _ _ _ (by simp [Turn.actions, h])

theorem lastLine?_snoc (turns : List (Turn K)) (a : App K) (i : Input K) :
    lastLine? (turns ++ [⟨a, i⟩]) = (i.line? a.controller).or (lastLine? turns) := by
  cases h : i.line? a.controller <;> simp [lastLine?, h]

/-- A display agrees with a controller and its history. -/
structure Display.Agrees (turns : List (Turn K)) (c : Controller) (d : Display) : Prop where
  controls : d.controls = c.controls
  idle : c.isActive = false → d.line = none
  active : c.isActive = true → d.line = lastLine? (sinceStart turns)
  console : d.console = logsOf (actionsIn (sinceStart turns))

theorem Display.Agrees.turn {turns : List (Turn K)} {a : App K} {d : Display} (h : d.Agrees turns a.controller)
    (i : Input K) : (d.replay (a.answer i).2).Agrees (turns ++ [⟨a, i⟩]) (a.answer i).1.controller := by
  have hlogs (hs : startsAmong (a.answer i).2 = false) :
      logsOf (actionsIn (sinceStart (turns ++ [⟨a, i⟩]))) = d.console ++ logsOf (a.answer i).2 := by
    rw [sinceStart_snoc _ hs, actionsIn_snoc, logsOf, List.filterMap_append, h.console]
    rfl
  have hline (hs : startsAmong (a.answer i).2 = false) (hn : i.line? a.controller = none) :
      lastLine? (sinceStart (turns ++ [⟨a, i⟩])) = lastLine? (sinceStart turns) := by
    rw [sinceStart_snoc _ hs, lastLine?_snoc, hn, Option.none_or]
  cases a.answer_shows i with
  | starts hs hn hd =>
    -- the history begins anew, on a display that has been cleared
    rw [hd]
    refine ⟨rfl, fun _ => rfl, fun _ => ?_, ?_⟩ <;> rw [sinceStart_snoc_of_starts _ hs] <;> rfl
  | event n hs hx hn hc hd =>
    have ha : a.controller.isActive = true := by
      cases ha : a.controller.isActive with
      | true => rfl
      | false =>
        unfold Input.line? at hn
        split at hn <;> simp [ha] at hn
    rw [hd, hc]
    refine ⟨h.controls, fun hi => by simp [ha] at hi, fun _ => ?_, ?_⟩
    · rw [sinceStart_snoc _ hs, lastLine?_snoc, hn]
      rfl
    · rw [hlogs hs, hx, List.append_nil]
  | ends hs hn hi hd =>
    rw [hd]
    refine ⟨rfl, fun _ => rfl, fun ha => ?_, (hlogs hs).symm⟩
    exact absurd hi (Controller.isActive_eq_true.mp ha)
  | goesOn hs hn hi hd =>
    rw [hd d h.controls]
    refine ⟨rfl, fun ha => h.idle (hi ▸ ha), fun ha => ?_, (hlogs hs).symm⟩
    rw [hline hs hn]
    exact h.active (hi ▸ ha)

/-- No input is ruled out. -/
def Anything (_ : List (Turn K)) (_ : App K) (_ : Input K) : Prop := True

/-- **The display agrees with the controller.** After any run of a fresh
controller, on a display to which its actions have been carried out, the
buttons are those of its state, the line is none if no session runs and
otherwise that of the last event of the session, if there was one, and the
console holds what has been logged since the start of the latest session. -/
theorem display_agrees {interval : Nat} {a₀ a : App K} {past : List (Turn K)}
    (h₀ : a₀.controller = .fresh interval) (h : Leads Anything [] a₀ past a) :
    let d := (Display.ofController a₀.controller).replay (actionsIn past)
    d.controls = a.controller.controls ∧
      (a.controller.state = .idle → d.line = none) ∧
      (a.controller.state ≠ .idle → d.line = lastLine? (sinceStart past)) ∧
      d.console = logsOf (actionsIn (sinceStart past)) := by
  have hd : ((Display.ofController a₀.controller).replay (actionsIn past)).Agrees past a.controller := by
    refine h.invariant (I := fun turns c =>
      ((Display.ofController a₀.controller).replay (actionsIn turns)).Agrees turns c.controller) ?_ ?_
    · rw [h₀]
      exact ⟨rfl, fun _ => rfl, fun ha => absurd rfl (Controller.isActive_eq_true.mp ha), rfl⟩
    · intro turns c i hc _
      rw [actionsIn_snoc, Display.replay_append]
      exact hc.turn i
  exact ⟨hd.controls, fun hs => hd.idle (Controller.isActive_eq_false.mpr hs),
    fun hs => hd.active (Controller.isActive_eq_true.mpr hs), hd.console⟩

/-- The second session shows the line of its own event, and nothing of what was
logged when the first one was aborted. -/
theorem display_agrees_second_session :
    let inputs : List (Input Rat) := [.toggleRun "till()", .message (.event ⟨4, 0, 0, 5⟩), .abort, .step "plant()",
      .message (.event ⟨7, 0, 0, 5⟩), .connected]
    let past := ExactFarm.client.turns inputs
    let a := ExactFarm.client.after inputs
    let d := (Display.ofController ExactFarm.client.controller).replay (actionsIn past)
    lastLine? (sinceStart past) = some 7 ∧ logsOf (actionsIn (sinceStart past)) = ["[system] connected"] ∧
      d.controls = a.controller.controls ∧ d.line = some 7 ∧ d.console = ["[system] connected"] := by
  intro inputs past a d
  have ha : Allowed Anything [] ExactFarm.client inputs := by simp [Allowed, Anything, inputs]
  obtain ⟨hcontrols, -, hline, hconsole⟩ := display_agrees rfl ha.leads
  have hlast : lastLine? (sinceStart past) = some 7 := by decide +kernel
  have hlogs : logsOf (actionsIn (sinceStart past)) = ["[system] connected"] := by decide +kernel
  exact ⟨hlast, hlogs, hcontrols, (hline (by decide +kernel)).trans hlast, hconsole.trans hlogs⟩

end FarmClient
