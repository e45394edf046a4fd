/-
Runs of a client: inputs of every kind in any order, each with what the
client asked its host for. What a single input can do to the controller is
said once, by `Move`; whatever holds along a run is derived from that.

A host is free to replace the scene between two inputs, so that what is
shown of runs holds of the controller with any scene it is handed.
-/
import FarmClient.App

namespace FarmClient

variable {K : Type} [Scalar K]

/-- What can be done to a client. -/
inductive Input (K : Type) [Scalar K] where
  | toggleRun (code : String)
  | step (code : String)
  | abort
  /-- A text frame of the server. -/
  | text (text : String)
  /-- A message of the server, already understood. -/
  | message (message : ServerMessage)
  | elapsed (ticket : AckTicket)
  | connected
  | connectionLost
  /-- The farm is known again, from whatever source. -/
  | resynced
  /-- The farm has been fetched again. -/
  | resync (farm : Farm)
  | pointerMoved (p : Point K)
  | pointerLeft
  | frame (now : K) (viewport : Size K) (image : Option (Size K))
  /-- The host puts another scene in the place of the scene. -/
  | scene (scene : Scene K)

/-- The message an input brings, if it can be understood. -/
def Input.message? : Input K → Option ServerMessage
  | .message m => some m
  | .text t => (ServerMessage.read t.toList).toOption
  | _ => none

/-- The client after an input, and what it asks for. -/
def App.answer (a : App K) : Input K → App K × List Action
  | .toggleRun code => a.toggleRun code
  | .step code => a.step code
  | .abort => a.abort
  | .text text => a.receive text
  | .message m => a.handle m
  | .elapsed ticket => a.pacingElapsed ticket
  | .connected => a.connected
  | .connectionLost => a.connectionLost
  | .resynced => ({ a with controller := a.controller.resynced }, [])
  | .resync farm => (a.resyncIfFits farm, [])
  | .pointerMoved p => (a.pointerMoved p, [])
  | .pointerLeft => (a.pointerLeft, [])
  | .frame now viewport image => (a.frame now viewport image, [])
  | .scene scene => ({ a with scene }, [])

/-- An input that brings a message is answered as that message. -/
theorem App.answer_of_message (a : App K) {i : Input K} {m : ServerMessage} (hi : i.message? = some m) :
    a.answer i = a.handle m := by
  cases i with
  | message m' => simp only [Input.message?, Option.some.injEq] at hi; rw [hi]; rfl
  | text t =>
    simp only [Input.message?] at hi
    cases hr : ServerMessage.read t.toList with
    | error e => simp [hr, Except.toOption] at hi
    | ok m' =>
      obtain rfl : m' = m := by simpa [hr, Except.toOption] using hi
      simp [App.answer, App.receive, hr]
  | _ => cases hi

@[simp] def Action.message? : Action → Option ClientMessage
  | .send m => some m
  | _ => none

@[simp] def Action.ticket? : Action → Option AckTicket
  | .scheduleAck ticket _ => some ticket
  | _ => none

/-- The messages to be sent among actions. -/
def messagesOf (actions : List Action) : List ClientMessage := actions.filterMap Action.message?

/-- The tickets issued among actions. -/
def ticketsOf (actions : List Action) : List AckTicket := actions.filterMap Action.ticket?

@[simp] theorem messagesOf_nil : messagesOf [] = [] := rfl

@[simp] theorem messagesOf_cons (x : Action) (xs : List Action) :
    messagesOf (x :: xs) = x.message?.toList ++ messagesOf xs := by
  cases h : x.message? with
  | none => exact List.filterMap_cons_none h
  | some m => exact List.filterMap_cons_some h

@[simp] theorem ticketsOf_nil : ticketsOf [] = [] := rfl

@[simp] theorem ticketsOf_cons (x : Action) (xs : List Action) :
    ticketsOf (x :: xs) = x.ticket?.toList ++ ticketsOf xs := by
  cases h : x.ticket? with
  | none => exact List.filterMap_cons_none h
  | some t => exact List.filterMap_cons_some h

/-! ## What one input does -/

/-- An input that a running session takes no notice of: no event, no ticket
of the session, no press of the run button but in a manual session. -/
structure Input.Quiet (c : Controller) (i : Input K) : Prop where
  event : ∀ e, i.message? ≠ some (.event e)
  ticket : i ≠ .elapsed ⟨c.session⟩
  toggle : ∀ code, i = .toggleRun code → c.state = .runningManual

theorem Input.Quiet.of {c : Controller} {i : Input K} (hm : i.message? = none)
    (ht : i ≠ .elapsed ⟨c.session⟩) (hr : ∀ code, i ≠ .toggleRun code) : i.Quiet c :=
  ⟨by simp [hm], ht, fun code h => absurd h (hr code)⟩

/-- The farm is known again, or may be. -/
inductive Input.Resyncs : Input K → Prop
  | resynced : Resyncs .resynced
  | resync (farm : Farm) : Resyncs (.resync farm)

/-- The button that starts a session in a mode. -/
def ExecMode.press : ExecMode → String → Input K
  | .autoStep, code => .toggleRun code
  | .manualStep, code => .step code

/-- **What an input can do** to a controller: the controller after it, the
messages sent and the tickets issued. -/
inductive Move (c : Controller) : Input K → Controller → List ClientMessage → List AckTicket → Prop
  | start (mode : ExecMode) (code : String) : c.state = .idle → c.resyncRequired = false →
      Move c (mode.press code) { c with session := c.session + 1, state := Controller.startState mode }
        [.start mode code] []
  | pause (code : String) : c.state = .runningAuto →
      Move c (.toggleRun code) { c with state := .pausedAuto } [] []
  | resume (code : String) : c.state = .pausedAuto →
      Move c (.toggleRun code) { c with state := .runningAuto } [.ack] []
  | ask (code : String) : c.state = .runningManual → Move c (.step code) c [.step] []
  | permit : c.isActive = true → Move c (.elapsed ⟨c.session⟩) c [.ack] []
  | event {i} (e : ExecEvent) : i.message? = some (.event e) → c.isActive = true →
      Move c i c [] (if c.state = .runningAuto then [⟨c.session⟩] else [])
  | cancel : c.isActive = true → Move c .abort { c with state := .idle } [.abort] []
  | finish {i} (r : Option ScriptResult) : i.message? = some (.done r) → c.isActive = true →
      Move c i { c with state := .idle } [] []
  | lose : Move c .connectionLost { c with state := .idle, resyncRequired := true } [] []
  | rest {i c'} : c'.state = c.state → c'.session = c.session →
      c'.resyncRequired = c.resyncRequired ∨ i.Resyncs → (c.isActive = true → i.Quiet c) → Move c i c' [] []

/-- An input that changes nothing about the controller. -/
theorem Move.same {c : Controller} {i : Input K} (h : c.isActive = true → i.Quiet c) : Move c i c [] [] :=
  .rest rfl rfl (.inl rfl) h

/-! ### The controller's own steps -/

section

variable {c : Controller}

theorem Controller.isActive_eq_false : c.isActive = false ↔ c.state = .idle := by
  simp [Controller.isActive, ExecState.isActive]

theorem Controller.isActive_eq_true : c.isActive = true ↔ c.state ≠ .idle := by
  simp [Controller.isActive, ExecState.isActive]

theorem Controller.start_move (mode : ExecMode) (code : String) (h : c.state = .idle) :
    Move (K := K) c (mode.press code) (c.start mode code).1 (messagesOf (c.start mode code).2)
      (ticketsOf (c.start mode code).2) := by
  have hq : c.isActive = true → (mode.press code : Input K).Quiet c :=
    fun ha => absurd h (isActive_eq_true.mp ha)
  unfold Controller.start
  split
  · exact .same hq
  · next hr => exact .start mode code h (by simpa using hr)

theorem Controller.toggleRun_move (code : String) :
    Move (K := K) c (.toggleRun code) (c.toggleRun code).1 (messagesOf (c.toggleRun code).2)
      (ticketsOf (c.toggleRun code).2) := by
  cases h : c.state with
  | idle => simpa [Controller.toggleRun, h, ExecMode.press] using start_move .autoStep code h
  | runningAuto => simpa [Controller.toggleRun, h] using Move.pause code h
  | pausedAuto => simpa [Controller.toggleRun, h] using Move.resume code h
  | runningManual =>
    simp only [Controller.toggleRun, h]
    exact .same fun _ => ⟨by simp [Input.message?], by simp, fun _ _ => h⟩

theorem Controller.step_move (code : String) :
    Move (K := K) c (.step code) (c.step code).1 (messagesOf (c.step code).2)
      (ticketsOf (c.step code).2) := by
  have hq : (Input.step code : Input K).Quiet c := .of rfl (by simp) (by simp)
  cases h : c.state with
  | idle => simpa [Controller.step, h, ExecMode.press] using start_move .manualStep code h
  | runningAuto | pausedAuto => simpa [Controller.step, h] using Move.same fun _ => hq
  | runningManual => simpa [Controller.step, h] using Move.ask code h

theorem Controller.abort_move :
    Move (K := K) c .abort c.abort.1 (messagesOf c.abort.2) (ticketsOf c.abort.2) := by
  unfold Controller.abort
  split
  · next h => simpa using Move.cancel h
  · next h => exact .same fun ha => absurd ha h

theorem Controller.pacingElapsed_move (ticket : AckTicket) :
    Move (K := K) c (.elapsed ticket) (c.pacingElapsed ticket).1
      (messagesOf (c.pacingElapsed ticket).2) (ticketsOf (c.pacingElapsed ticket).2) := by
  unfold Controller.pacingElapsed
  split
  · next h =>
    obtain ⟨hs, ha⟩ := h
    obtain rfl : ticket = ⟨c.session⟩ := by cases ticket; simp_all
    simpa using Move.permit ha
  · next h =>
    refine .same fun ha => .of rfl (fun he => h ⟨?_, ha⟩) (by simp)
    simp only [Input.elapsed.injEq] at he
    rw [he]

theorem Controller.connectionLost_move :
    Move (K := K) c .connectionLost c.connectionLost.1 (messagesOf c.connectionLost.2)
      (ticketsOf c.connectionLost.2) := by
  have h := Move.lose (K := K) (c := c)
  unfold Controller.connectionLost
  split <;> simpa using h

theorem Controller.event_move {i : Input K} {e : ExecEvent} (hi : i.message? = some (.event e)) :
    Move c i (c.event e.line).1 (messagesOf (c.event e.line).2) (ticketsOf (c.event e.line).2) := by
  unfold Controller.event
  split
  · next ha =>
    have h := Move.event e hi ha
    by_cases hr : c.state = .runningAuto <;> simpa [hr] using h
  · next ha => exact .same fun h => absurd h ha

theorem Controller.done_move {i : Input K} {r : Option ScriptResult} (hi : i.message? = some (.done r)) :
    Move c i (c.done r).1 (messagesOf (c.done r).2) (ticketsOf (c.done r).2) := by
  unfold Controller.done
  split
  · next ha =>
    have h := Move.finish r hi ha
    cases r <;> simpa using h
  · next ha => exact .same fun h => absurd h ha

end

/-! ### The client's answer -/

theorem App.handle_move (a : App K) {i : Input K} {m : ServerMessage} (hi : i.message? = some m) :
    Move a.controller i (a.handle m).1.controller (messagesOf (a.handle m).2)
      (ticketsOf (a.handle m).2) := by
  have hq (hm : ∀ e, m ≠ .event e) : i.Quiet a.controller :=
    ⟨fun e he => hm e (by simpa [hi] using he), fun he => by simp [he, Input.message?] at hi,
      fun code he => by simp [he, Input.message?] at hi⟩
  cases m with
  | event e =>
    simp only [App.handle]
    split
    · exact Controller.event_move hi
    · next ha => exact .same fun h => absurd h ha
  | farmState farm =>
    simp only [App.handle]
    split
    · exact .same fun _ => hq (by simp)
    · simpa using Move.same fun _ => hq (by simp)
  | done r => exact Controller.done_move hi
  | error text line => simpa [App.handle] using Move.same fun _ => hq (by simp)

/-- Every input is one of the moves. -/
theorem App.answer_move (a : App K) (i : Input K) :
    Move a.controller i (a.answer i).1.controller (messagesOf (a.answer i).2)
      (ticketsOf (a.answer i).2) := by
  cases i with
  | toggleRun code => exact Controller.toggleRun_move code
  | step code => exact Controller.step_move code
  | abort => exact Controller.abort_move
  | text t =>
    cases hm : (Input.text t : Input K).message? with
    | some m => rw [a.answer_of_message hm]; exact a.handle_move hm
    | none =>
      obtain ⟨e, he⟩ : ∃ e, ServerMessage.read t.toList = .error e := by
        cases h : ServerMessage.read t.toList with
        | error e => exact ⟨e, rfl⟩
        | ok m => simp [Input.message?, h, Except.toOption] at hm
      have hq : (Input.text t : Input K).Quiet a.controller := .of hm (by simp) (by simp)
      simpa [App.answer, App.receive, he] using Move.same fun _ => hq
  | message m => exact a.handle_move rfl
  | elapsed ticket => exact Controller.pacingElapsed_move ticket
  | connectionLost => exact Controller.connectionLost_move
  | connected =>
    have hq : (Input.connected : Input K).Quiet a.controller := .of rfl (by simp) (by simp)
    have h := Move.same (c := a.controller) fun _ => hq
    by_cases hr : a.controller.resyncRequired <;>
      simpa [App.answer, App.connected, App.control, Controller.connected, hr] using h
  | resynced => exact .rest rfl rfl (.inr .resynced) fun _ => .of rfl (by simp) (by simp)
  | resync farm =>
    have hq : (Input.resync farm : Input K).Quiet a.controller := .of rfl (by simp) (by simp)
    simp only [App.answer, App.resyncIfFits, App.resync]
    cases a.scene.apply farm with
    | ok scene => exact .rest rfl rfl (.inr (.resync farm)) fun _ => hq
    | error e => exact .same fun _ => hq
  | pointerMoved | pointerLeft | frame | scene =>
    exact .same fun _ => .of rfl (by simp) (by simp)

namespace Move

variable {c c' : Controller} {i : Input K} {ms : List ClientMessage} {ts : List AckTicket}

/-- A session lasts, or the next one is started. -/
theorem session_eq (h : Move c i c' ms ts) :
    c'.session = c.session ∨
      c'.session = c.session + 1 ∧
        ∃ mode code, c'.state = Controller.startState mode ∧ ms = [.start mode code] := by
  cases h with
  | start mode code => exact .inr ⟨rfl, mode, code, rfl, rfl⟩
  | rest _ hn => exact .inl hn
  | _ => exact .inl rfl

theorem session_le (h : Move c i c' ms ts) : c.session ≤ c'.session := by
  rcases h.session_eq with hs | ⟨hs, _⟩ <;> omega

/-- Nothing but a new farm lifts the requirement to fetch it. -/
theorem resyncRequired (h : Move c i c' ms ts) (hr : c.resyncRequired = true) (hi : ¬ i.Resyncs) :
    c'.resyncRequired = true := by
  cases h with
  | lose => rfl
  | rest _ _ hc => exact (hc.resolve_right hi).trans hr
  | _ => exact hr

/-- A start is asked for by its button, and nothing is required before it. -/
theorem start_mem (h : Move c i c' ms ts) {mode : ExecMode} {code : String} (hm : .start mode code ∈ ms) :
    i = mode.press code ∧ c.resyncRequired = false := by
  cases h with
  | start mode' code' _ hr =>
    simp only [List.mem_singleton, ClientMessage.start.injEq] at hm
    obtain ⟨rfl, rfl⟩ := hm
    exact ⟨rfl, hr⟩
  | _ => simp at hm

theorem ticket_session (h : Move c i c' ms ts) {t : AckTicket} (ht : t ∈ ts) : t.session = c.session := by
  cases h with
  | event =>
    split at ht
    · rw [List.mem_singleton.mp ht]
    · cases ht
  | _ => cases ht

end Move

/-! ## Runs -/

/-- An input with the client that it found. -/
structure Turn (K : Type) [Scalar K] where
  before : App K
  input : Input K

def Turn.actions (t : Turn K) : List Action := (t.before.answer t.input).2

/-- The session, by its number, that a turn found running or ended. -/
def Turn.session (t : Turn K) : Nat := t.before.controller.session

/-- The messages sent in some turns. -/
def sentIn (turns : List (Turn K)) : List ClientMessage := turns.flatMap fun t => messagesOf t.actions

/-- The tickets issued in some turns. -/
def issuedIn (turns : List (Turn K)) : List AckTicket := turns.flatMap fun t => ticketsOf t.actions

@[simp] theorem sentIn_nil : sentIn ([] : List (Turn K)) = [] := rfl

@[simp] theorem sentIn_snoc (turns : List (Turn K)) (a : App K) (i : Input K) :
    sentIn (turns ++ [⟨a, i⟩]) = sentIn turns ++ messagesOf (a.answer i).2 := by
  simp [sentIn, Turn.actions]

@[simp] theorem issuedIn_nil : issuedIn ([] : List (Turn K)) = [] := rfl

@[simp] theorem issuedIn_snoc (turns : List (Turn K)) (a : App K) (i : Input K) :
    issuedIn (turns ++ [⟨a, i⟩]) = issuedIn turns ++ ticketsOf (a.answer i).2 := by
  simp [issuedIn, Turn.actions]

/-- With the turns `past` behind it, the client `a` comes to be `b` in the
turns `post`; `allows` says which input the client's surroundings may give
next, after all turns so far. -/
inductive Leads (allows : List (Turn K) → App K → Input K → Prop) (past : List (Turn K)) (a : App K) :
    List (Turn K) → App K → Prop
  | nil : Leads allows past a [] a
  | turn {post b} (i : Input K) : Leads allows past a post b → allows (past ++ post) b i →
      Leads allows past a (post ++ [⟨b, i⟩]) (b.answer i).1

/-- What holds at first and is kept by every allowed input holds after any run. -/
theorem Leads.invariant {allows : List (Turn K) → App K → Input K → Prop} {past post : List (Turn K)}
    {a b : App K} {I : List (Turn K) → App K → Prop} (h : Leads allows past a post b) (h₀ : I past a)
    (hs : ∀ {turns c i}, I turns c → allows turns c i → I (turns ++ [⟨c, i⟩]) (c.answer i).1) :
    I (past ++ post) b := by
  induction h with
  | nil => simpa using h₀
  | turn i _ ha ih =>
    rw [← List.append_assoc]
    exact hs ih ha

theorem Leads.cons {allows : List (Turn K) → App K → Input K → Prop} {past post : List (Turn K)}
    {a b : App K} {i : Input K} (hi : allows past a i)
    (h : Leads allows (past ++ [⟨a, i⟩]) (a.answer i).1 post b) : Leads allows past a (⟨a, i⟩ :: post) b := by
  induction h with
  | nil => exact .turn i .nil (by simpa using hi)
  | turn j _ hj ih => exact .turn j ih (by simpa using hj)

/-! ### Runs from a list of inputs -/

/-- The client after some inputs. -/
def App.after (a : App K) : List (Input K) → App K
  | [] => a
  | i :: is => (a.answer i).1.after is

/-- The turns that some inputs make. -/
def App.turns (a : App K) : List (Input K) → List (Turn K)
  | [] => []
  | i :: is => ⟨a, i⟩ :: (a.answer i).1.turns is

/-- Each of some inputs is allowed when its turn comes. -/
def Allowed (allows : List (Turn K) → App K → Input K → Prop) (past : List (Turn K)) (a : App K) :
    List (Input K) → Prop
  | [] => True
  | i :: is => allows past a i ∧ Allowed allows (past ++ [⟨a, i⟩]) (a.answer i).1 is

theorem Allowed.leads {allows : List (Turn K) → App K → Input K → Prop} :
    ∀ {past : List (Turn K)} {a : App K} {is : List (Input K)}, Allowed allows past a is →
      Leads allows past a (a.turns is) (a.after is)
  | _, _, [], _ => .nil
  | _, _, _ :: _, h => .cons h.1 (Allowed.leads h.2)

end FarmClient
