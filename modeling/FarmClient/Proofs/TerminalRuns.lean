/-
A run at the terminal is one session. The run hands nothing to a client that is
idle, so that the start it opens with stays the only one: what is sent is one
block (`Block`), filled by whatever frames, lines and pacing waits come in
between. The first event that ends a session ends the run, well or badly.
-/
import FarmClient.Terminal.Program
import FarmClient.Proofs.SessionBlocks
import FarmClient.Proofs.WireRoundTrip

namespace FarmClient

variable {K : Type} [Scalar K]

/-! ## A session that goes on -/

/-- A running session starts no other. -/
theorem Move.session_of_active {c c' : Controller} {i : Input K} {ms ts} (h : Move c i c' ms ts)
    (ha : c.isActive = true) : c'.session = c.session := by
  cases h with
  | start _ _ hidle => exact absurd hidle (Controller.isActive_eq_true.mp ha)
  | rest _ hn => exact hn
  | _ => rfl

/-- It goes on until something ends it. -/
theorem Move.active_of_active {c c' : Controller} {i : Input K} {ms ts} (h : Move c i c' ms ts)
    (ha : c.isActive = true) (hi : ¬ i.EndsSession) : c'.isActive = true := by
  cases h with
  | start _ _ hidle => exact absurd hidle (Controller.isActive_eq_true.mp ha)
  | pause | resume => rfl
  | ask | permit | event => exact ha
  | cancel => exact absurd .abort hi
  | finish r hm => exact absurd (.done r hm) hi
  | lose => exact absurd .lost hi
  | rest hs =>
    rw [Controller.isActive_eq_true] at ha ⊢
    rwa [hs]

/-- What is added to a block leaves its mode and its code. -/
theorem Block.eq_of_append {b b' : Block} {ms : List ClientMessage} (h : b'.messages = b.messages ++ ms) :
    b'.mode = b.mode ∧ b'.code = b.code := by
  have hstart := (List.cons.inj h).1
  simpa using hstart

namespace Terminal

/-- How the terminal's way of running a script is called on the wire. -/
def RunMode.mode : RunMode → ExecMode
  | .auto => .autoStep
  | .manual => .manualStep

/-! ## Carrying out actions -/

namespace Session

variable {s : Session K}

/-- While frames reach the server, all messages are sent and all waits begun. -/
theorem perform_of_reachable (h : s.reachable = true) (actions : List Action) :
    ∃ waits, (s.perform actions).1 = { s with waits := s.waits ++ waits } ∧
      waits.map (·.ticket) = ticketsOf actions ∧
      (s.perform actions).2.sent = (messagesOf actions).map ClientMessage.toJson ∧
      (s.perform actions).2.failed = false := by
  induction actions generalizing s with
  | nil => exact ⟨[], by simp [perform], rfl, rfl, rfl⟩
  | cons action actions ih =>
    cases action with
    | send m =>
      obtain ⟨waits, hs, htickets, hsent, hfailed⟩ := ih h
      rw [perform, if_pos h]
      exact ⟨waits, hs, htickets, by simp [hsent], hfailed⟩
    | scheduleAck ticket after =>
      let wait : PacingWait := ⟨s.now + after, ticket⟩
      have hw : ({ s with waits := s.waits ++ [wait] } : Session K).reachable = true := h
      obtain ⟨waits, hs, htickets, hsent, hfailed⟩ := ih hw
      refine ⟨wait :: waits, ?_, by simp [htickets, wait], hsent, hfailed⟩
      rw [perform, hs]
      simp
    | _ =>
      obtain ⟨waits, hs, htickets, hsent, hfailed⟩ := ih h
      simp only [perform]
      exact ⟨waits, hs, htickets, hsent, hfailed⟩

theorem act_of_reachable (h : s.reachable = true) (answer : App K → App K × List Action) :
    ∃ waits, (s.act answer).1 = { s with app := (answer s.app).1, waits := s.waits ++ waits } ∧
      waits.map (·.ticket) = ticketsOf (answer s.app).2 ∧
      (s.act answer).2.sent = (messagesOf (answer s.app).2).map ClientMessage.toJson ∧
      (s.act answer).2.failed = false := by
  have happ : ({ s with app := (answer s.app).1 } : Session K).reachable = true := h
  exact perform_of_reachable happ (answer s.app).2

/-- The script's session is the only one so far: its block has been sent, and it is open while the session runs. -/
structure Serving (mode : ExecMode) (code : String) (issued : List AckTicket) (s : Session K) (sent : List String) :
    Prop where
  reachable : s.reachable = true
  script : s.code = code
  session : s.app.controller.session = 1
  tickets : TicketsOK s.app.controller issued
  waits : ∀ w ∈ s.waits, w.ticket ∈ issued
  block : ∃ b : Block, b.mode = mode ∧ b.code = code ∧ Fills s.app.controller.state [b] b.messages ∧
    sent = b.messages.map ClientMessage.toJson

variable {mode : ExecMode} {code : String} {issued : List AckTicket} {sent : List String}

/-- **One input** of a running session fills its block further. -/
theorem Serving.answer (h : s.Serving mode code issued sent) (ha : s.app.controller.isActive = true) (i : Input K)
    (hi : ∀ t, i = .elapsed t → t ∈ issued) : ∃ issued', issued ⊆ issued' ∧
      (s.act (·.answer i)).1.Serving mode code issued' (sent ++ (s.act (·.answer i)).2.sent) ∧
      (s.act (·.answer i)).2.failed = false ∧ ((s.act (·.answer i)).1.isIdle = true ↔ i.EndsSession) := by
  have hm := s.app.answer_move i
  obtain ⟨waits, hs, htickets, hsent, hfailed⟩ := act_of_reachable h.reachable (·.answer i)
  have hsession := hm.session_of_active ha
  obtain ⟨b, hmode, hcode, hfills, rfl⟩ := h.block
  obtain ⟨bs, hlength, hfills'⟩ := hfills.move hm h.tickets hi
  -- the blocks are as many as before
  obtain ⟨b', rfl⟩ : ∃ b', bs = [b'] := List.length_eq_one_iff.mp (by simpa [hsession] using hlength)
  have hmessages : b'.messages = b.messages ++ messagesOf (s.app.answer i).2 := by simpa using hfills'.eq.symm
  obtain ⟨hmode', hcode'⟩ := Block.eq_of_append hmessages
  rw [hs, hsent, hfailed]
  refine ⟨issued ++ ticketsOf (s.app.answer i).2, List.subset_append_left _ _, ?_, rfl, ?_⟩
  · refine ⟨h.reachable, h.script, hsession.trans h.session, h.tickets.move hm, ?_, b', ?_, ?_, ?_, ?_⟩
    · intro w hw
      rcases List.mem_append.mp hw with hw | hw
      · exact List.mem_append_left _ (h.waits w hw)
      · exact List.mem_append_right _ (htickets ▸ List.mem_map_of_mem hw)
    · exact hmode'.trans hmode
    · exact hcode'.trans hcode
    · rw [hmessages]
      exact hfills'
    · rw [hmessages, List.map_append]
  · simp only [isIdle, Bool.not_eq_true', Controller.isActive_eq_false]
    refine ⟨fun hidle => ?_, fun hends => hends.idle s.app⟩
    by_cases hends : i.EndsSession
    · exact hends
    · exact absurd hidle (Controller.isActive_eq_true.mp (hm.active_of_active ha hends))

/-- Tickets that come back one after the other end no session. -/
theorem Serving.elapse (h : s.Serving mode code issued sent) (ha : s.app.controller.isActive = true)
    {tickets : List AckTicket} (ht : ∀ t ∈ tickets, t ∈ issued) : ∃ issued', issued ⊆ issued' ∧
      (s.elapse tickets).1.Serving mode code issued' (sent ++ (s.elapse tickets).2.sent) ∧
      (s.elapse tickets).2.failed = false ∧ (s.elapse tickets).1.isIdle = false := by
  induction tickets generalizing s issued sent with
  | nil =>
    simp only [Session.elapse, Report.empty, List.append_nil]
    exact ⟨issued, List.Subset.refl _, h, trivial, by simp [isIdle, ha]⟩
  | cons t tickets ih =>
    have hnot : ¬ (Input.elapsed t : Input K).EndsSession := by
      rintro (_ | ⟨r, hr⟩ | _)
      cases hr
    obtain ⟨issued', hsub, hserving, hfailed, hends⟩ := h.answer ha (.elapsed t) fun t' ht' => by
      cases ht'
      exact ht t List.mem_cons_self
    have ha' : (s.act (·.answer (.elapsed t))).1.app.controller.isActive = true := by
      have hactive := mt hends.mp hnot
      simpa [isIdle] using hactive
    obtain ⟨issued'', hsub', hserving', hfailed', hidle⟩ :=
      ih hserving ha' fun t' ht' => hsub (ht t' (List.mem_cons_of_mem _ ht'))
    have helapse : s.elapse (t :: tickets) =
        (((s.act (·.answer (.elapsed t))).1.elapse tickets).1,
          (s.act (·.answer (.elapsed t))).2.append ((s.act (·.answer (.elapsed t))).1.elapse tickets).2) := rfl
    rw [helapse]
    refine ⟨issued'', List.Subset.trans hsub hsub', ?_, ?_, hidle⟩
    · rw [List.append_assoc] at hserving'
      exact hserving'
    · simp [Report.append, hfailed, hfailed']

theorem Serving.passTo (h : s.Serving mode code issued sent) (ha : s.app.controller.isActive = true) (moment : Nat) :
    ∃ issued', issued ⊆ issued' ∧
      (s.passTo moment).1.Serving mode code issued' (sent ++ (s.passTo moment).2.sent) ∧
      (s.passTo moment).2.failed = false ∧ (s.passTo moment).1.isIdle = false := by
  have hrest : ({ s with now := moment, waits := s.waits.filter (moment < ·.due) } : Session K).Serving
      mode code issued sent :=
    { h with waits := fun w hw => h.waits w (List.mem_filter.mp hw).1 }
  refine hrest.elapse ha fun t ht => ?_
  obtain ⟨w, hw, rfl⟩ := List.mem_map.mp ht
  exact h.waits w (List.mem_filter.mp (List.mem_mergeSort.mp hw)).1

end Session

/-! ## Events -/

/-- What an input is to the client; a line that is no command is nothing. -/
def SessionInput.input? (code : String) : SessionInput → Option (Input K)
  | .text frame => some (.text frame)
  | .line typed =>
    (TerminalCommand.parse? typed).map fun
      | .pauseResume => .toggleRun code
      | .step => .step code
      | .abort => .abort
  | .interrupt => some .abort
  | .lost => some .connectionLost
  | .elapsed ticket => some (.elapsed ticket)

/-- The ending that an event brings, if it ends a run. -/
def RunEvent.ending? : RunEvent → Option (Except RunError Unit)
  | .input (.text text) =>
    match ServerMessage.read text.toList with
    | .ok (.done _) => some (.ok ())
    | _ => none
  | .input (.line line) => if TerminalCommand.parse? line = some .abort then some (.ok ()) else none
  | .input .interrupt => some (.ok ())
  | .closed => some (.error .serverClosed)
  | .broken => some (.error .connectionBroken)
  | _ => none

theorem Session.handle_eq (s : Session K) (input : SessionInput) :
    s.handle input = match (input.input? s.code : Option (Input K)) with
      | some i => s.act (·.answer i)
      | none => (s, .empty) := by
  cases input with
  | line line =>
    have hanswer : s.handle (.line line) = s.act (answerLine s.code line) := rfl
    rw [hanswer, SessionInput.input?]
    unfold answerLine
    cases TerminalCommand.parse? line with
    | none => rfl
    | some c => cases c <;> rfl
  | _ => rfl

/-- Only a script that is done and an abort bring a good ending. -/
theorem SessionInput.ends_iff {input : SessionInput} {code : String} {i : Input K} (hi : input.input? code = some i)
    (hlost : input ≠ .lost) : i.EndsSession ↔ (RunEvent.input input).ending? = some (.ok ()) := by
  cases input with
  | text frame =>
    cases hi
    have hends : (Input.text frame : Input K).EndsSession ↔
        ∃ r, (ServerMessage.read frame.toList).toOption = some (.done r) :=
      ⟨fun h => by cases h with | done r h => exact ⟨r, h⟩, fun ⟨r, h⟩ => .done r h⟩
    rw [hends, RunEvent.ending?]
    cases ServerMessage.read frame.toList with
    | error e => simp [Except.toOption]
    | ok m => cases m <;> simp [Except.toOption]
  | line typed =>
    obtain ⟨command, hparse, rfl⟩ := Option.map_eq_some_iff.mp hi
    simp only [RunEvent.ending?, hparse]
    cases command with
    | abort => exact iff_of_true .abort rfl
    | pauseResume | step =>
      refine iff_of_false (fun h => ?_) (by simp)
      cases h with
      | done r h => cases h
  | interrupt =>
    cases hi
    exact iff_of_true .abort rfl
  | lost => exact absurd rfl hlost
  | elapsed ticket =>
    cases hi
    refine iff_of_false (fun h => ?_) (by simp [RunEvent.ending?])
    cases h with
    | done r h => cases h

/-- A line that is no command brings none. -/
theorem SessionInput.ending?_of_none {input : SessionInput} {code : String}
    (hi : (input.input? code : Option (Input K)) = none) : (RunEvent.input input).ending? = none := by
  cases input with
  | line typed =>
    have hparse : TerminalCommand.parse? typed = none := Option.map_eq_none_iff.mp hi
    simp [RunEvent.ending?, hparse]
  | _ => cases hi

theorem SessionInput.ending?_cases (input : SessionInput) :
    (RunEvent.input input).ending? = none ∨ (RunEvent.input input).ending? = some (.ok ()) := by
  cases input with
  | text frame =>
    simp only [RunEvent.ending?]
    split
    · exact .inr rfl
    · exact .inl rfl
  | line typed =>
    simp only [RunEvent.ending?]
    split
    · exact .inr rfl
    · exact .inl rfl
  | interrupt => exact .inr rfl
  | lost | elapsed => exact .inl rfl

theorem SessionInput.eq_elapsed {input : SessionInput} {code : String} {ticket : AckTicket}
    (hi : input.input? code = some (.elapsed ticket : Input K)) : input = .elapsed ticket := by
  cases input with
  | elapsed t =>
    cases hi
    rfl
  | line typed =>
    obtain ⟨command, -, hcommand⟩ := Option.map_eq_some_iff.mp hi
    cases command <;> cases hcommand
  | _ => cases hi

/-! ## Runs -/

namespace Run

/-- What can happen next: only the run itself gives the connection up, and a ticket comes back from a wait. -/
def Admits (r : Run K) : RunEvent → Prop
  | .input .lost => False
  | .input (.elapsed ticket) => ∃ w ∈ r.session.waits, w.ticket = ticket
  | _ => True

/-- Events that can happen one after the other. -/
def Possible (r : Run K) : List RunEvent → Prop
  | [] => True
  | e :: es => r.Admits e ∧ (r.feed e).Possible es

/-- One session has been started, all its frames have been sent, and the run goes on as long as the session. -/
structure Sound (mode : ExecMode) (code : String) (r : Run K) : Prop where
  serving : ∃ issued, r.session.Serving mode code issued r.report.sent
  sent : r.report.failed = false
  isOver_eq : r.isOver = r.session.isIdle

variable {mode : ExecMode} {code : String} {r : Run K}

theorem feed_of_over (h : r.isOver = true) (e : RunEvent) : r.feed e = r := by
  unfold feed
  rw [if_pos h]

theorem foldl_feed_of_over (h : r.isOver = true) (es : List RunEvent) : es.foldl feed r = r := by
  induction es with
  | nil => rfl
  | cons e es ih => rw [List.foldl_cons, feed_of_over h, ih]

theorem close_ending (r : Run K) : r.close.ending = r.ending := by
  unfold close
  split <;> rfl

theorem close_sent (r : Run K) : r.close.report.sent = r.report.sent := by
  unfold close
  split
  · exact List.append_nil _
  · rfl

/-- What a run takes over from an input or a moment. -/
theorem Sound.settle (h : r.Sound mode code) {s : Session K} {report : Report} {issued : List AckTicket}
    (hs : s.Serving mode code issued (r.report.sent ++ report.sent)) (hfailed : report.failed = false) :
    (r.settle (s, report)).Sound mode code ∧
      (r.settle (s, report)).ending = if s.isIdle then some (.ok ()) else none := by
  have hending : (r.settle (s, report)).ending = if s.isIdle then some (.ok ()) else none := by
    simp [Run.settle, endingAfter, hfailed]
  refine ⟨⟨⟨issued, hs⟩, ?_, ?_⟩, hending⟩
  · simp [Run.settle, record, Report.append, h.sent, hfailed]
  · rw [isOver, hending]
    cases hidle : s.isIdle <;> simp [Run.settle, record, hidle]

/-- Losing the connection ends the session, and sends nothing that is not of its block. -/
theorem Sound.lose (h : r.Sound mode code) (ha : r.session.app.controller.isActive = true) (reason : RunError) :
    (r.lose reason).Sound mode code := by
  obtain ⟨issued, hserving⟩ := h.serving
  obtain ⟨issued', -, hs, hfailed, hends⟩ := hserving.answer ha .connectionLost fun t ht => by cases ht
  refine ⟨⟨issued', hs⟩, ?_, ?_⟩
  · change (r.report.failed || (r.session.act (·.answer .connectionLost)).2.failed) = false
    rw [h.sent, hfailed]
    rfl
  · exact (hends.mpr .lost).symm

/-- An input of a session that goes on ends it with an abort or the end of the script. -/
theorem Sound.handle (h : r.Sound mode code) (ha : r.session.app.controller.isActive = true) {input : SessionInput}
    (he : r.Admits (.input input)) : (r.settle (r.session.handle input)).Sound mode code ∧
      (r.settle (r.session.handle input)).ending = (RunEvent.input input).ending? := by
  obtain ⟨issued, hserving⟩ := h.serving
  rw [Session.handle_eq]
  cases hi : (input.input? r.session.code : Option (Input K)) with
  | none =>
    have hsame : r.session.Serving mode code issued (r.report.sent ++ Report.empty.sent) :=
      (List.append_nil r.report.sent).symm ▸ hserving
    obtain ⟨hsound, hending⟩ := h.settle hsame rfl
    refine ⟨hsound, hending.trans ?_⟩
    rw [SessionInput.ending?_of_none hi, Session.isIdle, ha]
    rfl
  | some i =>
    have hlost : input ≠ .lost := fun hl => by
      rw [hl] at he
      exact he
    have hticket (t : AckTicket) (ht : i = .elapsed t) : t ∈ issued := by
      rw [ht] at hi
      rw [SessionInput.eq_elapsed hi] at he
      obtain ⟨w, hw, rfl⟩ := he
      exact hserving.waits w hw
    obtain ⟨issued', -, hs, hfailed, hends⟩ := hserving.answer ha i hticket
    obtain ⟨hsound, hending⟩ := h.settle hs hfailed
    refine ⟨hsound, hending.trans ?_⟩
    rw [SessionInput.ends_iff hi hlost] at hends
    obtain hno | hok := input.ending?_cases
    · rw [if_neg (by simp [hends, hno]), hno]
    · rw [if_pos (hends.mpr hok), hok]

/-- **One event** keeps a run sound, and the first that brings an ending ends it. -/
theorem Sound.feed (h : r.Sound mode code) {e : RunEvent} (he : r.Admits e) :
    (r.feed e).Sound mode code ∧ (r.feed e).ending = r.ending.or e.ending? := by
  cases hover : r.isOver with
  | true =>
    obtain ⟨ending, hending⟩ := Option.isSome_iff_exists.mp hover
    rw [feed_of_over hover, hending]
    exact ⟨h, rfl⟩
  | false =>
    have ha : r.session.app.controller.isActive = true := by
      have hidle := h.isOver_eq.symm.trans hover
      simpa [Session.isIdle] using hidle
    have hnone : r.ending = none := by simpa [isOver] using hover
    unfold Run.feed
    rw [hnone, Option.none_or, if_neg (by simp [hover])]
    cases e with
    | input input => exact h.handle ha he
    | moment moment =>
      obtain ⟨issued, hserving⟩ := h.serving
      obtain ⟨issued', -, hs, hfailed, hidle⟩ := hserving.passTo ha moment
      obtain ⟨hsound, hending⟩ := h.settle hs hfailed
      exact ⟨hsound, hending.trans (by rw [hidle]; rfl)⟩
    | closed => exact ⟨h.lose ha .serverClosed, rfl⟩
    | broken => exact ⟨h.lose ha .connectionBroken, rfl⟩

/-- Any events that can happen keep it sound. -/
theorem Sound.run : ∀ {r : Run K} {es : List RunEvent}, r.Sound mode code → r.Possible es →
    (es.foldl Run.feed r).Sound mode code ∧
      (es.foldl Run.feed r).ending = r.ending.or (es.findSome? RunEvent.ending?)
  | _, [], h, _ => ⟨h, by simp⟩
  | r, e :: es, h, hp => by
    obtain ⟨hsound, hending⟩ := h.feed hp.1
    obtain ⟨hsound', hending'⟩ := hsound.run hp.2
    refine ⟨hsound', hending'.trans ?_⟩
    rw [hending, Option.or_assoc, List.findSome?_cons]
    cases e.ending? <;> rfl

end Run

/-! ## The beginning -/

/-- The button of a mode starts the first session of a fresh client. -/
theorem answer_press {a : App K} {interval : Nat} (h : a.controller = .fresh interval) (mode : ExecMode)
    (code : String) : (a.answer (mode.press code)).1.controller =
        { Controller.fresh interval with session := 1, state := Controller.startState mode } ∧
      messagesOf (a.answer (mode.press code)).2 = [.start mode code] ∧
      ticketsOf (a.answer (mode.press code)).2 = [] := by
  cases mode with
  | autoStep =>
    simp [ExecMode.press, App.answer, App.toggleRun, App.control, Controller.toggleRun, Controller.start, h,
      Controller.fresh, Controller.startState]
  | manualStep =>
    simp [ExecMode.press, App.answer, App.step, App.control, Controller.step, Controller.start, h,
      Controller.fresh, Controller.startState]

theorem Session.connect_fresh {app : App K} {interval : Nat} (h : app.controller = .fresh interval) (code : String) :
    (Session.fresh app code).connect = (.fresh app code, ⟨[], ["[system] connected"], false⟩) := by
  have hopen : app.connected = (app, [.log "[system] connected"]) :=
    Prod.ext rfl (by simp [App.connected, App.control, Controller.connected, h, Controller.fresh])
  simp [Session.connect, Session.act, Session.fresh, hopen, Session.perform, Report.empty, consoleLine?]

theorem Session.begin_eq (s : Session K) (mode : RunMode) :
    s.begin mode = s.act (·.answer (mode.mode.press s.code)) := by
  cases mode <;> rfl

/-- A run that has been opened has started its session. -/
theorem Run.Sound.opened {app : App K} {interval : Nat} (h : app.controller = .fresh interval) (code : String)
    (mode : RunMode) : (Run.opened app code mode).Sound mode.mode code := by
  have hbegin : (Session.fresh app code).begin mode = (Session.fresh app code).act (·.answer (mode.mode.press code)) :=
    Session.begin_eq _ mode
  obtain ⟨hcontroller, hmessages, hnone⟩ := answer_press h mode.mode code
  obtain ⟨waits, hs, htickets, hsent, hfailed⟩ :=
    Session.act_of_reachable (s := .fresh app code) rfl (·.answer (mode.mode.press code))
  have happ : (Session.fresh app code).app = app := rfl
  rw [happ] at hs hsent htickets
  obtain rfl : waits = [] := List.map_eq_nil_iff.mp (htickets.trans hnone)
  have hrun : Run.opened app code mode =
      ⟨((Session.fresh app code).begin mode).1,
        ⟨((Session.fresh app code).begin mode).2.sent,
          ["[system] connected"] ++ ((Session.fresh app code).begin mode).2.printed,
          ((Session.fresh app code).begin mode).2.failed⟩, none⟩ := by
    simp [Run.opened, Run.record, Session.connect_fresh h, Report.append, Report.empty]
  have hserving : ((Session.fresh app code).begin mode).1.Serving mode.mode code []
      ((Session.fresh app code).begin mode).2.sent := by
    rw [hbegin, hs, hsent, hmessages]
    have hfills : Fills (app.answer (mode.mode.press code)).1.controller.state [⟨mode.mode, code, 0, false⟩]
        [.start mode.mode code] := by
      rw [hcontroller]
      exact Fills.nil.start mode.mode code
    exact {
      reachable := rfl
      script := rfl
      session := congrArg Controller.session hcontroller
      tickets := fun t ht => absurd ht List.not_mem_nil
      waits := fun w hw => absurd hw List.not_mem_nil
      block := ⟨_, rfl, rfl, hfills, rfl⟩ }
  have hactive : ((Session.fresh app code).begin mode).1.isIdle = false := by
    rw [hbegin, hs]
    simp only [Session.isIdle, hcontroller]
    cases mode <;> rfl
  rw [hrun]
  exact ⟨⟨[], hserving⟩, by rw [hbegin]; exact hfailed, hactive.symm⟩

theorem fresh_of_settings (settings : Settings K) (farm : Farm) :
    ((App.ofSettings settings).resyncIfFits farm).controller = .fresh settings.interval := by
  simp only [App.resyncIfFits, App.resync]
  cases (App.ofSettings settings).scene.apply farm <;> rfl

theorem fresh_of_sessionApp {b : Bootstrap} {interval : Option Nat} {app : App Float}
    (h : sessionApp b interval = .ok app) : ∃ interval, app.controller = .fresh interval := by
  unfold sessionApp App.ofBootstrap App.ofBootstrapWithInterval at h
  cases hsettings : (Settings.ofConfig b.config : Except (ConfigError Float) (Settings Float)) with
  | error e => cases interval <;> rw [hsettings] at h <;> cases h
  | ok settings =>
    cases interval <;> rw [hsettings] at h <;> cases h <;> exact ⟨_, fresh_of_settings _ _⟩

/-- What is prepared is the script's text, and a client in which nothing has been started. -/
theorem RunOptions.prepare_eq_ok {o : RunOptions} {s : Surroundings} {code : String} {app : App Float}
    (h : o.prepare s = .ok (code, app)) : s.script = some code ∧ ∃ interval, app.controller = .fresh interval := by
  unfold RunOptions.prepare at h
  cases hscript : s.script with
  | none =>
    rw [hscript] at h
    cases h
  | some script =>
    cases hpayload : s.server.bootstrap.payload o.endpoints.bootstrap with
    | error e =>
      rw [hscript, hpayload] at h
      cases h
    | ok payload =>
      cases happ : sessionApp payload o.interval with
      | error e =>
        simp only [hscript, hpayload, happ, bind, Except.bind] at h
        cases h
      | ok made =>
        simp only [hscript, hpayload, happ, bind, Except.bind] at h
        split at h
        · cases h
          exact ⟨rfl, fresh_of_sessionApp happ⟩
        · cases h

/-- The frames that messages are sent as are read back as these messages. -/
theorem forall₂_read_toJson (messages : List ClientMessage) :
    List.Forall₂ (fun m frame => ClientMessage.read frame.toList = .ok m) messages
      (messages.map ClientMessage.toJson) := by
  rw [List.forall₂_map_right_iff, List.forall₂_same]
  exact fun m _ => m.read_toJson

/-- **One session for each run.** Once the connection is open, whatever frames,
lines and waits come in any order, a start with the script's text is sent, then
only permits of its mode, then at most an abort, each as a frame that is read
back as that message. The run is over as soon as the
client is idle, and nothing moves it then. It ends well with the end of the
script or an abort, and badly if the connection is closed or breaks before. -/
theorem run_is_one_session {o : RunOptions} {s : Surroundings} {code : String} {app : App Float}
    (h : o.prepare s = .ok (code, app)) {events : List RunEvent}
    (hevents : (Run.opened app code o.mode).Possible events) :
    let r := events.foldl Run.feed (Run.opened app code o.mode)
    s.script = some code ∧
      (∃ (permits : Nat) (aborted : Bool),
        let messages := ClientMessage.start o.mode.mode code ::
          (List.replicate permits o.mode.mode.permit ++ if aborted then [.abort] else [])
        r.report.sent = messages.map ClientMessage.toJson ∧
          List.Forall₂ (fun m frame => ClientMessage.read frame.toList = .ok m) messages r.report.sent) ∧
      r.report.failed = false ∧
      r.isOver = r.session.isIdle ∧ (r.isOver = true → ∀ more : List RunEvent, more.foldl Run.feed r = r) ∧
      r.ending = events.findSome? RunEvent.ending? ∧
      r.close.ending = r.ending ∧ r.close.report.sent = r.report.sent := by
  intro r
  obtain ⟨hscript, interval, hfresh⟩ := RunOptions.prepare_eq_ok h
  obtain ⟨hsound, hending⟩ := (Run.Sound.opened hfresh code o.mode).run hevents
  obtain ⟨_, hserving⟩ := hsound.serving
  obtain ⟨⟨mode, code', permits, aborted⟩, hmode, rfl, -, hsent⟩ := hserving.block
  subst hmode
  exact ⟨hscript, ⟨permits, aborted, hsent, hsent ▸ forall₂_read_toJson _⟩, hsound.sent, hsound.isOver_eq, fun hover => Run.foldl_feed_of_over hover,
    hending, r.close_ending, r.close_sent⟩

/-- A script beside a server of which nothing is asked but a farm and an open channel. -/
def openServer : Surroundings := ⟨none, some "till()", ⟨.answered ⟨200, "OK"⟩ ExactFarm.payload, true, []⟩⟩

def openRun : RunOptions := ⟨"farm.py", .auto, ⟨⟨"http", none, "/api/bootstrap"⟩, ⟨"ws", none, "/ws/run"⟩⟩, none⟩

/-- The frame of an instruction that has been executed. -/
def executedText : String := "\x7b\"type\":\"event\",\"event\":[1,0,0,5]\x7d"

/-- An instruction is acknowledged after a pause; then the script is aborted, before the connection is closed. -/
def abortedEvents : List RunEvent := [.input (.text executedText), .moment 1000, .input (.line "q"), .closed]

theorem run_is_one_session_aborted : ∃ code app, openRun.prepare openServer = .ok (code, app) ∧
    (Run.opened app code .auto).Possible abortedEvents ∧
      let r := abortedEvents.foldl Run.feed (Run.opened app code .auto)
      r.report.sent = ["\x7b\"type\":\"start\",\"mode\":\"auto_step\",\"code\":\"till()\"\x7d",
          "\x7b\"type\":\"ack\"\x7d", "\x7b\"type\":\"abort\"\x7d"] ∧
        (∃ (permits : Nat) (aborted : Bool),
          List.Forall₂ (fun m frame => ClientMessage.read frame.toList = .ok m)
            (.start .autoStep code :: (List.replicate permits .ack ++ if aborted then [.abort] else []))
            r.report.sent) ∧
        r.ending = some (.ok ()) := by
  have hframes : (openRun.prepare openServer).toOption.map (fun prepared =>
      (abortedEvents.foldl Run.feed (Run.opened prepared.2 prepared.1 .auto)).report.sent) =
        some ["\x7b\"type\":\"start\",\"mode\":\"auto_step\",\"code\":\"till()\"\x7d",
          "\x7b\"type\":\"ack\"\x7d", "\x7b\"type\":\"abort\"\x7d"] := by decide +kernel
  have hexecuted : (RunEvent.input (.text executedText)).ending?.isNone = true := by decide +kernel
  have hquit : TerminalCommand.parse? "q" = some .abort := by decide +kernel
  have hfirst : abortedEvents.findSome? RunEvent.ending? = some (.ok ()) := by
    rw [abortedEvents, List.findSome?_cons, Option.isNone_iff_eq_none.mp hexecuted]
    simp [List.findSome?_cons, RunEvent.ending?, hquit]
  cases h : openRun.prepare openServer with
  | error e =>
    rw [h] at hframes
    cases hframes
  | ok prepared =>
    obtain ⟨code, app⟩ := prepared
    rw [h] at hframes
    have hevents : (Run.opened app code .auto).Possible abortedEvents := ⟨trivial, trivial, trivial, trivial, trivial⟩
    obtain ⟨-, ⟨permits, aborted, -, hread⟩, -, -, -, hending, -, -⟩ := run_is_one_session h hevents
    exact ⟨code, app, rfl, hevents, Option.some.inj hframes, ⟨permits, aborted, hread⟩, hending.trans hfirst⟩

end Terminal

end FarmClient
