/-
What one event does to a page that is running: to the application, the
channel, the sockets, the timers and the fetches. Every handler says once
what it does, and `Session.Turn` collects that for all events.
-/
import FarmClient.Proofs.PageActions

namespace FarmClient.Page

variable {K : Type} [Shown K]

namespace Session

/-! ## What an event does -/

/-- What an event comes to for the application, if it comes to anything. -/
def input? (s : Session K) (ready : Bool) : Event → Option (Input K)
  | .run code => if ready then some (.toggleRun (s.program code).2) else none
  | .step code => if ready then some (.step (s.program code).2) else none
  | .abort => if ready then some .abort else none
  | .reply reply named =>
    match (Page.running s ready).fetch? named with
    | some (_, .resync) => (s.tab.payload reply).toOption.map fun b => .resync b.farm
    | _ => none
  | .socketOpened _ => some .connected
  | .socketClosed _ _ => if s.channel.isNotOpen then none else some .connectionLost
  | .message _ text => text.map .text
  | .timer id =>
    match (Page.running s ready).timer? id with
    | some (_, .pacing ticket) => some (.elapsed ticket)
    | _ => none
  | .frame now =>
    let viewport := s.painter.viewport
    some (.frame (Scalar.ofDouble now) ⟨Scalar.ofDouble viewport.width, Scalar.ofDouble viewport.height⟩
      s.tab.browser.pictureSize?)
  | .pointerMoved x y =>
    let b := s.tab.browser.bounds
    some (.pointerMoved ⟨Scalar.ofDouble (Float.ofInt x - b.x), Scalar.ofDouble (Float.ofInt y - b.y)⟩)
  | .pointerLeft => some .pointerLeft
  | _ => none

/-- The messages that an event hands to the channel. -/
def hands (s : Session K) (ready : Bool) (e : Event) : List ClientMessage :=
  ((s.input? ready e).map fun i => messagesOf (s.app.answer i).2).getD []

/-- The channel that an event hands its messages to. -/
def prepared (s : Session K) : Event → Channel
  | .socketOpened named =>
    match (Page.running s true).socket? named with
    | some n => (s.channel.install (s.tab.sockets.set n .opened) n s.tab.luck).1
    | none => s.channel
  | .socketClosed _ _ =>
    if s.channel.isNotOpen then s.channel.disconnected else s.channel.disconnected.discard
  | _ => s.channel

/-- What an event does to the sockets and to the attempts to connect. -/
inductive Wiring (s : Session K) : Event → Session K → Prop
  | keep {e s'} : s.prepared e = s.channel → s'.tab.sockets = s.tab.sockets →
      s'.tab.net.reconnects ≤ s.tab.net.reconnects → Wiring s e s'
  | connect {id s'} : s'.tab.sockets = s.tab.sockets ++ [.connecting] →
      s'.tab.net.reconnects < s.tab.net.reconnects → Wiring s (.timer id) s'
  | opened {named n s'} : (Page.running s true).socket? named = some n →
      s'.tab.sockets = (s.channel.release (s.tab.sockets.set n .opened)).1 →
      s'.tab.net.reconnects ≤ s.tab.net.reconnects → Wiring s (.socketOpened named) s'
  | closed {named state n s'} : (Page.running s true).socket? named = some n →
      s'.tab.sockets = s.tab.sockets.set n state →
      s'.tab.net.reconnects ≤ s.tab.net.reconnects + 1 → s'.tab.fetches = s.tab.fetches →
      Wiring s (.socketClosed named state) s'
  | state {named state n s'} : (Page.running s true).socket? named = some n →
      s'.tab.sockets = s.tab.sockets.set n state →
      s'.tab.net.reconnects ≤ s.tab.net.reconnects → Wiring s (.socketState named state) s'

/-- **What an event does** to a session. -/
structure Turn (s : Session K) (ready : Bool) (e : Event) (s' : Session K) : Prop where
  /-- The application answers what the event comes to. -/
  app : s'.app = (s.input? ready e).elim s.app fun i => (s.app.answer i).1
  /-- The messages of the answer are handed to the channel, in order. -/
  channel : s'.channel = (s.prepared e).sendAll s.tab.sockets s.tab.luck (s.hands ready e)
  made : s.tab.fetchesMade ≤ s'.tab.fetchesMade
  fetches : ∀ f ∈ s'.tab.fetches, f ∈ s.tab.fetches ∨
    f.2 = .resync ∧ s.tab.fetchesMade < f.1 ∧ f.1 ≤ s'.tab.fetchesMade
  wiring : s.Wiring e s'

namespace Turn

variable {s s' : Session K} {ready : Bool} {e : Event}

/-- An event that leaves the sockets alone. -/
theorem of_serves (s₀ : Session K) (hp : s.prepared e = s.channel) (hn : s.tab.net.Steady s₀.tab.net)
    (hc : s₀.channel = s.channel)
    (ha : s₀.app = (s.input? ready e).elim s.app fun i => (s.app.answer i).1)
    (h : Serves s₀ (s.hands ready e) s') : Turn s ready e s' := by
  have hs : s₀.tab.sockets = s.tab.sockets := hn.sockets
  have hl : s₀.tab.luck = s.tab.luck := Tab.luck_eq hn.browser
  have hr := hn.trans h.net
  refine ⟨h.app.trans ha, ?_, hr.made, hr.fetches, .keep hp hr.sockets hr.reconnects⟩
  rw [h.channel, hp, hc, hs, hl]

/-- An event that comes to nothing for the application. -/
theorem of_steady (hp : s.prepared e = s.channel) (hi : s.input? ready e = none)
    (h : Serves s [] s') : Turn s ready e s' := by
  refine of_serves s hp (.refl _) rfl ?_ ?_
  · rw [hi]
    rfl
  · simpa [hands, hi] using h

/-- An event that the application answers. -/
theorem of_act (s₀ : Session K) (i : Input K) (answer : App K → App K × List Action)
    (hp : s.prepared e = s.channel) (hi : s.input? ready e = some i) (ha : answer s.app = s.app.answer i)
    (hn : s.tab.net.Steady s₀.tab.net) (h₀ : s₀.app = s.app) (hc : s₀.channel = s.channel) :
    Turn s ready e (s₀.act answer) := by
  have h := s₀.act_serves answer
  rw [h₀, ha] at h
  refine of_serves { s₀ with app := (s.app.answer i).1 } hp hn hc ?_ ?_
  · rw [hi]
    rfl
  · simpa [hands, hi] using h

end Turn

/-! ### Event by event -/

variable {s : Session K} {ready : Bool}

/-- Taking the program from the editor changes nothing but the calls. -/
theorem program_net (s : Session K) (code : Option String) :
    (s.program code).1.tab.net = s.tab.net ∧ (s.program code).1.app = s.app ∧
      (s.program code).1.channel = s.channel := by
  cases code with
  | some code => exact ⟨rfl, rfl, rfl⟩
  | none => exact ⟨by simp [program, onTab], rfl, rfl⟩

theorem run_turn (code : Option String) : Turn s true (.run code) (s.run code) := by
  obtain ⟨hn, ha, hc⟩ := s.program_net code
  exact .of_act (s.program code).1 (.toggleRun (s.program code).2) (·.toggleRun _) rfl rfl rfl (.of_eq hn) ha hc

theorem step_turn (code : Option String) : Turn s true (.step code) (s.step code) := by
  obtain ⟨hn, ha, hc⟩ := s.program_net code
  exact .of_act (s.program code).1 (.step (s.program code).2) (·.step _) rfl rfl rfl (.of_eq hn) ha hc

theorem abort_turn : Turn s true .abort s.abort :=
  .of_act s .abort (·.abort) rfl rfl rfl (.refl _) rfl rfl

theorem receive_turn (named : Option Nat) (text : Option String) :
    Turn s ready (.message named text) (s.receive text) := by
  cases text with
  | some text => exact .of_act s (.text text) (·.receive text) rfl rfl rfl (.refl _) rfl rfl
  | none => exact .of_steady rfl rfl (.of_net rfl rfl rfl)

theorem mem_of_fetch? {p : Page K} {named : Option Nat} {f : Nat × FetchTask} (h : p.fetch? named = some f) :
    f ∈ p.tab.fetches := by
  cases named with
  | some id => exact List.mem_of_find?_eq_some h
  | none => exact List.mem_of_mem_head? h

/-- A fetch has its reply. -/
def settled (s : Session K) (id : Nat) : Session K :=
  s.onTab fun t => { t with fetches := t.fetches.filter (·.1 ≠ id) }

theorem settled_steady (s : Session K) (id : Nat) : s.tab.net.Steady (s.settled id).tab.net :=
  { Net.Steady.refl s.tab.net with fetches := fun _ hf => .inl (List.mem_filter.mp hf).1 }

theorem receiveFarm_turn {named : Option Nat} {id : Nat} {reply : Reply}
    (hf : (Page.running s ready).fetch? named = some (id, .resync)) :
    Turn s ready (.reply reply named) ((s.settled id).receiveFarm reply) := by
  have hp : (s.settled id).tab.payload reply = s.tab.payload reply := by cases reply <;> rfl
  have hi : s.input? ready (.reply reply named) =
      (s.tab.payload reply).toOption.map fun b => .resync b.farm := by
    simp only [input?, hf]
  have hn := s.settled_steady id
  simp only [receiveFarm, hp]
  cases hb : s.tab.payload reply with
  | error e =>
    rw [hb] at hi
    have h := (s.settled id).resyncFailed_serves e.reason
    exact .of_steady rfl hi ⟨h.app, h.channel, hn.trans h.net⟩
  | ok b =>
    rw [hb] at hi
    have hh : s.hands ready (.reply reply named) = [] := by
      simp [hands, hi, Except.toOption, App.answer]
    simp only
    cases hr : s.app.resync b.farm with
    | error e =>
      have h := (s.settled id).resyncFailed_serves e.text
      have ha : (s.settled id).app = s.app := rfl
      rw [ha, hr]
      refine .of_serves (s.settled id) rfl hn rfl ?_ (hh ▸ h)
      simp [hi, Except.toOption, App.answer, App.resyncIfFits, hr, ha]
    | ok app =>
      have ha : (s.settled id).app = s.app := rfl
      rw [ha, hr]
      refine .of_serves { s.settled id with app } rfl hn rfl ?_ (hh ▸ .of_net ?_ rfl rfl)
      · simp [hi, Except.toOption, App.answer, App.resyncIfFits, hr]
      · simp [onTab]

/-! ### Connecting -/

/-- A timer is over. -/
def timedOut (s : Session K) (id : Nat) : Session K :=
  s.onTab fun t => { t with timers := t.timers.filter (·.1 ≠ id) }

theorem timedOut_steady (s : Session K) (id : Nat) : s.tab.net.Steady (s.timedOut id).tab.net :=
  { Net.Steady.refl s.tab.net with reconnects := List.filter_sublist.countP_le }

theorem timedOut_reconnects {named : Option Nat} {id : Nat}
    (ht : (Page.running s ready).timer? named = some (id, .reconnect)) :
    (s.timedOut id).tab.net.reconnects < s.tab.net.reconnects := by
  have hm : (id, TimerTask.reconnect) ∈ s.tab.timers := by
    cases named with
    | some id' => exact List.mem_of_find?_eq_some ht
    | none => exact List.mem_of_mem_head? ht
  obtain ⟨before, after, hl⟩ := List.append_of_mem hm
  have hb : (before.filter (·.1 ≠ id)).countP (·.2 = .reconnect) ≤ before.countP (·.2 = .reconnect) :=
    List.filter_sublist.countP_le
  have ha : (after.filter (·.1 ≠ id)).countP (·.2 = .reconnect) ≤ after.countP (·.2 = .reconnect) :=
    List.filter_sublist.countP_le
  have hx : ((id, TimerTask.reconnect) :: after).filter (·.1 ≠ id) = after.filter (·.1 ≠ id) :=
    List.filter_cons_of_neg (by simp)
  simp only [Net.reconnects, Tab.net, timedOut, onTab, hl, List.filter_append, hx, List.countP_append,
    List.countP_cons]
  simp only [decide_true, if_true]
  omega

theorem connect_net {s' : Session K} (h : s.connect = .ok s') :
    s'.tab.net = { s.tab.net with sockets := s.tab.sockets ++ [.connecting] } ∧ s'.app = s.app ∧
      s'.channel = s.channel := by
  unfold connect Tab.openSocket at h
  cases hr : s.tab.browser.require .websocket with
  | error e => simp [hr, bind, Except.bind, Except.map] at h
  | ok u =>
    simp only [hr, bind, Except.bind, pure, Except.pure, Except.map, Except.ok.injEq] at h
    subst h
    refine ⟨?_, rfl, rfl⟩
    rw [Tab.net_showStatus]
    rfl

theorem scheduleReconnect_net (s : Session K) :
    (s.scheduleReconnect.tab.net = s.tab.net ∨
      ∃ id, s.scheduleReconnect.tab.net = { s.tab.net with timers := s.tab.timers ++ [(id, .reconnect)] }) ∧
      s.scheduleReconnect.app = s.app ∧ s.scheduleReconnect.channel = s.channel := by
  unfold scheduleReconnect
  split
  · refine ⟨?_, rfl, rfl⟩
    cases ht : s.tab.setTimer? .reconnect (backoffDelay s.attempts) with
    | none => exact .inl (by simp)
    | some t => exact .inr (Tab.setTimer?_net ht)
  · exact ⟨.inl rfl, rfl, rfl⟩

/-- What a new timer for connecting leaves alone, and how many there are. -/
theorem scheduleReconnect_wiring (s : Session K) :
    s.scheduleReconnect.tab.sockets = s.tab.sockets ∧ s.scheduleReconnect.tab.fetches = s.tab.fetches ∧
      s.scheduleReconnect.tab.fetchesMade = s.tab.fetchesMade ∧
      s.scheduleReconnect.tab.net.reconnects ≤ s.tab.net.reconnects + 1 := by
  rcases s.scheduleReconnect_net.1 with hn | ⟨id, hn⟩
  · exact ⟨congrArg Net.sockets hn, congrArg Net.fetches hn, congrArg Net.fetchesMade hn, by rw [hn]; omega⟩
  · refine ⟨congrArg Net.sockets hn, congrArg Net.fetches hn, congrArg Net.fetchesMade hn, ?_⟩
    rw [hn]
    simp [Net.reconnects, Tab.net, List.countP_append]

/-- An event at sockets that the application has no part in, or takes without
handing anything to the channel. -/
theorem Turn.of_wiring {e : Event} {s' : Session K}
    (ha : s'.app = (s.input? ready e).elim s.app fun i => (s.app.answer i).1)
    (hh : s.hands ready e = []) (hc : s'.channel = s.prepared e) (hm : s'.tab.fetchesMade = s.tab.fetchesMade)
    (hf : s'.tab.fetches = s.tab.fetches) (hw : s.Wiring e s') : Turn s ready e s' :=
  ⟨ha, by rw [hh, hc]; rfl, Nat.le_of_eq hm.symm, fun f h => .inl (hf ▸ h), hw⟩

theorem reconnect_turn {named : Option Nat} {id : Nat}
    (ht : (Page.running s ready).timer? named = some (id, .reconnect)) :
    Turn s ready (.timer named) (s.timedOut id).reconnect := by
  have hi : s.input? ready (.timer named) = none := by simp only [input?, ht]
  have hh : s.hands ready (.timer named) = [] := by simp [hands, hi]
  have hr := timedOut_reconnects ht
  unfold reconnect
  cases hc : (s.timedOut id).connect with
  | error e =>
    obtain ⟨-, ha, hch⟩ := (s.timedOut id).scheduleReconnect_net
    obtain ⟨hs, hf, hm, hn⟩ := (s.timedOut id).scheduleReconnect_wiring
    simp only
    exact .of_wiring (by rw [hi]; exact ha) hh hch hm hf (.keep rfl hs (by omega))
  | ok s' =>
    obtain ⟨hn, ha, hch⟩ := connect_net hc
    refine .of_wiring (by rw [hi]; exact ha) hh hch (congrArg Net.fetchesMade hn) (congrArg Net.fetches hn)
      (.connect (congrArg Net.sockets hn) ?_)
    rw [hn]
    exact hr

theorem timerFired_turn {named : Option Nat} {id : Nat} {task : TimerTask}
    (ht : (Page.running s ready).timer? named = some (id, task)) :
    Turn s ready (.timer named) ((s.timedOut id).timerFired task) := by
  have hn := s.timedOut_steady id
  cases task with
  | pacing ticket =>
    have hi : s.input? ready (.timer named) = some (.elapsed ticket) := by simp only [input?, ht]
    exact .of_act (s.timedOut id) (.elapsed ticket) (·.pacingElapsed ticket) rfl hi rfl hn rfl rfl
  | reconnect => exact reconnect_turn ht
  | retryResync =>
    have hi : s.input? ready (.timer named) = none := by simp only [input?, ht]
    simp only [timerFired]
    split
    · have h := (s.timedOut id).requestFarm_serves
      exact .of_steady rfl hi ⟨h.app, h.channel, hn.trans h.net⟩
    · exact .of_steady rfl hi ⟨rfl, rfl, hn⟩

theorem messagesOf_connected (a : App K) : messagesOf a.connected.2 = [] := by
  simp only [App.connected, App.control, Controller.connected]
  split <;> rfl

theorem messagesOf_connectionLost (a : App K) : messagesOf a.connectionLost.2 = [] := by
  simp only [App.connectionLost, App.control, Controller.connectionLost]
  split <;> rfl

theorem install_net (s : Session K) (n : Nat) :
    (s.install n).tab.net = { s.tab.net with sockets := (s.channel.release s.tab.sockets).1 } ∧
      (s.install n).app = s.app ∧
      (s.install n).channel = (s.channel.install s.tab.sockets n s.tab.luck).1 :=
  ⟨rfl, rfl, rfl⟩

/-- An answer without messages, after the sockets have been seen to. -/
theorem act_of_quiet (s : Session K) (answer : App K → App K × List Action)
    (hm : messagesOf (answer s.app).2 = []) :
    (s.act answer).app = (answer s.app).1 ∧ (s.act answer).channel = s.channel ∧
      s.tab.net.Steady (s.act answer).tab.net := by
  have h := s.act_serves answer
  rw [hm] at h
  exact ⟨h.app, h.channel, h.net⟩

theorem socketOpened_turn {named : Option Nat} {n : Nat}
    (hn : (Page.running s ready).socket? named = some n) :
    Turn s ready (.socketOpened named) (s.socketOpened n) := by
  have hs : (Page.running s true).socket? named = some n := hn
  -- the status line and the count of attempts are no part of what is followed here
  obtain ⟨s₁, h₁⟩ : ∃ s₁, { (s.setSocket n .opened).onTab (·.showStatus .connected) with attempts := 0 } = s₁ :=
    ⟨_, rfl⟩
  have hnet : s₁.tab.net = { s.tab.net with sockets := s.tab.sockets.set n .opened } := by
    subst h₁
    exact Tab.net_showStatus _ _
  have ha₁ : s₁.app = s.app ∧ s₁.channel = s.channel := by
    subst h₁
    exact ⟨rfl, rfl⟩
  have hl : s₁.tab.luck = s.tab.luck := Tab.luck_eq (congrArg Net.browser hnet)
  have hts : s₁.tab.sockets = s.tab.sockets.set n .opened := congrArg Net.sockets hnet
  obtain ⟨hi, hia, hic⟩ := s₁.install_net n
  obtain ⟨ha, hc, hst⟩ := act_of_quiet (s₁.install n) (·.connected) (messagesOf_connected _)
  rw [hi, hnet, ha₁.2, hts] at hst
  rw [hia, ha₁.1] at ha
  have hh : s.hands ready (.socketOpened named) = [] := by
    simpa [hands, input?, App.answer] using messagesOf_connected s.app
  have hq : s.socketOpened n = (s₁.install n).act (·.connected) := by rw [← h₁]; rfl
  rw [hq]
  refine ⟨ha, ?_, hst.made, hst.fetches, .opened hs hst.sockets hst.reconnects⟩
  simp only [hh, prepared, hs, hc, hic, ha₁.2, hts, hl]
  rfl

/-- A loss is shown, and nothing is asked of the browser for it. -/
theorem lose_net (s : Session K) : s.lose.tab.net = s.tab.net := by
  simp only [lose, act, App.connectionLost, App.control, Controller.connectionLost]
  split <;> simp [carryOut, onTab]

theorem lose_eq (s : Session K) :
    s.lose.app = s.app.connectionLost.1 ∧ s.lose.channel = s.channel.discard := by
  obtain ⟨ha, hc, -⟩ := act_of_quiet { s with channel := s.channel.discard } (·.connectionLost)
    (messagesOf_connectionLost _)
  exact ⟨ha, hc⟩

theorem socketClosed_turn {named : Option Nat} {n : Nat} {state : ReadyState}
    (hn : (Page.running s ready).socket? named = some n) :
    Turn s ready (.socketClosed named state) (s.socketClosed n state) := by
  have hs : (Page.running s true).socket? named = some n := hn
  obtain ⟨s₁, h₁⟩ : ∃ s₁, { (s.setSocket n state).onTab (·.showStatus .disconnected) with
      channel := s.channel.disconnected } = s₁ := ⟨_, rfl⟩
  have hnet : s₁.tab.net = { s.tab.net with sockets := s.tab.sockets.set n state } := by
    subst h₁
    exact Tab.net_showStatus _ _
  obtain ⟨ha₁, hc₁⟩ : s₁.app = s.app ∧ s₁.channel = s.channel.disconnected := by
    subst h₁
    exact ⟨rfl, rfl⟩
  have hq : s.socketClosed n state = (if s.channel.isNotOpen then s₁ else s₁.lose).scheduleReconnect := by
    rw [← h₁]
    simp only [socketClosed]
    cases h : s.channel.isNotOpen <;> simp [h, setSocket, onTab]
  obtain ⟨s₂, h₂⟩ : ∃ s₂, (if s.channel.isNotOpen then s₁ else s₁.lose) = s₂ := ⟨_, rfl⟩
  have hh : s.hands ready (.socketClosed named state) = [] := by
    simp only [hands, input?]
    split
    · rfl
    · simpa [App.answer] using messagesOf_connectionLost s.app
  obtain ⟨hnet₂, ha₂, hc₂⟩ : s₂.tab.net = { s.tab.net with sockets := s.tab.sockets.set n state } ∧
      s₂.app = ((s.input? ready (.socketClosed named state)).elim s.app fun i => (s.app.answer i).1) ∧
      s₂.channel = s.prepared (.socketClosed named state) := by
    subst h₂
    simp only [input?, prepared]
    split
    · exact ⟨hnet, ha₁, hc₁⟩
    · exact ⟨s₁.lose_net.trans hnet, by rw [s₁.lose_eq.1, ha₁]; rfl, by rw [s₁.lose_eq.2, hc₁]⟩
  obtain ⟨hsock, hf, hm, hr⟩ := s₂.scheduleReconnect_wiring
  obtain ⟨-, ha, hc⟩ := s₂.scheduleReconnect_net
  have hf₂ : s₂.tab.fetches = s.tab.fetches := congrArg Net.fetches hnet₂
  have hm₂ : s₂.tab.fetchesMade = s.tab.fetchesMade := congrArg Net.fetchesMade hnet₂
  have hs₂ : s₂.tab.sockets = s.tab.sockets.set n state := congrArg Net.sockets hnet₂
  have hr₂ : s₂.tab.net.reconnects = s.tab.net.reconnects := by rw [hnet₂]; rfl
  rw [hq, h₂]
  exact .of_wiring (ha.trans ha₂) hh (hc.trans hc₂) (hm.trans hm₂) (hf.trans hf₂)
    (.closed hs (hsock.trans hs₂) (hr₂ ▸ hr) (hf.trans hf₂))

/-- An event of the farm view. -/
theorem Turn.of_view {e : Event} {i : Input K} {s' : Session K} (hi : s.input? ready e = some i)
    (hm : (s.app.answer i).2 = []) (hp : s.prepared e = s.channel) (ha : s'.app = (s.app.answer i).1)
    (hc : s'.channel = s.channel) (hn : s'.tab.net = s.tab.net) : Turn s ready e s' := by
  refine .of_wiring (by rw [hi]; exact ha) (by simp [hands, hi, hm]) (hc.trans hp.symm)
    (congrArg Net.fetchesMade hn) (congrArg Net.fetches hn) (.keep hp (congrArg Net.sockets hn) ?_)
  exact Nat.le_of_eq (congrArg Net.reconnects hn)

theorem animate_turn {now : Float} :
    Turn s ready (.frame now) ((s.onTab fun t => { t with frames := t.frames - 1 }).animate now) := by
  refine .of_view rfl rfl rfl rfl rfl ?_
  simp [animate, onTab]
  rfl

/-- An event without any meaning for the application, and for the connection. -/
theorem Turn.of_net {e : Event} {s' : Session K} (hi : s.input? ready e = none) (hp : s.prepared e = s.channel)
    (ha : s'.app = s.app) (hc : s'.channel = s.channel) (hn : s'.tab.net = s.tab.net) : Turn s ready e s' :=
  .of_steady hp hi (.of_net hn ha hc)

/-- **Every event is a turn** of the session that it finds, but for startup. -/
theorem answer_turn {e : Event} {q : Page K} (hf : ∀ f ∈ s.tab.fetches, f.2 = .resync) (he : e ≠ .start)
    (h : (Page.running s ready).answer e = some q) : ∃ s', q = .running s' ready ∧ Turn s ready e s' := by
  cases e with
  | start => exact absurd rfl he
  | run code =>
    cases ready with
    | true => cases h; exact ⟨_, rfl, run_turn code⟩
    | false => cases h; exact ⟨_, rfl, .of_net rfl rfl rfl rfl rfl⟩
  | step code =>
    cases ready with
    | true => cases h; exact ⟨_, rfl, step_turn code⟩
    | false => cases h; exact ⟨_, rfl, .of_net rfl rfl rfl rfl rfl⟩
  | abort =>
    cases ready with
    | true => cases h; exact ⟨_, rfl, abort_turn⟩
    | false => cases h; exact ⟨_, rfl, .of_net rfl rfl rfl rfl rfl⟩
  | reply reply named =>
    obtain ⟨⟨id, task⟩, hn, rfl⟩ := Option.map_eq_some_iff.mp h
    obtain rfl : task = .resync := hf _ (mem_of_fetch? hn)
    exact ⟨_, rfl, receiveFarm_turn hn⟩
  | socketOpened named =>
    obtain ⟨n, hn, rfl⟩ := Option.map_eq_some_iff.mp h
    exact ⟨_, rfl, socketOpened_turn hn⟩
  | socketClosed named state =>
    obtain ⟨n, hn, rfl⟩ := Option.map_eq_some_iff.mp h
    exact ⟨_, rfl, socketClosed_turn hn⟩
  | message named text =>
    obtain ⟨n, hn, rfl⟩ := Option.map_eq_some_iff.mp h
    exact ⟨_, rfl, receive_turn named text⟩
  | socketFailed named =>
    obtain ⟨n, hn, rfl⟩ := Option.map_eq_some_iff.mp h
    exact ⟨_, rfl, .of_net rfl rfl rfl rfl (Tab.net_showStatus _ _)⟩
  | socketState named state =>
    obtain ⟨n, hn, rfl⟩ := Option.map_eq_some_iff.mp h
    exact ⟨_, rfl, .of_wiring rfl rfl rfl rfl rfl (.state hn rfl (Nat.le_refl _))⟩
  | timer named =>
    obtain ⟨⟨id, task⟩, ht, rfl⟩ := Option.map_eq_some_iff.mp h
    exact ⟨_, rfl, timerFired_turn ht⟩
  | frame now =>
    simp only [Page.answer, Page.animate] at h
    split at h
    · cases h
    · cases h
      exact ⟨_, rfl, animate_turn⟩
  | pointerMoved x y =>
    simp only [Page.answer, Page.heard] at h
    split at h
    · cases h
      exact ⟨_, rfl, .of_view rfl rfl rfl rfl rfl rfl⟩
    · cases h
  | pointerLeft =>
    simp only [Page.answer, Page.heard] at h
    split at h
    · cases h
      exact ⟨_, rfl, .of_view rfl rfl rfl rfl rfl rfl⟩
    · cases h
  | resized sizes =>
    simp only [Page.answer, Page.heard] at h
    split at h
    · cases h
      exact ⟨_, rfl, .of_net rfl rfl rfl rfl rfl⟩
    · cases h
  | browser b =>
    cases h
    exact ⟨_, rfl, .of_wiring rfl rfl rfl rfl rfl (.keep rfl rfl (Nat.le_refl _))⟩

/-- Calls of earlier events are forgotten when an event comes. -/
theorem Turn.of_uncalled {e : Event} {s' : Session K}
    (h : Turn (s.onTab fun t => { t with calls := [] }) ready e s') : Turn s ready e s' := by
  have hi : (s.onTab fun t => { t with calls := [] }).input? ready e = s.input? ready e := by
    cases e with
    | run code | step code => cases code <;> rfl
    | reply reply named => cases reply <;> rfl
    | _ => rfl
  have hp : (s.onTab fun t => { t with calls := [] }).prepared e = s.prepared e := by cases e <;> rfl
  have hh : (s.onTab fun t => { t with calls := [] }).hands ready e = s.hands ready e := by
    simp only [hands, hi]
    rfl
  obtain ⟨ha, hc, hm, hf, hw⟩ := h
  rw [hi] at ha
  rw [hp, hh] at hc
  refine ⟨ha, hc, hm, hf, ?_⟩
  cases hw with
  | keep h hs hr => exact .keep (hp.symm.trans h) hs hr
  | connect hs hr => exact .connect hs hr
  | opened hn hs hr => exact .opened hn hs hr
  | closed hn hs hr hf => exact .closed hn hs hr hf
  | state hn hs hr => exact .state hn hs hr

theorem handle_turn {e : Event} {q : Page K} (hf : ∀ f ∈ s.tab.fetches, f.2 = .resync) (he : e ≠ .start)
    (h : (Page.running s ready).handle e = some q) : ∃ s', q = .running s' ready ∧ Turn s ready e s' := by
  obtain ⟨s', hq, ht⟩ := answer_turn (s := s.onTab fun t => { t with calls := [] }) hf he h
  exact ⟨s', hq, ht.of_uncalled⟩

end Session

end FarmClient.Page
