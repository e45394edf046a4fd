/-
The timers of a page. They are numbered as they are set, and no number comes
twice (`Clock.Sound`). Timers for connecting again are set by two handlers only:
whatever else goes on, none is set and none taken away (`Session.Bides`), and
`Session.Links` says for every event what it does to the connection.
-/
import Mathlib.Data.List.Nodup
import FarmClient.Proofs.PageVisits

namespace FarmClient.Page

variable {K : Type} [Shown K]

/-! ## The clock of a tab -/

/-- The timer that a call sets, and its delay. -/
def Call.timer? : Call → Option (Nat × Nat)
  | .timer id delay => some (id, delay)
  | _ => none

/-- The timers of a tab: those that are set, how many there have been, and the
delays of those that the last event has set. -/
structure Clock where
  timers : List (Nat × TimerTask)
  timersSet : Nat
  asked : List (Nat × Nat)

def Tab.clock (t : Tab) : Clock := ⟨t.timers, t.timersSet, t.calls.filterMap Call.timer?⟩

namespace Clock

/-- How many timers for connecting are set. -/
def reconnects (c : Clock) : Nat := c.timers.countP (·.2 = .reconnect)

/-- The delays of the timers for connecting that the last event has set. -/
def waits (c : Clock) : List Nat :=
  c.asked.filterMap fun (id, delay) => if (id, .reconnect) ∈ c.timers then some delay else none

/-- One more timer. -/
def set (c : Clock) (task : TimerTask) (delay : Nat) : Clock :=
  ⟨c.timers ++ [(c.timersSet + 1, task)], c.timersSet + 1, c.asked ++ [(c.timersSet + 1, min delay Tab.maxDelay)]⟩

/-- A timer is over. -/
def drop (c : Clock) (id : Nat) : Clock := { c with timers := c.timers.filter (·.1 ≠ id) }

structure Numbered (c : Clock) : Prop where
  timers : ∀ x ∈ c.timers, x.1 ≤ c.timersSet
  distinct : (c.timers.map (·.1)).Nodup

structure Sound (c : Clock) : Prop extends Numbered c where
  asked : ∀ x ∈ c.asked, x.1 ≤ c.timersSet

variable {c c' : Clock} {task : TimerTask} {delay id : Nat}

theorem Sound.set (h : c.Sound) : (c.set task delay).Sound := by
  refine ⟨⟨fun x hx => ?_, ?_⟩, fun x hx => ?_⟩
  · rcases List.mem_append.mp hx with hx | hx
    · exact Nat.le_succ_of_le (h.timers x hx)
    · rw [List.mem_singleton.mp hx]
      exact Nat.le_refl _
  · have hnew : c.timersSet + 1 ∉ c.timers.map (·.1) := by
      intro hm
      obtain ⟨x, hx, he⟩ := List.mem_map.mp hm
      have := h.timers x hx
      omega
    rw [Clock.set, List.map_append, List.map_singleton, ← List.concat_eq_append]
    exact h.distinct.concat hnew
  · rcases List.mem_append.mp hx with hx | hx
    · exact Nat.le_succ_of_le (h.asked x hx)
    · rw [List.mem_singleton.mp hx]
      exact Nat.le_refl _

theorem set_reconnects : (c.set task delay).reconnects = c.reconnects + if task = .reconnect then 1 else 0 := by
  simp [reconnects, set, List.countP_append, List.countP_cons]

theorem set_waits (h : c.Sound) :
    (c.set task delay).waits = c.waits ++ if task = .reconnect then [min delay Tab.maxDelay] else [] := by
  have hnew {task' : TimerTask} : (c.timersSet + 1, task') ∉ c.timers := by
    intro hm
    have := h.timers _ hm
    omega
  rw [waits, set, List.filterMap_append]
  congr 1
  · refine List.filterMap_congr fun x hx => ?_
    have hne : x.1 ≠ c.timersSet + 1 := by
      have := h.asked x hx
      omega
    simp [hne]
  · by_cases ht : task = .reconnect
    · simp [ht]
    · have ht' : TimerTask.reconnect ≠ task := Ne.symm ht
      simp [ht, ht', hnew]

theorem Numbered.drop (h : c.Numbered) : (c.drop id).Numbered := by
  have hs : (c.timers.filter (·.1 ≠ id)).Sublist c.timers := List.filter_sublist
  exact ⟨fun x hx => h.timers x (hs.mem hx), h.distinct.sublist (hs.map _)⟩

/-- Exactly the timer that is over is taken away. -/
theorem drop_reconnects (h : c.Numbered) (hm : (id, task) ∈ c.timers) :
    (c.drop id).reconnects + (if task = .reconnect then 1 else 0) = c.reconnects := by
  obtain ⟨before, after, hl⟩ := List.append_of_mem hm
  have hd := h.distinct
  rw [hl, List.map_append, List.map_cons, List.nodup_append, List.nodup_cons] at hd
  have hb : ∀ x ∈ before, x.1 ≠ id := fun x hx =>
    hd.2.2 _ (List.mem_map_of_mem hx) _ List.mem_cons_self
  have ha : ∀ x ∈ after, x.1 ≠ id := by
    rintro x hx hid
    have hmem : x.1 ∈ after.map (·.1) := List.mem_map_of_mem hx
    exact hd.2.1.1 (hid ▸ hmem)
  have hkept : c.timers.filter (·.1 ≠ id) = before ++ after := by
    rw [hl, List.filter_append, List.filter_eq_self.mpr (by simpa using hb), List.filter_cons_of_neg (by simp),
      List.filter_eq_self.mpr (by simpa using ha)]
  rw [reconnects, Clock.drop, hkept, reconnects, hl, List.countP_append, List.countP_append, List.countP_cons]
  simp only [decide_eq_true_eq]
  omega

/-- Timers may have been set since and others be over, but none for connecting. -/
def Bides (c c' : Clock) : Prop :=
  c.Sound → c'.Sound ∧ c'.reconnects = c.reconnects ∧ c'.waits = c.waits

theorem Bides.of_eq (h : c' = c) : c.Bides c' := by
  subst h
  exact fun hs => ⟨hs, rfl, rfl⟩

theorem Bides.trans {c₁ c₂ c₃ : Clock} (h : c₁.Bides c₂) (h' : c₂.Bides c₃) : c₁.Bides c₃ := by
  intro hs
  obtain ⟨hs₂, hr₂, hw₂⟩ := h hs
  obtain ⟨hs₃, hr₃, hw₃⟩ := h' hs₂
  exact ⟨hs₃, hr₃.trans hr₂, hw₃.trans hw₂⟩

theorem Sound.drop (h : c.Sound) : (c.drop id).Sound := ⟨h.toNumbered.drop, h.asked⟩

theorem Bides.drop (hm : (id, task) ∈ c.timers) (ht : task ≠ .reconnect) : c.Bides (c.drop id) := by
  intro hs
  refine ⟨hs.drop, ?_, ?_⟩
  · have h := drop_reconnects hs.toNumbered hm
    rwa [if_neg ht, Nat.add_zero] at h
  · -- a timer for connecting has another number
    have hkept (k : Nat) : (k, .reconnect) ∈ (c.drop id).timers ↔ (k, .reconnect) ∈ c.timers := by
      rw [Clock.drop, List.mem_filter, decide_eq_true_eq]
      refine and_iff_left_of_imp fun hk he => ht ?_
      have he := List.inj_on_of_nodup_map hs.distinct hk hm he
      exact (congrArg Prod.snd he).symm
    exact List.filterMap_congr fun x _ => by simp only [hkept]

theorem Bides.set (ht : task ≠ .reconnect) : c.Bides (c.set task delay) := by
  intro hs
  refine ⟨hs.set, ?_, ?_⟩
  · rw [set_reconnects, if_neg ht, Nat.add_zero]
  · rw [set_waits hs, if_neg ht, List.append_nil]

end Clock

namespace Tab

theorem clock_call (t : Tab) {c : Call} (h : c.timer? = none) : (t.call c).clock = t.clock := by
  simp [clock, call, List.filterMap_append, h]

theorem clock_callAll (t : Tab) {cs : List Call} (h : ∀ c ∈ cs, c.timer? = none) : (t.callAll cs).clock = t.clock := by
  simp [clock, callAll, List.filterMap_append, List.filterMap_eq_nil_iff.mpr h]

@[simp] theorem clock_log (t : Tab) (line : String) : (t.log line).clock = t.clock := by
  unfold log; split
  · rw [clock_call _ rfl, clock_call _ rfl]; rfl
  · rfl

@[simp] theorem clock_clearConsole (t : Tab) : t.clearConsole.clock = t.clock := by
  unfold clearConsole; split
  · rw [clock_call _ rfl]; rfl
  · rfl

@[simp] theorem clock_showResource (t : Tab) (text : String) : (t.showResource text).clock = t.clock := by
  unfold showResource; split
  · rw [clock_call _ rfl]; rfl
  · rfl

@[simp] theorem clock_showControls (t : Tab) (c : Controls) : (t.showControls c).clock = t.clock := by
  refine t.clock_callAll fun x hx => ?_
  rcases List.mem_append.mp hx with hx | hx <;> split at hx <;>
    simp only [List.mem_cons, List.not_mem_nil, or_false] at hx
  · rcases hx with rfl | rfl <;> rfl
  · rw [hx]; rfl

@[simp] theorem clock_showStatus (t : Tab) (s : LinkStatus) : (t.showStatus s).clock = t.clock := by
  unfold showStatus; split
  · exact clock_call _ rfl
  · rfl

@[simp] theorem clock_callEditor (t : Tab) (m : EditorMethod) (arguments : List String) :
    (t.callEditor m arguments).clock = t.clock := by
  unfold callEditor; split
  · exact clock_call _ rfl
  · rfl

@[simp] theorem clock_requestFrame (t : Tab) : t.requestFrame.clock = t.clock := by
  unfold requestFrame; split
  · rw [clock_call _ rfl]; rfl
  · rfl

theorem setTimer?_clock {t t' : Tab} {task : TimerTask} {delay : Nat} (h : t.setTimer? task delay = some t') :
    t'.clock = t.clock.set task delay := by
  unfold setTimer? at h
  split at h
  · cases h
  · cases h
    simp [clock, Clock.set, call, Call.timer?, List.filterMap_append]

theorem setTimer_bides (t : Tab) {task : TimerTask} (ht : task ≠ .reconnect) (delay : Nat) :
    t.clock.Bides (t.setTimer task delay).clock := by
  unfold setTimer
  split
  · cases h : t.setTimer? task delay with
    | none => exact .of_eq rfl
    | some t' =>
      rw [Option.getD_some, setTimer?_clock h]
      exact .set ht
  · exact .of_eq rfl

theorem fetch_clock {t t' : Tab} {url : String} {task : FetchTask} (h : t.fetch url task = .ok t') :
    t'.clock = t.clock := by
  unfold fetch at h
  split at h
  · simp only [bind, Except.bind] at h
    split at h
    · cases h
    · cases h
      exact clock_call _ rfl
  · cases h

end Tab

/-! ## What leaves the connection alone -/

namespace Session

/-- The sockets and the attempts are left alone, and so are the timers for connecting. -/
structure Bides (s s' : Session K) : Prop where
  browser : s'.tab.browser = s.tab.browser
  sockets : s'.tab.sockets = s.tab.sockets
  attempts : s'.attempts = s.attempts
  clock : s.tab.clock.Bides s'.tab.clock

namespace Bides

variable {s s₁ s₂ : Session K}

theorem refl (s : Session K) : s.Bides s := ⟨rfl, rfl, rfl, .of_eq rfl⟩

theorem trans (h : s.Bides s₁) (h' : s₁.Bides s₂) : s.Bides s₂ :=
  ⟨h'.browser.trans h.browser, h'.sockets.trans h.sockets, h'.attempts.trans h.attempts, h.clock.trans h'.clock⟩

theorem of_net (hn : s₁.tab.net = s.tab.net) (ha : s₁.attempts = s.attempts) (hc : s₁.tab.clock = s.tab.clock) :
    s.Bides s₁ :=
  ⟨congrArg Net.browser hn, congrArg Net.sockets hn, ha, .of_eq hc⟩

theorem of_steady (hn : s.tab.net.Steady s₁.tab.net) (ha : s₁.attempts = s.attempts)
    (hc : s.tab.clock.Bides s₁.tab.clock) : s.Bides s₁ :=
  ⟨hn.browser, hn.sockets, ha, hc⟩

end Bides

theorem send_bides (s : Session K) (message : ClientMessage) : s.Bides (s.send message) := by
  refine ⟨rfl, rfl, rfl, .of_eq (s.tab.clock_callAll fun c hc => ?_)⟩
  obtain ⟨call, -, rfl⟩ := List.mem_map.mp hc
  rfl

theorem resyncFailed_bides (s : Session K) (reason : String) : s.Bides (s.resyncFailed reason) := by
  refine .of_steady (s.resyncFailed_serves reason).net rfl ?_
  have ht : TimerTask.retryResync ≠ .reconnect := by simp
  have h := (s.tab.log ("[error] resync: " ++ reason)).setTimer_bides ht (backoffDelay 255)
  rwa [Tab.clock_log] at h

theorem requestFarm_bides (s : Session K) : s.Bides s.requestFarm := by
  unfold requestFarm
  split
  · next h => exact .of_steady (Tab.fetch_steady h) rfl (.of_eq (Tab.fetch_clock h))
  · exact s.resyncFailed_bides _

theorem receiveFarm_bides (s : Session K) (reply : Reply) : s.Bides (s.receiveFarm reply) := by
  unfold receiveFarm
  split
  · exact s.resyncFailed_bides _
  · split
    · exact s.resyncFailed_bides _
    · exact .of_net (Tab.net_log _ _) rfl (Tab.clock_log _ _)

theorem carryOut_bides (s : Session K) (x : Action) : s.Bides (s.carryOut x) := by
  cases x with
  | send m => exact s.send_bides m
  | scheduleAck ticket after =>
    exact .of_steady (s.carryOut_serves (.scheduleAck ticket after)).net rfl (s.tab.setTimer_bides (by simp) after)
  | resync => exact s.requestFarm_bides
  | highlightLine | clearHighlight | clearConsole | log | controls =>
    exact .of_net (by simp [carryOut, onTab]) rfl (by simp [carryOut, onTab])

theorem act_bides (s : Session K) (answer : App K → App K × List Action) : s.Bides (s.act answer) := by
  have hfold : ∀ (actions : List Action) (s : Session K), s.Bides (actions.foldl carryOut s) := by
    intro actions
    induction actions with
    | nil => exact .refl
    | cons x xs ih => exact fun s => (s.carryOut_bides x).trans (ih _)
  have h := hfold (answer s.app).2 { s with app := (answer s.app).1 }
  exact ⟨h.browser, h.sockets, h.attempts, h.clock⟩

theorem program_bides (s : Session K) (code : Option String) : s.Bides (s.program code).1 := by
  cases code with
  | some code => exact .refl s
  | none => exact .of_net (Tab.net_callEditor _ _ _) rfl (Tab.clock_callEditor _ _ _)

theorem run_bides (s : Session K) (code : Option String) : s.Bides (s.run code) :=
  (s.program_bides code).trans ((s.program code).1.act_bides (·.toggleRun (s.program code).2))

theorem step_bides (s : Session K) (code : Option String) : s.Bides (s.step code) :=
  (s.program_bides code).trans ((s.program code).1.act_bides (·.step (s.program code).2))

theorem timedOut_bides (s : Session K) {id : Nat} {task : TimerTask} (hm : (id, task) ∈ s.tab.timers)
    (ht : task ≠ .reconnect) : s.Bides (s.timedOut id) :=
  ⟨rfl, rfl, rfl, .drop (c := s.tab.clock) hm ht⟩

theorem resize_bides (s : Session K) (sizes : List (Size Float)) : s.Bides (s.resize sizes) := by
  have hcalls : ∀ (sizes : List (Size Float)) (p : Painter), ∀ c ∈ (p.resizeAll sizes).2, c.timer? = none := by
    intro sizes
    induction sizes with
    | nil => exact fun p c hc => nomatch hc
    | cons size sizes ih =>
      intro p c hc
      rcases List.mem_append.mp hc with hc | hc
      · simp only [List.mem_cons, List.not_mem_nil, or_false] at hc
        rcases hc with rfl | rfl | rfl <;> rfl
      · exact ih _ c hc
  exact ⟨rfl, rfl, rfl, .of_eq (s.tab.clock_callAll (hcalls sizes s.painter))⟩

theorem animate_bides (s : Session K) (now : Float) :
    s.Bides ((s.onTab fun t => { t with frames := t.frames - 1 }).animate now) := by
  refine .of_net ?_ rfl ?_
  · simp [animate, onTab]
    rfl
  · simp only [animate, onTab, Tab.clock_requestFrame, Tab.clock_showResource]
    refine Tab.clock_callAll _ fun c hc => ?_
    obtain ⟨call, -, rfl⟩ := List.mem_map.mp hc
    rfl

end Session

/-! ## What an event does to the connection -/

/-- Timers can be set. -/
def Browser.setsTimers (b : Browser) : Bool := b.hasWindow && !b.fails .timeout

/-- The socket that an event opens. -/
def opening? (p : Page K) : Event → Option Nat
  | .socketOpened named => p.socket? named
  | _ => none

/-- The socket that an event closes. -/
def closing? (p : Page K) : Event → Option Nat
  | .socketClosed named _ => p.socket? named
  | _ => none

/-- How the attempts to connect go on: how many there have been since a socket
opened, the timers for another, and for how long the last event has put it off. -/
structure Pace where
  attempts : Nat
  reconnects : Nat
  waits : List Nat

namespace Session

def pace (s : Session K) : Pace := ⟨s.attempts, s.tab.clock.reconnects, s.tab.clock.waits⟩

/-- **What an event does** to sockets and to the attempts to connect. -/
inductive Links (s : Session K) (ready : Bool) (e : Event) (s' : Session K) : Prop
  | keep : (running s ready).opening? e = none → (running s ready).closing? e = none →
      s'.tab.sockets = s.tab.sockets → s'.pace = ⟨s.attempts, s.tab.clock.reconnects, []⟩ → Links s ready e s'
  | ending {n} : (running s ready).opening? e = none → (running s ready).closing? e = none →
      s.tab.sockets.ready n = .opened → s'.tab.sockets = s.tab.sockets.set n .closing →
      s'.pace = ⟨s.attempts, s.tab.clock.reconnects, []⟩ → Links s ready e s'
  | connect {r} : (running s ready).opening? e = none → (running s ready).closing? e = none →
      s.tab.clock.reconnects = r + 1 → s'.tab.sockets = s.tab.sockets ++ [.connecting] →
      s'.pace = ⟨s.attempts, r, []⟩ → Links s ready e s'
  | again {r} : (running s ready).opening? e = none → (running s ready).closing? e = none →
      s.tab.clock.reconnects = r + 1 → s'.tab.sockets = s.tab.sockets →
      s'.pace = ⟨min (s.attempts + 1) maxAttempts, r + 1, [backoffDelay s.attempts]⟩ → Links s ready e s'
  | opened {n} : (running s ready).opening? e = some n → (running s ready).closing? e = none →
      s.tab.sockets.ready n = .connecting →
      s'.tab.sockets = (s.channel.release (s.tab.sockets.set n .opened)).1 →
      s'.pace = ⟨0, s.tab.clock.reconnects, []⟩ → Links s ready e s'
  | closed {n} : (running s ready).opening? e = none → (running s ready).closing? e = some n →
      s.tab.sockets.ready n ≠ .closed → s'.tab.sockets = s.tab.sockets.set n .closed →
      s'.pace = ⟨min (s.attempts + 1) maxAttempts, s.tab.clock.reconnects + 1, [backoffDelay s.attempts]⟩ →
      Links s ready e s'

variable {s s' : Session K} {ready : Bool} {e : Event}

theorem waits_eq_nil (h : s.tab.clock.asked = []) : s.tab.clock.waits = [] := by
  rw [Clock.waits, h]
  rfl

/-- An event that leaves the connection alone. -/
theorem links_of_bides (ho : (running s ready).opening? e = none) (hc : (running s ready).closing? e = none)
    (hs : s.tab.clock.Sound) (hw : s.tab.clock.asked = []) (h : s.Bides s') :
    s'.tab.clock.Sound ∧ s.Links ready e s' := by
  obtain ⟨hs', hr, hw'⟩ := h.clock hs
  refine ⟨hs', .keep ho hc h.sockets ?_⟩
  rw [pace, h.attempts, hr, hw', waits_eq_nil hw]

theorem backoffDelay_le (n : Nat) : backoffDelay n ≤ Tab.maxDelay := by
  rw [backoffDelay_eq]
  exact Nat.le_trans (Nat.min_le_right _ _) (by decide)

/-- The timer for the next attempt. -/
theorem scheduleReconnect_pace (hs : s.tab.clock.Sound) (hb : s.tab.browser.setsTimers = true)
    (hw : s.tab.clock.waits = []) :
    s.scheduleReconnect.tab.clock.Sound ∧ s.scheduleReconnect.pace =
      ⟨min (s.attempts + 1) maxAttempts, s.tab.clock.reconnects + 1, [backoffDelay s.attempts]⟩ := by
  obtain ⟨hwin, htime⟩ : s.tab.browser.hasWindow = true ∧ s.tab.browser.fails .timeout = false := by
    simpa [Browser.setsTimers] using hb
  obtain ⟨t, ht⟩ : ∃ t, s.tab.setTimer? .reconnect (backoffDelay s.attempts) = some t := by
    rw [Tab.setTimer?, htime]
    exact ⟨_, rfl⟩
  have hnext : s.scheduleReconnect = { s with tab := t, attempts := min (s.attempts + 1) maxAttempts } := by
    rw [scheduleReconnect, if_pos hwin, ht]
    rfl
  have hclock : s.scheduleReconnect.tab.clock = s.tab.clock.set .reconnect (backoffDelay s.attempts) := by
    rw [hnext]
    exact Tab.setTimer?_clock ht
  refine ⟨hclock ▸ hs.set, ?_⟩
  rw [pace, hclock, Clock.set_reconnects, Clock.set_waits hs, hw, Nat.min_eq_left (backoffDelay_le _), hnext]
  rfl

theorem connect_clock (h : s.connect = .ok s') : s'.tab.clock = s.tab.clock ∧ s'.attempts = s.attempts := by
  unfold connect Tab.openSocket at h
  cases hr : s.tab.browser.require .websocket with
  | error e => simp [hr, bind, Except.bind, Except.map] at h
  | ok u =>
    simp only [hr, bind, Except.bind, pure, Except.pure, Except.map, Except.ok.injEq] at h
    subst h
    refine ⟨?_, rfl⟩
    rw [Tab.clock_showStatus, Tab.clock_call _ rfl]
    rfl

theorem reconnect_links {named : Option Nat} {id : Nat} (hs : s.tab.clock.Sound) (hw : s.tab.clock.asked = [])
    (hb : s.tab.browser.setsTimers = true) (hm : (id, .reconnect) ∈ s.tab.timers) :
    (s.timedOut id).reconnect.tab.clock.Sound ∧ s.Links ready (.timer named) (s.timedOut id).reconnect := by
  have hr : (s.timedOut id).tab.clock.reconnects + 1 = s.tab.clock.reconnects :=
    Clock.drop_reconnects hs.toNumbered (c := s.tab.clock) hm
  have hs₁ : (s.timedOut id).tab.clock.Sound := hs.drop (c := s.tab.clock)
  have hw₁ : (s.timedOut id).tab.clock.waits = [] := waits_eq_nil hw
  unfold reconnect
  cases hc : (s.timedOut id).connect with
  | error e =>
    obtain ⟨hs₂, hp⟩ := scheduleReconnect_pace hs₁ hb hw₁
    exact ⟨hs₂, .again rfl rfl hr.symm (s.timedOut id).scheduleReconnect_wiring.1 hp⟩
  | ok s' =>
    obtain ⟨hclock, ha⟩ := connect_clock hc
    refine ⟨hclock ▸ hs₁, .connect rfl rfl hr.symm (congrArg Net.sockets (connect_net hc).1) ?_⟩
    simp only [pace]
    rw [hclock, hw₁, ha]
    rfl

theorem mem_of_timer? {p : Page K} {named : Option Nat} {t : Nat × TimerTask} (h : p.timer? named = some t) :
    t ∈ p.tab.timers := by
  cases named with
  | some id => exact List.mem_of_find?_eq_some h
  | none => exact List.mem_of_mem_head? h

theorem timerFired_links {named : Option Nat} {id : Nat} {task : TimerTask} (hs : s.tab.clock.Sound)
    (hw : s.tab.clock.asked = []) (hb : s.tab.browser.setsTimers = true) (hm : (id, task) ∈ s.tab.timers) :
    ((s.timedOut id).timerFired task).tab.clock.Sound ∧
      s.Links ready (.timer named) ((s.timedOut id).timerFired task) := by
  cases task with
  | pacing ticket =>
    exact links_of_bides rfl rfl hs hw ((s.timedOut_bides hm (by simp)).trans
      ((s.timedOut id).act_bides (·.pacingElapsed ticket)))
  | reconnect => exact reconnect_links hs hw hb hm
  | retryResync =>
    have h := s.timedOut_bides hm (by simp)
    simp only [timerFired]
    split
    · exact links_of_bides rfl rfl hs hw (h.trans (s.timedOut id).requestFarm_bides)
    · exact links_of_bides rfl rfl hs hw h

theorem socketOpened_links {named : Option Nat} {n : Nat} (hs : s.tab.clock.Sound) (hw : s.tab.clock.asked = [])
    (hn : (running s ready).socket? named = some n) (hl : s.tab.sockets.ready n = .connecting) :
    (s.socketOpened n).tab.clock.Sound ∧ s.Links ready (.socketOpened named) (s.socketOpened n) := by
  obtain ⟨s₁, h₁⟩ : ∃ s₁, { (s.setSocket n .opened).onTab (·.showStatus .connected) with attempts := 0 } = s₁ :=
    ⟨_, rfl⟩
  have hnet : s₁.tab.net = { s.tab.net with sockets := s.tab.sockets.set n .opened } := by
    subst h₁
    exact Tab.net_showStatus _ _
  obtain ⟨hch, ha, hclock⟩ : s₁.channel = s.channel ∧ s₁.attempts = 0 ∧ s₁.tab.clock = s.tab.clock := by
    subst h₁
    exact ⟨rfl, rfl, Tab.clock_showStatus _ _⟩
  have hclock₂ : (s₁.install n).tab.clock = s.tab.clock := by
    rw [← hclock]
    refine Tab.clock_callAll _ fun c hc => ?_
    obtain ⟨call, -, rfl⟩ := List.mem_map.mp hc
    rfl
  have hq : s.socketOpened n = (s₁.install n).act (·.connected) := by rw [← h₁]; rfl
  have h := (s₁.install n).act_bides (·.connected)
  obtain ⟨hs', hr, hw'⟩ := h.clock (hclock₂ ▸ hs)
  rw [hq]
  refine ⟨hs', .opened hn rfl hl ?_ ?_⟩
  · have hs₁ : s₁.tab.sockets = s.tab.sockets.set n .opened := congrArg Net.sockets hnet
    rw [← hs₁, ← hch]
    exact h.sockets
  · rw [pace, h.attempts, hr, hw', hclock₂, waits_eq_nil hw]
    exact congrArg (Pace.mk · s.tab.clock.reconnects []) ha

theorem socketClosed_links {named : Option Nat} {n : Nat} (hs : s.tab.clock.Sound) (hw : s.tab.clock.asked = [])
    (hb : s.tab.browser.setsTimers = true) (hn : (running s ready).socket? named = some n)
    (hl : s.tab.sockets.ready n ≠ .closed) :
    (s.socketClosed n .closed).tab.clock.Sound ∧
      s.Links ready (.socketClosed named .closed) (s.socketClosed n .closed) := by
  obtain ⟨s₁, h₁⟩ : ∃ s₁, { (s.setSocket n .closed).onTab (·.showStatus .disconnected) with
      channel := s.channel.disconnected } = s₁ := ⟨_, rfl⟩
  have hnet : s₁.tab.net = { s.tab.net with sockets := s.tab.sockets.set n .closed } := by
    subst h₁
    exact Tab.net_showStatus _ _
  obtain ⟨ha, hclock⟩ : s₁.attempts = s.attempts ∧ s₁.tab.clock = s.tab.clock := by
    subst h₁
    exact ⟨rfl, Tab.clock_showStatus _ _⟩
  obtain ⟨s₂, h₂⟩ : ∃ s₂, (if s.channel.isNotOpen then s₁ else s₁.lose) = s₂ := ⟨_, rfl⟩
  have hq : s.socketClosed n .closed = s₂.scheduleReconnect := by
    rw [← h₂, ← h₁]
    simp only [socketClosed]
    cases h : s.channel.isNotOpen <;> simp [h, setSocket, onTab]
  have h : s₁.Bides s₂ := by
    rw [← h₂]
    split
    · exact .refl s₁
    · have h := { s₁ with channel := s₁.channel.discard }.act_bides (·.connectionLost)
      exact ⟨h.browser, h.sockets, h.attempts, h.clock⟩
  obtain ⟨hs₂, hr, hw₂⟩ := h.clock (hclock ▸ hs)
  have hb₂ : s₂.tab.browser = s.tab.browser := h.browser.trans (congrArg Net.browser hnet)
  rw [hclock, waits_eq_nil hw] at hw₂
  obtain ⟨hs₃, hp⟩ := scheduleReconnect_pace hs₂ (hb₂ ▸ hb) hw₂
  rw [hq]
  refine ⟨hs₃, .closed rfl hn hl ?_ ?_⟩
  · exact s₂.scheduleReconnect_wiring.1.trans (h.sockets.trans (congrArg Net.sockets hnet))
  · rw [hp, h.attempts, ha, hr, hclock]

/-- An event finds no calls but those it leads to. -/
theorem answer_links {q : Page K} (hs : s.tab.clock.Sound) (hw : s.tab.clock.asked = [])
    (hb : s.tab.browser.setsTimers = true) (hf : ∀ f ∈ s.tab.fetches, f.2 = .resync)
    (hl : e.Lawful (running s ready)) (h : (running s ready).answer e = some q) :
    ∃ s', q = .running s' ready ∧ s'.tab.clock.Sound ∧ s.Links ready e s' := by
  cases e with
  | start => exact absurd rfl hl.ne_start
  | run code =>
    cases ready with
    | true => cases h; exact ⟨_, rfl, links_of_bides rfl rfl hs hw (s.run_bides code)⟩
    | false => cases h; exact ⟨_, rfl, links_of_bides rfl rfl hs hw (.refl s)⟩
  | step code =>
    cases ready with
    | true => cases h; exact ⟨_, rfl, links_of_bides rfl rfl hs hw (s.step_bides code)⟩
    | false => cases h; exact ⟨_, rfl, links_of_bides rfl rfl hs hw (.refl s)⟩
  | abort =>
    cases ready with
    | true => cases h; exact ⟨_, rfl, links_of_bides rfl rfl hs hw (s.act_bides _)⟩
    | false => cases h; exact ⟨_, rfl, links_of_bides rfl rfl hs hw (.refl s)⟩
  | reply reply named =>
    obtain ⟨⟨id, task⟩, hn, rfl⟩ := Option.map_eq_some_iff.mp h
    obtain rfl : task = .resync := hf _ (mem_of_fetch? hn)
    have hb' : s.Bides (s.settled id) := ⟨rfl, rfl, rfl, .of_eq rfl⟩
    exact ⟨_, rfl, links_of_bides rfl rfl hs hw (hb'.trans ((s.settled id).receiveFarm_bides reply))⟩
  | socketOpened named =>
    obtain ⟨n, hn, rfl⟩ := Option.map_eq_some_iff.mp h
    exact ⟨_, rfl, socketOpened_links hs hw hn (hl n hn)⟩
  | socketClosed named state =>
    obtain ⟨n, hn, rfl⟩ := Option.map_eq_some_iff.mp h
    obtain ⟨hopen, rfl⟩ := hl
    exact ⟨_, rfl, socketClosed_links hs hw hb hn (hopen n hn)⟩
  | message named text =>
    obtain ⟨n, hn, rfl⟩ := Option.map_eq_some_iff.mp h
    cases text with
    | some text => exact ⟨_, rfl, links_of_bides rfl rfl hs hw (s.act_bides (·.receive text))⟩
    | none => exact ⟨_, rfl, links_of_bides rfl rfl hs hw (.refl s)⟩
  | socketFailed named =>
    obtain ⟨n, hn, rfl⟩ := Option.map_eq_some_iff.mp h
    exact ⟨_, rfl, links_of_bides rfl rfl hs hw (.of_net (Tab.net_showStatus _ _) rfl (Tab.clock_showStatus _ _))⟩
  | socketState named state =>
    obtain ⟨n, hn, rfl⟩ := Option.map_eq_some_iff.mp h
    obtain ⟨hopen, rfl⟩ := hl
    refine ⟨_, rfl, hs, .ending rfl rfl (hopen n hn) rfl ?_⟩
    exact congrArg (Pace.mk s.attempts s.tab.clock.reconnects) (waits_eq_nil hw)
  | timer named =>
    obtain ⟨⟨id, task⟩, ht, rfl⟩ := Option.map_eq_some_iff.mp h
    exact ⟨_, rfl, timerFired_links hs hw hb (mem_of_timer? ht)⟩
  | frame now =>
    simp only [Page.answer, Page.animate] at h
    split at h
    · cases h
    · cases h
      exact ⟨_, rfl, links_of_bides rfl rfl hs hw (s.animate_bides now)⟩
  | pointerMoved x y =>
    simp only [Page.answer, Page.heard] at h
    split at h
    · cases h
      exact ⟨_, rfl, links_of_bides rfl rfl hs hw ⟨rfl, rfl, rfl, .of_eq rfl⟩⟩
    · cases h
  | pointerLeft =>
    simp only [Page.answer, Page.heard] at h
    split at h
    · cases h
      exact ⟨_, rfl, links_of_bides rfl rfl hs hw ⟨rfl, rfl, rfl, .of_eq rfl⟩⟩
    · cases h
  | resized sizes =>
    simp only [Page.answer, Page.heard] at h
    split at h
    · cases h
      exact ⟨_, rfl, links_of_bides rfl rfl hs hw (s.resize_bides _)⟩
    · cases h
  | browser b =>
    cases h
    refine ⟨_, rfl, hs, .keep rfl rfl rfl ?_⟩
    exact congrArg (Pace.mk s.attempts s.tab.clock.reconnects) (waits_eq_nil hw)

theorem handle_links {q : Page K} (hs : s.tab.clock.Numbered) (hb : s.tab.browser.setsTimers = true)
    (hf : ∀ f ∈ s.tab.fetches, f.2 = .resync) (hl : e.Lawful (running s ready))
    (h : (running s ready).handle e = some q) :
    ∃ s', q = .running s' ready ∧ s'.tab.clock.Sound ∧ s.Links ready e s' := by
  have hl₀ : e.Lawful (running (s.onTab fun t => { t with calls := [] }) ready) := by cases e <;> exact hl
  have ho₀ : (running (s.onTab fun t => { t with calls := [] }) ready).opening? e = (running s ready).opening? e := by
    cases e <;> rfl
  have hc₀ : (running (s.onTab fun t => { t with calls := [] }) ready).closing? e = (running s ready).closing? e := by
    cases e <;> rfl
  have hs₀ : (s.onTab fun t => { t with calls := [] }).tab.clock.Sound :=
    ⟨⟨hs.timers, hs.distinct⟩, fun x hx => nomatch hx⟩
  obtain ⟨s', rfl, hs', hlinks⟩ := answer_links hs₀ rfl hb hf hl₀ h
  refine ⟨s', rfl, hs', ?_⟩
  cases hlinks with
  | keep ho hc hs hp => exact .keep (ho₀ ▸ ho) (hc₀ ▸ hc) hs hp
  | ending ho hc hn hs hp => exact .ending (ho₀ ▸ ho) (hc₀ ▸ hc) hn hs hp
  | connect ho hc hr hs hp => exact .connect (ho₀ ▸ ho) (hc₀ ▸ hc) hr hs hp
  | again ho hc hr hs hp => exact .again (ho₀ ▸ ho) (hc₀ ▸ hc) hr hs hp
  | opened ho hc hn hs hp => exact .opened (ho₀ ▸ ho) (hc₀ ▸ hc) hn hs hp
  | closed ho hc hn hs hp => exact .closed (ho₀ ▸ ho) (hc₀ ▸ hc) hn hs hp

end Session

end FarmClient.Page
