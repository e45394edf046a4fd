/-
What a page asks of its surroundings when it carries out actions. Panels,
editor and canvas are framed away (`Tab.net`): what is left is the channel,
which gets the messages one after the other, and the timers and fetches that
the browser is asked for.
-/
import FarmClient.Page.Lifecycle
import FarmClient.Proofs.ClientRuns

namespace FarmClient.Page

variable {K : Type} [Shown K]

/-! ## What goes on outside the panels -/

/-- What a tab has going on outside its panels. -/
structure Net where
  browser : Browser
  sockets : Sockets
  timers : List (Nat × TimerTask)
  fetches : List (Nat × FetchTask)
  fetchesMade : Nat

def Tab.net (t : Tab) : Net := ⟨t.browser, t.sockets, t.timers, t.fetches, t.fetchesMade⟩

/-- The timers for an attempt to connect again. -/
def Net.reconnects (n : Net) : Nat := n.timers.countP (·.2 = .reconnect)

namespace Tab

@[simp] theorem net_call (t : Tab) (c : Call) : (t.call c).net = t.net := rfl

@[simp] theorem net_log (t : Tab) (line : String) : (t.log line).net = t.net := by
  unfold log; split <;> rfl

@[simp] theorem net_clearConsole (t : Tab) : t.clearConsole.net = t.net := by
  unfold clearConsole; split <;> rfl

@[simp] theorem net_showResource (t : Tab) (text : String) : (t.showResource text).net = t.net := by
  unfold showResource; split <;> rfl

@[simp] theorem net_showControls (t : Tab) (c : Controls) : (t.showControls c).net = t.net := rfl

@[simp] theorem net_showStatus (t : Tab) (s : LinkStatus) : (t.showStatus s).net = t.net := by
  unfold showStatus; split <;> rfl

@[simp] theorem net_callEditor (t : Tab) (m : EditorMethod) (arguments : List String) :
    (t.callEditor m arguments).net = t.net := by
  unfold callEditor; split <;> rfl

@[simp] theorem net_requestFrame (t : Tab) : t.requestFrame.net = t.net := by
  unfold requestFrame; split <;> rfl

/-- Whether sending succeeds is up to the browser alone. -/
theorem luck_eq {t t' : Tab} (h : t'.browser = t.browser) : t'.luck = t.luck := by
  unfold luck
  rw [h]

end Tab

/-! ## Asking the browser -/

/-- The sockets are left alone. Timers and fetches may be over, and more may
have been asked of the browser: timers other than for connecting, and fetches
of the farm, under new numbers. -/
structure Net.Steady (n n' : Net) : Prop where
  browser : n'.browser = n.browser
  sockets : n'.sockets = n.sockets
  reconnects : n'.reconnects ≤ n.reconnects
  made : n.fetchesMade ≤ n'.fetchesMade
  fetches : ∀ f ∈ n'.fetches, f ∈ n.fetches ∨ f.2 = .resync ∧ n.fetchesMade < f.1 ∧ f.1 ≤ n'.fetchesMade

namespace Net.Steady

theorem refl (n : Net) : n.Steady n := ⟨rfl, rfl, Nat.le_refl _, Nat.le_refl _, fun _ h => .inl h⟩

theorem of_eq {n n' : Net} (h : n' = n) : n.Steady n' := h ▸ .refl n

theorem trans {n₁ n₂ n₃ : Net} (h : n₁.Steady n₂) (h' : n₂.Steady n₃) : n₁.Steady n₃ := by
  refine ⟨h'.browser.trans h.browser, h'.sockets.trans h.sockets, Nat.le_trans h'.reconnects h.reconnects,
    Nat.le_trans h.made h'.made, fun f hf => ?_⟩
  have := h.made
  have := h'.made
  rcases h'.fetches f hf with hf | ⟨hr, hn, hm⟩
  · rcases h.fetches f hf with hf | ⟨hr, hn, hm⟩
    · exact .inl hf
    · exact .inr ⟨hr, hn, by omega⟩
  · exact .inr ⟨hr, by omega, hm⟩

end Net.Steady

namespace Tab

theorem setTimer?_net {t t' : Tab} {task : TimerTask} {delay : Nat} (h : t.setTimer? task delay = some t') :
    ∃ id, t'.net = { t.net with timers := t.timers ++ [(id, task)] } := by
  unfold setTimer? at h
  split at h
  · cases h
  · cases h
    exact ⟨_, rfl⟩

theorem setTimer_steady (t : Tab) {task : TimerTask} (ht : task ≠ .reconnect) (delay : Nat) :
    t.net.Steady (t.setTimer task delay).net := by
  unfold setTimer
  split
  · cases h : t.setTimer? task delay with
    | none => exact .refl _
    | some t' =>
      obtain ⟨id, hn⟩ := setTimer?_net h
      rw [Option.getD_some, hn]
      have hr : { t.net with timers := t.timers ++ [(id, task)] }.reconnects = t.net.reconnects := by
        simp [Net.reconnects, Tab.net, List.countP_append, ht]
      exact { Net.Steady.refl t.net with reconnects := Nat.le_of_eq hr }
  · exact .refl _

theorem fetch_net {t t' : Tab} {url : String} {task : FetchTask} (h : t.fetch url task = .ok t') :
    t'.net = { t.net with
      fetches := t.fetches ++ [(t.fetchesMade + 1, task)], fetchesMade := t.fetchesMade + 1 } := by
  unfold fetch at h
  split at h
  · simp only [bind, Except.bind] at h
    split at h
    · cases h
    · cases h
      rfl
  · cases h

theorem fetch_steady {t t' : Tab} {url : String} (h : t.fetch url .resync = .ok t') : t.net.Steady t'.net := by
  rw [fetch_net h]
  refine ⟨rfl, rfl, Nat.le_refl _, Nat.le_succ _, fun f hf => ?_⟩
  rcases List.mem_append.mp hf with hf | hf
  · exact .inl hf
  · obtain rfl := List.mem_singleton.mp hf
    exact .inr ⟨rfl, Nat.lt_succ_self _, Nat.le_refl _⟩

end Tab

/-! ## Carrying out actions -/

/-- The channel after messages have been handed to it, one after the other. -/
def Channel.sendAll (c : Channel) (sockets : Sockets) (luck : Nat → Bool) (ms : List ClientMessage) : Channel :=
  ms.foldl (fun c m => (c.send sockets m luck).1) c

namespace Session

/-- The messages have been handed to the channel, and perhaps more has been
asked of the browser; the application is the same. -/
structure Serves (s : Session K) (ms : List ClientMessage) (s' : Session K) : Prop where
  app : s'.app = s.app
  channel : s'.channel = s.channel.sendAll s.tab.sockets s.tab.luck ms
  net : s.tab.net.Steady s'.tab.net

namespace Serves

variable {s s₁ s₂ : Session K} {ms ms' : List ClientMessage}

theorem of_net (h : s₁.tab.net = s.tab.net) (ha : s₁.app = s.app) (hc : s₁.channel = s.channel) :
    Serves s [] s₁ :=
  ⟨ha, hc, .of_eq h⟩

theorem trans (h : Serves s ms s₁) (h' : Serves s₁ ms' s₂) : Serves s (ms ++ ms') s₂ := by
  have hs : s₁.tab.sockets = s.tab.sockets := h.net.sockets
  have hl : s₁.tab.luck = s.tab.luck := Tab.luck_eq h.net.browser
  refine ⟨h'.app.trans h.app, ?_, h.net.trans h'.net⟩
  rw [h'.channel, h.channel, hs, hl, Channel.sendAll, Channel.sendAll, Channel.sendAll, List.foldl_append]

end Serves

theorem resyncFailed_serves (s : Session K) (reason : String) : Serves s [] (s.resyncFailed reason) := by
  refine ⟨rfl, rfl, ?_⟩
  have ht : TimerTask.retryResync ≠ .reconnect := by simp
  have h := (s.tab.log ("[error] resync: " ++ reason)).setTimer_steady ht (backoffDelay 255)
  rwa [Tab.net_log] at h

theorem requestFarm_serves (s : Session K) : Serves s [] s.requestFarm := by
  unfold requestFarm
  split
  · next h => exact ⟨rfl, rfl, Tab.fetch_steady h⟩
  · exact s.resyncFailed_serves _

theorem carryOut_serves (s : Session K) (x : Action) : Serves s x.message?.toList (s.carryOut x) := by
  cases x with
  | send m => exact ⟨rfl, rfl, .refl _⟩
  | scheduleAck ticket after => exact ⟨rfl, rfl, s.tab.setTimer_steady (by simp) after⟩
  | resync => exact s.requestFarm_serves
  | highlightLine | clearHighlight | clearConsole | log | controls =>
    exact .of_net (by simp [carryOut, onTab]) rfl rfl

theorem foldl_carryOut_serves (s : Session K) (actions : List Action) :
    Serves s (messagesOf actions) (actions.foldl carryOut s) := by
  induction actions generalizing s with
  | nil => exact .of_net rfl rfl rfl
  | cons x xs ih =>
    rw [messagesOf_cons]
    exact (s.carryOut_serves x).trans (ih _)

/-- **An answer of the application** reaches the channel message by message. -/
theorem act_serves (s : Session K) (answer : App K → App K × List Action) :
    Serves { s with app := (answer s.app).1 } (messagesOf (answer s.app).2) (s.act answer) :=
  foldl_carryOut_serves _ _

end Session

end FarmClient.Page
