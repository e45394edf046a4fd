/-
Visits: pages from their loading on, in a browser that treats sockets as
browsers do. Each socket opens at most once and closes at most once, and
another is made only by a timer that the close of the one before has set: at
no time is there more than one of them, so that the channel is connected
whenever a socket is open.
-/
import FarmClient.Proofs.PageTurns

namespace FarmClient.Page

variable {K : Type} [Shown K]

/-- Startup has not begun, or has not come to its fetch. -/
def isFresh : Page K → Bool
  | .loading t => t.fetchesMade = 0
  | .running _ _ => false

/-- What a browser may do next. A page starts once; a socket opens only while
it connects, closes once, and is closing without a word only if it was open. -/
def Event.Lawful (p : Page K) : Event → Prop
  | .start => p.isFresh = true
  | .socketOpened named => ∀ n ∈ p.socket? named, p.tab.sockets.ready n = .connecting
  | .socketClosed named state =>
    (∀ n ∈ p.socket? named, p.tab.sockets.ready n ≠ .closed) ∧ state = .closed
  | .socketState named state =>
    (∀ n ∈ p.socket? named, p.tab.sockets.ready n = .opened) ∧ state = .closing
  | _ => True

instance (p : Page K) (e : Event) : Decidable (e.Lawful p) :=
  match e with
  | .start => inferInstanceAs (Decidable (p.isFresh = true))
  | .socketOpened named => inferInstanceAs (Decidable (∀ n ∈ p.socket? named, _))
  | .socketClosed named _ => inferInstanceAs (Decidable ((∀ n ∈ p.socket? named, _) ∧ _))
  | .socketState named _ => inferInstanceAs (Decidable ((∀ n ∈ p.socket? named, _) ∧ _))
  | .run _ | .step _ | .abort | .reply _ _ | .message _ _ | .socketFailed _ | .timer _ | .frame _
  | .pointerMoved _ _ | .pointerLeft | .resized _ | .browser _ => .isTrue trivial

theorem Event.Lawful.ne_start {s : Session K} {ready : Bool} {e : Event} (h : e.Lawful (.running s ready)) :
    e ≠ .start := by
  rintro rfl
  cases h

/-- The page once the payload for startup has made an application. -/
def begun (t : Tab) (id : Nat) (endpoints : Endpoints) (app : App K) (painter : Painter) : Page K :=
  .ofSetUp (Session.ofMaterial { t with fetches := t.fetches.filter (·.1 ≠ id) } endpoints app painter).setUp

/-- The pages of visits. What the payload for startup makes is left open,
but for the controller: no session has been started then. -/
inductive Visit : Page K → Prop
  | load (b : Browser) : Visit (.ofBrowser b)
  | event {p q} (e : Event) : Visit p → e.Lawful p → p.handle e = some q → Visit q
  | payload {t id endpoints} (settings : Settings K) (scene : Scene K) (painter : Painter) :
      Visit (.loading t) → (id, .startup endpoints) ∈ t.fetches →
      Visit (begun t id endpoints { App.ofSettings settings with scene } painter)

/-! ## The channel stays connected -/

namespace Channel

theorem succeeded_isNotOpen {c : Channel} (h : c.isNotOpen = false) : c.succeeded.isNotOpen = false := by
  unfold succeeded
  split
  · exact h
  · rfl

theorem failed_isNotOpen {c : Channel} (p : Pending) (h : c.isNotOpen = false) :
    (c.failed p).isNotOpen = false := by
  simp only [failed, isNotOpen] at *
  split
  · rfl
  · exact h

/-- Trying to send never takes the connection away. -/
theorem attempt_isNotOpen (n : Nat) (ps : List Pending) :
    ∀ {c : Channel} {luck : Nat → Bool}, c.isNotOpen = false → (c.attempt n luck ps).1.isNotOpen = false := by
  induction ps with
  | nil => exact id
  | cons p ps ih =>
    intro c luck h
    simp only [attempt]
    cases luck 0 with
    | true => exact ih (succeeded_isNotOpen h)
    | false => exact ih (failed_isNotOpen p h)

theorem flush_isNotOpen {c : Channel} (sockets : Sockets) (luck : Nat → Bool) (h : c.isNotOpen = false) :
    (c.flush sockets luck).1.isNotOpen = false := by
  unfold flush
  split
  · exact h
  · split
    · exact attempt_isNotOpen _ _ h
    · exact h

theorem sendAll_isNotOpen (sockets : Sockets) (luck : Nat → Bool) (ms : List ClientMessage) :
    ∀ {c : Channel}, c.isNotOpen = false → (c.sendAll sockets luck ms).isNotOpen = false := by
  induction ms with
  | nil => exact id
  | cons m ms ih => exact fun h => ih (flush_isNotOpen sockets luck h)

theorem install_isNotOpen (c : Channel) (sockets : Sockets) (n : Nat) (luck : Nat → Bool) :
    (c.install sockets n luck).1.isNotOpen = false :=
  flush_isNotOpen (c := { c with socket := some n, state := .connected, failures := 0 }) (c.release sockets).1
    luck rfl

end Channel

/-! ## One socket at a time -/

/-- Sockets that have not closed. -/
def Sockets.unclosed (s : Sockets) : Nat := s.countP (· ≠ .closed)

namespace Sockets

variable {s : Sockets} {n : Nat} {x : ReadyState}

theorem ready_of_lt (h : n < s.length) : s.ready n = s[n] := by simp [ready, h]

theorem unclosed_set_le (s : Sockets) (n : Nat) (hx : n < s.length → s.ready n = .closed → x = .closed) :
    unclosed (s.set n x) ≤ s.unclosed := by
  by_cases hn : n < s.length
  · have hr := ready_of_lt hn
    have hp : (if s[n] ≠ .closed then 1 else 0) ≤ s.unclosed := by
      simpa [unclosed] using List.boole_getElem_le_countP (p := (· ≠ ReadyState.closed)) hn
    simp only [unclosed, List.countP_set hn] at *
    by_cases hc : s[n] = .closed
    · simp [hx hn (hr.trans hc), hc]
    · simp only [ne_eq, hc, not_false_eq_true, if_true, decide_true] at *
      split <;> omega
  · exact Nat.le_of_eq (congrArg unclosed (List.set_eq_of_length_le (by omega)))

/-- The close of a socket that had not closed counts. -/
theorem unclosed_close (hn : n < s.length) (hc : s.ready n ≠ .closed) :
    unclosed (s.set n .closed) + 1 = s.unclosed := by
  rw [ready_of_lt hn] at hc
  have hp := List.boole_getElem_le_countP (p := (· ≠ ReadyState.closed)) hn
  simp only [unclosed, List.countP_set hn]
  simp only [ne_eq, hc, not_false_eq_true, if_true, decide_true, not_true_eq_false, decide_false,
    Bool.false_eq_true, if_false] at *
  omega

theorem ready_eq_closed (h : s.unclosed = 0) (n : Nat) : s.ready n = .closed := by
  by_cases hn : n < s.length
  · rw [ready_of_lt hn]
    simpa using List.countP_eq_zero.mp h s[n] (List.getElem_mem hn)
  · simp [ready, List.getElem?_eq_none (Nat.not_lt.mp hn)]

end Sockets

/-- What holds of a session in a visit. -/
structure Session.Chained (s : Session K) : Prop where
  /-- One socket that has not closed, or one attempt to come. -/
  alone : s.tab.sockets.unclosed + s.tab.net.reconnects ≤ 1
  opened : ∀ n, s.tab.sockets.ready n = .opened ∨ s.tab.sockets.ready n = .closing →
    s.channel.isNotOpen = false
  resyncs : ∀ f ∈ s.tab.fetches, f.2 = .resync
  made : ∀ f ∈ s.tab.fetches, f.1 ≤ s.tab.fetchesMade

namespace Session

variable {s s' : Session K} {ready : Bool}

theorem release_unclosed (c : Channel) (sockets : Sockets) :
    (c.release sockets).1.unclosed ≤ sockets.unclosed := by
  unfold Channel.release
  split
  · exact Nat.le_refl _
  · next n hn =>
    split
    · next ha => exact Sockets.unclosed_set_le _ _ fun _ hc => by simp [Sockets.isAlive, hc] at ha
    · exact Nat.le_refl _

theorem socket?_lt {named : Option Nat} {n : Nat} (h : (Page.running s ready).socket? named = some n) :
    n < s.tab.sockets.length := by
  have h : (if named.getD (s.tab.sockets.length - 1) < s.tab.sockets.length then
      some (named.getD (s.tab.sockets.length - 1)) else none) = some n := h
  split at h
  · cases h; assumption
  · cases h

theorem ready_set_of_ne {sockets : Sockets} {n m : Nat} {x : ReadyState} (h : n ≠ m) :
    Sockets.ready (sockets.set n x) m = sockets.ready m := by
  simp [Sockets.ready, List.getElem?_set_ne h]

theorem Chained.turn {e : Event} (h : s.Chained) (hl : e.Lawful (.running s ready))
    (ht : Turn s ready e s') : s'.Chained := by
  obtain ⟨ha, ho, hr, hm⟩ := h
  have hr' : ∀ f ∈ s'.tab.fetches, f.2 = .resync := fun f hf =>
    (ht.fetches f hf).elim (hr f) fun h => h.1
  have hm' : ∀ f ∈ s'.tab.fetches, f.1 ≤ s'.tab.fetchesMade := fun f hf =>
    (ht.fetches f hf).elim (fun h => Nat.le_trans (hm f h) ht.made) fun h => h.2.2
  have hc := ht.channel
  cases ht.wiring with
  | keep hp hs hn =>
    rw [hp] at hc
    refine ⟨by rw [hs]; omega, fun n hx => ?_, hr', hm'⟩
    rw [hs] at hx
    rw [hc]
    exact Channel.sendAll_isNotOpen _ _ _ (ho n hx)
  | connect hs hn =>
    refine ⟨?_, fun n hx => ?_, hr', hm'⟩
    · have hu : s'.tab.sockets.unclosed = s.tab.sockets.unclosed + 1 := by
        rw [hs]
        simp [Sockets.unclosed, List.countP_append]
      omega
    · rw [hc]
      refine Channel.sendAll_isNotOpen _ _ _ (ho n ?_)
      -- the new socket is neither open nor closing
      rw [hs] at hx
      rcases Nat.lt_trichotomy n s.tab.sockets.length with hlt | rfl | hgt
      · simpa [Sockets.ready, List.getElem?_append_left hlt] using hx
      · simp [Sockets.ready] at hx
      · simp [Sockets.ready, List.getElem?_eq_none (l := s.tab.sockets ++ [ReadyState.connecting]) (i := n)
          (by simp; omega)] at hx
  | @opened named n _ hn hs hr =>
    refine ⟨?_, fun n _ => ?_, hr', hm'⟩
    · have h₁ := release_unclosed s.channel (s.tab.sockets.set n .opened)
      have h₂ := Sockets.unclosed_set_le (x := .opened) s.tab.sockets n fun _ hx =>
        absurd ((hl n hn).symm.trans hx) (by simp)
      rw [← hs] at h₁
      omega
    · rw [hc]
      simp only [prepared, hn]
      exact Channel.sendAll_isNotOpen _ _ _ (Channel.install_isNotOpen ..)
  | @closed named state n _ hn hs hr hf =>
    obtain ⟨hopen, rfl⟩ := hl
    have hu := Sockets.unclosed_close (socket?_lt hn) (hopen n hn)
    rw [← hs] at hu
    refine ⟨by omega, fun m hx => ?_, hr', hm'⟩
    -- no other socket is left
    have hz : s'.tab.sockets.unclosed = 0 := by omega
    rw [Sockets.ready_eq_closed hz] at hx
    simp at hx
  | @state named state n _ hn hs hr =>
    obtain ⟨hopen, rfl⟩ := hl
    refine ⟨?_, fun m hx => ?_, hr', hm'⟩
    · have hu := Sockets.unclosed_set_le (x := .closing) s.tab.sockets n fun _ hx =>
        absurd ((hopen n hn).symm.trans hx) (by simp)
      rw [← hs] at hu
      omega
    · rw [hc]
      refine Channel.sendAll_isNotOpen _ _ _ (ho m ?_)
      rw [hs] at hx
      by_cases he : n = m
      · subst he
        exact .inl (hopen n hn)
      · rwa [ready_set_of_ne he] at hx

theorem Chained.of_net (h : s.Chained) (hn : s'.tab.net = s.tab.net) (hc : s'.channel = s.channel) :
    s'.Chained := by
  obtain ⟨ha, ho, hr, hm⟩ := h
  have hs : s'.tab.sockets = s.tab.sockets := congrArg Net.sockets hn
  have hf : s'.tab.fetches = s.tab.fetches := congrArg Net.fetches hn
  have hk : s'.tab.fetchesMade = s.tab.fetchesMade := congrArg Net.fetchesMade hn
  exact ⟨by rwa [hs, hn], by rwa [hs, hc], by rwa [hf], by rwa [hf, hk]⟩

/-! ### Setting up -/

/-- At most one socket is made, and it is connecting. -/
def SetsUp (s s' : Session K) : Prop :=
  s'.tab.net = s.tab.net ∨ s'.tab.net = { s.tab.net with sockets := s.tab.sockets ++ [.connecting] }

theorem listen_net (service : Service) (call : Call) (attach : Listeners → Listeners) (s : Session K) :
    (s.listen service call attach).1.tab.net = s.tab.net := by
  unfold listen
  split <;> rfl

/-- A step without sockets before the others. -/
theorem takeSteps_setsUp {step : Session K → Session K × Option Thrown}
    {steps : List (Session K → Session K × Option Thrown)}
    (h₁ : ∀ s, (step s).1.tab.net = s.tab.net) (h₂ : ∀ s, SetsUp s (s.takeSteps steps).1) (s : Session K) :
    SetsUp s (s.takeSteps (step :: steps)).1 := by
  have hn := h₁ s
  simp only [takeSteps]
  cases hs : step s with
  | mk s' fault =>
    rw [hs] at hn
    cases fault with
    | none =>
      have h := h₂ s'
      have hss : s'.tab.sockets = s.tab.sockets := congrArg Net.sockets hn
      unfold SetsUp at h
      rwa [hss, hn] at h
    | some e => exact .inl hn

theorem setUp_setsUp (s : Session K) : SetsUp s s.setUp.1 := by
  have hc : ∀ s : Session K,
      SetsUp s (s.takeSteps [firstConnect, fun s => (s.onTab (·.requestFrame), none)]).1 := by
    intro s
    simp only [takeSteps, firstConnect]
    cases h : s.connect with
    | error e => exact .inl rfl
    | ok s' => exact .inr ((Tab.net_requestFrame _).trans (connect_net h).1)
  have h := takeSteps_setsUp (listen_net .resizeObserver (.observe .canvas) fun l => { l with resize := true })
    (takeSteps_setsUp (listen_net .mouseMove (.listen "mousemove") fun l => { l with move := true })
      (takeSteps_setsUp (listen_net .mouseLeave (.listen "mouseleave") fun l => { l with leave := true }) hc))
  exact h s.showControls

/-- A session is sound once it has been set up. -/
theorem setUp_chained {s : Session K} (hs : s.tab.sockets = []) (ht : s.tab.timers = [])
    (hf : s.tab.fetches = []) : s.setUp.1.Chained := by
  have hn := s.setUp_setsUp
  have hsock : s.setUp.1.tab.sockets = [] ∨ s.setUp.1.tab.sockets = [.connecting] := by
    rcases hn with hn | hn
    · exact .inl ((congrArg Net.sockets hn).trans hs)
    · exact .inr ((congrArg Net.sockets hn).trans (by simp [hs]))
  have hft : s.setUp.1.tab.fetches = [] ∧ s.setUp.1.tab.net.timers = [] := by
    rcases hn with hn | hn <;> exact ⟨(congrArg Net.fetches hn).trans hf, (congrArg Net.timers hn).trans ht⟩
  refine ⟨?_, fun n hx => ?_, by simp [hft.1], by simp [hft.1]⟩
  · rcases hsock with hx | hx <;> simp [hx, Net.reconnects, hft.2, Sockets.unclosed]
  · rcases hsock with hk | hk <;> rw [hk] at hx
    · simp [Sockets.ready] at hx
    · cases n <;> simp [Sockets.ready] at hx

end Session

/-! ## Loading -/

/-- What holds while a page loads: there is at most one fetch. -/
structure Net.Waiting (n : Net) : Prop where
  sockets : n.sockets = []
  timers : n.timers = []
  fetches : n.fetches.length ≤ n.fetchesMade
  once : n.fetchesMade ≤ 1
  made : ∀ f ∈ n.fetches, f.1 ≤ n.fetchesMade

/-- What holds of the pages of visits. -/
def Sound : Page K → Prop
  | .loading t => t.net.Waiting
  | .running s _ => s.Chained

/-- The one fetch of a page that loads has its reply. -/
theorem Net.Waiting.settle {n : Net} (h : n.Waiting) {f : Nat × FetchTask} (hf : f ∈ n.fetches) :
    n.fetches.filter (·.1 ≠ f.1) = [] := by
  have hl := h.fetches
  have ho := h.once
  have hs : n.fetches = [f] := by
    cases hn : n.fetches with
    | nil => simp [hn] at hf
    | cons g gs =>
      rw [hn] at hl hf
      have hg : gs = [] := List.length_eq_zero_iff.mp (by simp only [List.length_cons] at hl; omega)
      subst hg
      rw [List.mem_singleton.mp hf]
  simp [hs]

theorem Net.Waiting.begun {t : Tab} (h : t.net.Waiting) {id : Nat} {endpoints : Endpoints}
    (hf : (id, .startup endpoints) ∈ t.fetches) (app : App K) (painter : Painter) :
    (Page.begun t id endpoints app painter).Sound := by
  obtain ⟨s, hs⟩ : ∃ s,
      Session.ofMaterial { t with fetches := t.fetches.filter (·.1 ≠ id) } endpoints app painter = s := ⟨_, rfl⟩
  have hc : s.setUp.1.Chained := by
    subst hs
    exact Session.setUp_chained h.sockets h.timers (h.settle hf)
  simp only [Page.begun, hs]
  cases hu : s.setUp with
  | mk s' fault =>
    rw [hu] at hc
    cases fault with
    | none => exact hc
    | some e => exact hc.of_net (Tab.net_log _ _) rfl

/-- Startup fetches the payload, or fails before. -/
theorem enter_fetch {t t' : Tab} (h : t.enter = .ok t') :
    ∃ url endpoints, t.fetch url (.startup endpoints) = .ok t' := by
  unfold Tab.enter at h
  simp only [bind, Except.bind] at h
  split at h
  · cases h
  · split at h
    · cases h
    · split at h
      · cases h
      · cases h
      · split at h
        · cases h
        · exact ⟨_, _, h⟩

theorem Net.Waiting.enter {t t' : Tab} (h : t.net.Waiting) (hz : t.fetchesMade = 0) (he : t.enter = .ok t') :
    t'.net.Waiting := by
  obtain ⟨url, endpoints, hf⟩ := enter_fetch he
  have hn : t.fetches = [] := by
    have hl : t.fetches.length ≤ t.fetchesMade := h.fetches
    exact List.length_eq_zero_iff.mp (by omega)
  rw [Tab.fetch_net hf, hn, hz]
  exact ⟨h.sockets, h.timers, Nat.le_refl _, Nat.le_refl _, by simp⟩

theorem Net.Waiting.answer {t : Tab} (h : t.net.Waiting) {e : Event} {q : Page K}
    (hl : e.Lawful (.loading t : Page K)) (hq : (Page.loading t).answer e = some q) : q.Sound := by
  have hns : ∀ named, (Page.loading t : Page K).socket? named = none := by
    intro named
    have hs : t.sockets = [] := h.sockets
    simp [Page.socket?, Page.tab, hs]
  cases e with
  | start =>
    cases hq
    have hz : t.fetchesMade = 0 := of_decide_eq_true hl
    simp only [Page.start, Page.tab]
    split
    · next t' he => exact h.enter hz he
    · next e _ =>
      have hn : (t.startupFailed e).net = t.net := Tab.net_log _ _
      exact (hn ▸ h : (t.startupFailed e).net.Waiting)
  | run code | step code | abort => cases hq; exact h
  | reply reply named =>
    obtain ⟨⟨id, task⟩, hf, rfl⟩ := Option.map_eq_some_iff.mp hq
    have hm : (id, task) ∈ t.fetches := Session.mem_of_fetch? hf
    have hw : { t with fetches := t.fetches.filter (·.1 ≠ id) }.net.Waiting :=
      ⟨h.sockets, h.timers, Nat.le_trans (List.length_filter_le _ _) h.fetches, h.once,
        fun f hf => h.made f (List.mem_filter.mp hf).1⟩
    cases task with
    | resync => exact hw
    | startup endpoints =>
      simp only [Page.resume, Page.onTab, Page.tab]
      split
      · next e _ =>
        have hn : ({ t with fetches := t.fetches.filter (·.1 ≠ id) }.startupFailed e).net = _ := Tab.net_log _ _
        exact (hn ▸ hw : Net.Waiting _)
      · next app painter _ => exact h.begun hm app painter
  | socketOpened named | socketClosed named state | message named text | socketFailed named
  | socketState named state => simp [Page.answer, Page.atSocket, hns] at hq
  | timer named =>
    have ht : t.timers = [] := h.timers
    cases named <;> simp [Page.answer, Page.fire, Page.timer?, Page.tab, ht] at hq
  | frame now =>
    simp only [Page.answer, Page.animate] at hq
    split at hq
    · cases hq
    · cases hq; exact h
  | pointerMoved | pointerLeft | resized =>
    simp only [Page.answer, Page.heard] at hq
    split at hq
    · cases hq; exact h
    · cases hq
  | browser b => cases hq; exact ⟨h.sockets, h.timers, h.fetches, h.once, h.made⟩

theorem Event.Lawful.uncalled {t : Tab} {e : Event} (h : e.Lawful (.loading t : Page K)) :
    e.Lawful (.loading { t with calls := [] } : Page K) := by
  cases e <;> exact h

/-- **The pages of visits are sound.** -/
theorem Visit.sound {p : Page K} (h : Visit p) : p.Sound := by
  induction h with
  | load b => exact ⟨rfl, rfl, Nat.le_refl _, Nat.zero_le _, by simp [Tab.net, Tab.fresh]⟩
  | @event p q e _ hl hq ih =>
    cases p with
    | loading t => exact Net.Waiting.answer (t := { t with calls := [] }) ih hl.uncalled hq
    | running s ready =>
      obtain ⟨s', rfl, ht⟩ := Session.handle_turn ih.resyncs hl.ne_start hq
      exact Session.Chained.turn ih hl ht
  | payload settings scene painter _ hf ih => exact Net.Waiting.begun ih hf _ painter

/-! ### Visits from a list of events -/

/-- The page after some events; one that there is nothing for is passed over. -/
def after (p : Page K) : List Event → Page K
  | [] => p
  | e :: es => ((p.handle e).getD p).after es

/-- Each of some events is lawful when it comes. -/
def AllLawful (p : Page K) : List Event → Prop
  | [] => True
  | e :: es => e.Lawful p ∧ AllLawful ((p.handle e).getD p) es

instance AllLawful.decide (p : Page K) : (es : List Event) → Decidable (AllLawful p es)
  | [] => .isTrue trivial
  | _ :: es => @instDecidableAnd _ _ _ (AllLawful.decide _ es)

theorem Visit.after {p : Page K} (h : Visit p) : ∀ {es : List Event}, AllLawful p es → Visit (p.after es)
  | [], _ => h
  | e :: es, hl => by
    simp only [Page.after]
    refine Visit.after ?_ hl.2
    cases hq : p.handle e with
    | none => exact h
    | some q => exact h.event e hl.1 hq
termination_by es => es

end FarmClient.Page
