/-
The gate for new sessions after a connection was lost: no session is started
before a snapshot has been applied, but the snapshot may be older than the
loss. Fetches are not tied to a connection; one that was made for an earlier
loss and is answered after the next opens the gate again. That is possible
exactly if such a fetch is without a reply when the connection is lost.
-/
import FarmClient.Proofs.ExactFarm
import FarmClient.Proofs.PageVisits

namespace FarmClient.Page

variable {K : Type} [Shown K]

/-! ## Losses, starts and snapshots -/

/-- The messages that an event hands to the channel. -/
def hands : Page K → Event → List ClientMessage
  | .loading _, _ => []
  | .running s ready, e => s.hands ready e

/-- An event hands the start of a session to the channel. -/
def Starts (p : Page K) (e : Event) : Prop := ∃ mode code, .start mode code ∈ p.hands e

/-- An open socket closes. It may have begun to close before. -/
inductive Breaks : Page K → Event → Prop
  | close {p : Page K} {named : Option Nat} {n : Nat} : p.socket? named = some n →
      p.tab.sockets.ready n = .opened ∨ p.tab.sockets.ready n = .closing →
      Breaks p (.socketClosed named .closed)

/-- The reply to the fetch number `k` brings a snapshot, and it is applied. -/
inductive Applies (k : Nat) : Page K → Event → Prop
  | reply {s : Session K} {ready : Bool} {reply : Reply} {named : Option Nat} {b : Bootstrap} {app : App K} :
      (Page.running s ready).fetch? named = some (k, .resync) → s.tab.payload reply = .ok b →
      s.app.resync b.farm = .ok app → Applies k (.running s ready) (.reply reply named)

/-- Startup came to its end: the buttons work. -/
def isReady : Page K → Bool
  | .loading _ => false
  | .running _ ready => ready

/-- From `p` events lead to a page; each is listed with the page it found. -/
inductive Path (p : Page K) : List (Page K × Event) → Page K → Prop
  | nil : Path p [] p
  | event {past q r} (e : Event) : Path p past q → e.Lawful q → q.handle e = some r → Path p (past ++ [(q, e)]) r

/-- A running page goes on running, and what every turn keeps it keeps. -/
theorem Path.invariant {s : Session K} {ready : Bool} {past : List (Page K × Event)} {r : Page K}
    {I : List (Page K × Event) → Session K → Prop} (h : Path (.running s ready) past r) (hc : s.Chained)
    (h₀ : I [] s)
    (hs : ∀ {past s₁ e s₂}, I past s₁ → s₁.Chained → Session.Turn s₁ ready e s₂ →
      I (past ++ [(.running s₁ ready, e)]) s₂) :
    ∃ s', r = .running s' ready ∧ s'.Chained ∧ I past s' := by
  induction h with
  | nil => exact ⟨s, rfl, hc, h₀⟩
  | event e _ hl hq ih =>
    obtain ⟨s₁, rfl, hc₁, h₁⟩ := ih
    obtain ⟨s₂, rfl, ht⟩ := Session.handle_turn hc₁.resyncs hl.ne_start hq
    exact ⟨s₂, rfl, hc₁.turn hl ht, hs h₁ hc₁ ht⟩

/-! ## One event -/

namespace Session

variable {s s' : Session K} {ready : Bool} {e : Event}

/-- What can start a session is given to the application by the buttons of a
page that is ready, and a farm by the reply to a fetch. -/
theorem input?_cases {i : Input K} (h : s.input? ready e = some i) :
    (ready = true ∧ ¬ i.Resyncs) ∨
      (∃ reply named id b, e = .reply reply named ∧ (Page.running s ready).fetch? named = some (id, .resync) ∧
        s.tab.payload reply = .ok b ∧ i = .resync b.farm) ∨
      (¬ i.Resyncs ∧ ∀ (mode : ExecMode) code, i ≠ mode.press code) := by
  have hp {i : Input K} (ht : ∀ code, i ≠ .toggleRun code) (hs : ∀ code, i ≠ .step code) :
      ∀ (mode : ExecMode) code, i ≠ mode.press code := by
    intro mode code
    cases mode with
    | autoStep => exact ht code
    | manualStep => exact hs code
  cases e with
  | run | step | abort =>
    simp only [input?] at h
    split at h
    · cases h
      exact .inl ⟨by assumption, by rintro ⟨⟩⟩
    · cases h
  | reply reply named =>
    simp only [input?] at h
    split at h
    · next id hf =>
      obtain ⟨b, hb, rfl⟩ := Option.map_eq_some_iff.mp h
      refine .inr (.inl ⟨reply, named, id, b, rfl, hf, ?_, rfl⟩)
      cases hq : s.tab.payload reply with
      | error e => simp [hq, Except.toOption] at hb
      | ok b' => simpa [hq, Except.toOption] using hb
    · cases h
  | message named text =>
    obtain ⟨t, -, rfl⟩ := Option.map_eq_some_iff.mp h
    exact .inr (.inr ⟨by rintro ⟨⟩, hp (by simp) (by simp)⟩)
  | timer | socketClosed =>
    simp only [input?] at h
    split at h <;> cases h
    exact .inr (.inr ⟨by rintro ⟨⟩, hp (by simp) (by simp)⟩)
  | socketOpened | frame | pointerMoved | pointerLeft =>
    cases h
    exact .inr (.inr ⟨by rintro ⟨⟩, hp (by simp) (by simp)⟩)
  | start | socketFailed | socketState | resized | browser => cases h

/-- A start is handed over only by the buttons, and through an open gate. -/
theorem of_starts (h : (Page.running s ready).Starts e) :
    ready = true ∧ s.app.controller.resyncRequired = false := by
  obtain ⟨mode, code, hm⟩ := h
  simp only [Page.hands, hands] at hm
  cases hi : s.input? ready e with
  | none => simp [hi] at hm
  | some i =>
    rw [hi] at hm
    obtain ⟨rfl, hr⟩ := (s.app.answer_move i).start_mem hm
    refine ⟨?_, hr⟩
    rcases input?_cases hi with ⟨hy, -⟩ | ⟨_, _, _, b, -, -, -, hb⟩ | ⟨-, hp⟩
    · exact hy
    · cases mode <;> cases hb
    · exact absurd rfl (hp mode code)

/-- The gate stays closed but for a snapshot that is applied. -/
theorem Turn.resyncRequired (h : Turn s ready e s') (hr : s.app.controller.resyncRequired = true)
    (ha : ∀ k, ¬ Applies k (.running s ready) e) : s'.app.controller.resyncRequired = true := by
  rw [h.app]
  cases hi : s.input? ready e with
  | none => exact hr
  | some i =>
    have hk (hn : ¬ i.Resyncs) : (s.app.answer i).1.controller.resyncRequired = true :=
      (s.app.answer_move i).resyncRequired hr hn
    rcases input?_cases hi with ⟨-, hn⟩ | ⟨reply, named, id, b, rfl, hf, hb, rfl⟩ | ⟨hn, -⟩
    · exact hk hn
    · cases hs : s.app.resync b.farm with
      | ok app => exact absurd (.reply hf hb hs) (ha id)
      | error e => simpa [App.answer, App.resyncIfFits, hs] using hr
    · exact hk hn

end Session

theorem Starts.isReady {p : Page K} {e : Event} (h : p.Starts e) : p.isReady = true := by
  cases p with
  | loading t =>
    obtain ⟨mode, code, hm⟩ := h
    cases hm
  | running s ready => exact (Session.of_starts h).1

/-- What a loss leaves: a closed gate, and the fetches as they were. -/
theorem Breaks.turn {p q : Page K} {e : Event} (hv : Visit p) (hb : Breaks p e) (hq : p.handle e = some q) :
    ∃ s s' ready, p = .running s ready ∧ q = .running s' ready ∧ s.Chained ∧ s'.Chained ∧
      s'.app.controller.state = .idle ∧ s'.app.controller.resyncRequired = true ∧
      s'.tab.fetches = s.tab.fetches ∧ s.tab.fetchesMade ≤ s'.tab.fetchesMade := by
  cases hb with
  | @close named n hn hr =>
    cases p with
    | loading t =>
      have ht : t.sockets = [] := hv.sound.sockets
      simp [Page.tab, ht, Sockets.ready] at hr
    | running s ready =>
      have hc : s.Chained := hv.sound
      have hl : (Event.socketClosed named .closed).Lawful (.running s ready) := by
        refine ⟨fun m hm => ?_, rfl⟩
        obtain rfl : n = m := Option.some.inj (hn.symm.trans hm)
        rcases hr with hr | hr <;> simp [hr]
      obtain ⟨s', rfl, ht⟩ := Session.handle_turn hc.resyncs hl.ne_start hq
      have hi : s.input? ready (.socketClosed named .closed) = some .connectionLost := by
        simp [Session.input?, hc.opened n hr]
      have ha : s'.app = s.app.connectionLost.1 := by
        rw [ht.app, hi]
        rfl
      refine ⟨s, s', ready, rfl, rfl, hc, hc.turn hl ht, by rw [ha]; rfl, by rw [ha]; rfl, ?_, ht.made⟩
      cases ht.wiring with
      | keep hp =>
        -- the channel would still be connected
        have ho := hc.opened n hr
        rw [← hp] at ho
        simp only [Session.prepared] at ho
        split at ho <;> cases ho
      | closed _ _ _ hf => exact hf

/-! ## After a loss -/

variable {s s' : Session K} {ready : Bool} {past : List (Page K × Event)} {r : Page K} {e : Event}

/-- Behind a closed gate every start has a snapshot before it. -/
theorem Path.applied_of_starts (h : Path (.running s ready) past r) (hc : s.Chained)
    (hr : s.app.controller.resyncRequired = true) (hs : r.Starts e) :
    ∃ step ∈ past, ∃ k, Applies k step.1 step.2 := by
  obtain ⟨s', rfl, -, hi⟩ := h.invariant (I := fun past s =>
      (∃ step ∈ past, ∃ k, Applies k step.1 step.2) ∨ s.app.controller.resyncRequired = true) hc (.inr hr) <| by
    rintro past s₁ e s₂ (⟨step, hm, hk⟩ | hr) - ht
    · exact .inl ⟨step, List.mem_append_left _ hm, hk⟩
    · by_cases ha : ∃ k, Applies k (.running s₁ ready) e
      · exact .inl ⟨_, List.mem_append_right _ (List.mem_singleton_self _), ha⟩
      · exact .inr (ht.resyncRequired hr fun k hk => ha ⟨k, hk⟩)
  refine hi.resolve_right fun hr => ?_
  rw [(Session.of_starts hs).2] at hr
  cases hr

/-- Where no fetch is without a reply, only new ones are applied. -/
theorem Path.applied_new (h : Path (.running s ready) past r) (hc : s.Chained) {n : Nat}
    (hn : n ≤ s.tab.fetchesMade) (hf : s.tab.fetches = []) :
    ∀ step ∈ past, ∀ k, Applies k step.1 step.2 → n < k := by
  obtain ⟨s', -, -, hi⟩ := h.invariant (I := fun past s =>
      (∀ step ∈ past, ∀ k, Applies k step.1 step.2 → n < k) ∧ n ≤ s.tab.fetchesMade ∧
        ∀ f ∈ s.tab.fetches, n < f.1) hc ⟨by simp, hn, by simp [hf]⟩ <| by
    rintro past s₁ e s₂ ⟨ha, hn, hf⟩ - ht
    refine ⟨fun step hm k hk => ?_, Nat.le_trans hn ht.made, fun f hm => ?_⟩
    · rw [List.mem_append, List.mem_singleton] at hm
      rcases hm with hm | rfl
      · exact ha step hm k hk
      · cases hk with
        | reply hk => exact hf _ (Session.mem_of_fetch? hk)
    · exact (ht.fetches f hm).elim (hf f) fun hm => Nat.lt_of_le_of_lt hn hm.2.1
  exact hi.1

theorem Path.isReady (h : Path (.running s ready) past r) (hc : s.Chained) : r.isReady = ready := by
  obtain ⟨s', rfl, -⟩ := h.invariant (I := fun _ _ => True) hc trivial fun _ _ _ => trivial
  rfl

/-! ### An old fetch opens the gate -/

theorem fetch?_of_mem (s : Session K) (ready : Bool) (hr : ∀ f ∈ s.tab.fetches, f.2 = .resync) {k : Nat}
    (hk : (k, .resync) ∈ s.tab.fetches) : (Page.running s ready).fetch? (some k) = some (k, .resync) := by
  cases hf : (Page.running s ready).fetch? (some k) with
  | none =>
    have hn := List.find?_eq_none.mp hf _ hk
    simp at hn
  | some f =>
    obtain ⟨id, task⟩ := f
    obtain rfl : task = .resync := hr _ (Session.mem_of_fetch? hf)
    obtain rfl : id = k := by simpa using List.find?_some hf
    rfl

theorem payload_of_read {t : Tab} (ht : t.browser.fails .text = false) {text : String} {b : Bootstrap}
    (hb : Bootstrap.read text.toList = .ok b) : t.payload (.response 200 (some text)) = .ok b := by
  simp [Tab.payload, Tab.isSuccess, Browser.require, ht, hb, bind, Except.bind, pure, Except.pure]

/-- A snapshot without a grid fits every client. -/
theorem resync_of_grid {a : App K} {farm : Farm} (h : farm.grid = []) :
    ∃ b, a.resync farm = .ok b ∧ b.controller = a.controller.resynced :=
  ⟨{ a with scene := { a.scene with cache := { a.scene.cache with farm } }, controller := a.controller.resynced },
    by simp [App.resync, Scene.apply, FarmCache.apply, FarmCache.fault?, h, Except.map], rfl⟩

/-- A fetch that is without a reply can be answered, whatever has happened
since it was made, and then a session can be started. -/
theorem starts_after_old_fetch (hc : s.Chained) (hi : s.app.controller.state = .idle) {k : Nat}
    (hk : (k, .resync) ∈ s.tab.fetches) :
    ∃ past r e, Path (.running s true) past r ∧ r.Starts e ∧
      ∀ step ∈ past, ∀ j, Applies j step.1 step.2 → j = k := by
  let reply : Reply := .response 200 (some ExactFarm.payload)
  let s₁ : Session K := { s with tab := { s.tab with calls := [], browser := ExactFarm.browser } }
  have hq₁ : (Page.running s true).handle (.browser ExactFarm.browser) = some (.running s₁ true) := rfl
  have hf : (Page.running s₁ true).fetch? (some k) = some (k, .resync) :=
    fetch?_of_mem s₁ true hc.resyncs hk
  obtain ⟨b, hr, hg⟩ := ExactFarm.payload_read
  have hb : s₁.tab.payload reply = .ok b := payload_of_read rfl hr
  obtain ⟨q₂, hq₂⟩ : ∃ q, (Page.running s₁ true).handle (.reply reply (some k)) = some q :=
    ⟨_, Option.map_eq_some_iff.mpr ⟨_, hf, rfl⟩⟩
  obtain ⟨s₂, rfl, ht⟩ := Session.handle_turn (s := s₁) hc.resyncs (by simp) hq₂
  have hin : s₁.input? true (.reply reply (some k)) = some (.resync b.farm) := by
    simp only [Session.input?, hf, hb]
    rfl
  obtain ⟨a, ha, hac⟩ := resync_of_grid (a := s₁.app) hg
  have happ : s₂.app.controller = s.app.controller.resynced := by
    rw [ht.app, hin, ← hac]
    simp [App.answer, App.resyncIfFits, ha]
  have hpath : Path (.running s true)
      ([(.running s true, .browser ExactFarm.browser)] ++ [(.running s₁ true, .reply reply (some k))])
      (.running s₂ true) := .event _ (.event _ .nil trivial hq₁) trivial hq₂
  refine ⟨_, _, .run (some ""), hpath, ⟨.autoStep, "", ?_⟩, fun step hm j hj => ?_⟩
  · have hst : s₂.app.controller.state = .idle := by rw [happ]; exact hi
    have hrq : s₂.app.controller.resyncRequired = false := by rw [happ]; rfl
    simp [Page.hands, Session.hands, Session.input?, Session.program, App.answer, App.toggleRun, App.control,
      Controller.toggleRun, Controller.start, hst, hrq]
  · simp only [List.cons_append, List.nil_append, List.mem_cons, List.not_mem_nil, or_false] at hm
    rcases hm with rfl | rfl
    · cases hj
    · cases hj with
      | reply hj => exact congrArg Prod.fst (Option.some.inj (hj.symm.trans hf))

/-- **After a loss** every session that is started has a snapshot before it
that was applied since. But a new snapshot, fetched after the loss, it has in
every case only if the page never got ready or no fetch of the farm was
without a reply when the connection was lost. -/
theorem starts_after_loss {p q : Page K} {e : Event} (hv : Visit p) (hb : Breaks p e) (hq : p.handle e = some q) :
    (∀ past r e', Path q past r → r.Starts e' → ∃ step ∈ past, ∃ k, Applies k step.1 step.2) ∧
      ((∀ past r e', Path q past r → r.Starts e' →
          ∃ step ∈ past, ∃ k, p.tab.fetchesMade < k ∧ Applies k step.1 step.2) ↔
        ¬ (p.isReady = true ∧ ∃ k, (k, .resync) ∈ p.tab.fetches)) := by
  obtain ⟨s, s', ready, rfl, rfl, hc, hc', hi, hr, hf, hm⟩ := hb.turn hv hq
  refine ⟨fun past r e' hp hs => hp.applied_of_starts hc' hr hs, ⟨fun h => ?_, fun h past r e' hp hs => ?_⟩⟩
  · rintro ⟨hy, k, hk⟩
    obtain rfl : ready = true := hy
    have hk' : (k, .resync) ∈ s'.tab.fetches := hf ▸ hk
    obtain ⟨past, r, e', hp, hs, hold⟩ := starts_after_old_fetch hc' hi hk'
    obtain ⟨step, hm, j, hj, ha⟩ := h past r e' hp hs
    obtain rfl := hold step hm j ha
    have hle := hc.made _ hk
    exact absurd hj (Nat.not_lt.mpr hle)
  · obtain ⟨step, hstep, k, hk⟩ := hp.applied_of_starts hc' hr hs
    refine ⟨step, hstep, k, ?_, hk⟩
    have hy : ready = true := (hp.isReady hc').symm.trans hs.isReady
    have hz : s'.tab.fetches = [] := by
      rw [hf]
      refine List.eq_nil_iff_forall_not_mem.mpr fun f hm => h ⟨hy, f.1, ?_⟩
      rw [← hc.resyncs f hm]
      exact hm
    exact hp.applied_new hc' hm hz step hstep k hk

end FarmClient.Page

/-! ### Two losses in a row -/

namespace FarmClient.ExactFarm

open Page

/-- The tab when startup has made its fetch. -/
def startTab : Tab := (Tab.fresh browser).enter.toOption.getD (.fresh browser)

/-- The page when the payload for startup has come. -/
def loaded : Page Rat := begun startTab 1 (.ofLocation "http:" "farm.test") client (.unmeasured 1)

/-- The page when its first socket is open. -/
def connected : Page Rat := loaded.after [.socketOpened none]

/-- The connection was lost, and the next one is open: the farm is fetched. -/
def reconnected : Page Rat := connected.after [.socketClosed none .closed, .timer none, .socketOpened none]

theorem visit_loaded : Visit loaded := by
  have h : (Page.ofBrowser browser : Page Rat).handle .start = some (.loading startTab) := rfl
  exact .payload client.settings client.scene (.unmeasured 1) (.event .start (.load browser) rfl h)
    (by decide +kernel)

theorem visit_connected : Visit connected := visit_loaded.after (by decide +kernel)

theorem visit_reconnected : Visit reconnected := visit_connected.after (by decide +kernel)

end FarmClient.ExactFarm

namespace FarmClient.Page

open ExactFarm (connected reconnected)

/-- The first loss finds no fetch without a reply, the second one does. -/
theorem starts_after_loss_twice :
    (∃ q, connected.handle (.socketClosed none .closed) = some q ∧
      ∀ past r e', Path q past r → r.Starts e' →
        ∃ step ∈ past, ∃ k, connected.tab.fetchesMade < k ∧ Applies k step.1 step.2) ∧
    ∃ q, reconnected.handle (.socketClosed none .closed) = some q ∧
      ¬ ∀ past r e', Path q past r → r.Starts e' →
        ∃ step ∈ past, ∃ k, reconnected.tab.fetchesMade < k ∧ Applies k step.1 step.2 := by
  have h₁ : Breaks connected (.socketClosed none .closed) :=
    .close (n := 0) (by decide +kernel) (by decide +kernel)
  have h₂ : Breaks reconnected (.socketClosed none .closed) :=
    .close (n := 1) (by decide +kernel) (by decide +kernel)
  obtain ⟨q₁, hq₁⟩ : ∃ q, connected.handle (.socketClosed none .closed) = some q :=
    Option.isSome_iff_exists.mp (by decide +kernel)
  obtain ⟨q₂, hq₂⟩ : ∃ q, reconnected.handle (.socketClosed none .closed) = some q :=
    Option.isSome_iff_exists.mp (by decide +kernel)
  have hf : connected.tab.fetches = [] := by decide +kernel
  refine ⟨⟨q₁, hq₁, (starts_after_loss ExactFarm.visit_connected h₁ hq₁).2.mpr ?_⟩,
    q₂, hq₂, fun h => (starts_after_loss ExactFarm.visit_reconnected h₂ hq₂).2.mp h ⟨?_, 2, ?_⟩⟩
  · rintro ⟨-, k, hk⟩
    rw [hf] at hk
    cases hk
  · decide +kernel
  · decide +kernel

end FarmClient.Page
