/-
Fetches of the farm that are answered late, when another one has opened the
gate already. A running session does not notice (`Session.Undisturbed`), but
the farm is replaced by the snapshot of the late reply if that can be read and
fits: the timer for another try looks at the gate, the reply does not. The
farm is safe exactly if no other fetch is without a reply when the gate opens.
-/
import FarmClient.Proofs.ResyncGate
import FarmClient.Proofs.SceneChanges

namespace FarmClient.App

variable {K : Type} [Scalar K] {a b : App K} {farm : Farm}

/-- With the gate open, a snapshot changes nothing but the farm. -/
theorem answer_resync (farm : Farm) (hg : a.controller.resyncRequired = false) :
    (a.answer (.resync farm)).1 = { a with
      scene := a.scene.withFarm (if farm.Fits a.scene.cache.gridSize then farm else a.scene.cache.farm) } := by
  have hr : a.controller.resynced = a.controller := by
    rw [Controller.resynced, ← hg]
  by_cases hf : farm.Fits a.scene.cache.gridSize
  · simp [answer, resyncIfFits, resync_of_fits hf, hr, hf]
  · obtain ⟨e, he⟩ := Farm.not_fits_iff.mp hf
    simp [answer, resyncIfFits_of_refused he, hf, Scene.withFarm]

/-- A snapshot that is applied opens the gate. -/
theorem open_of_resync (h : a.resync farm = .ok b) :
    (a.answer (.resync farm)).1 = b ∧ b.controller.resyncRequired = false := by
  refine ⟨by simp [answer, resyncIfFits, h], ?_⟩
  unfold resync at h
  cases hs : a.scene.apply farm with
  | error e =>
    rw [hs] at h
    cases h
  | ok scene =>
    rw [hs] at h
    cases h
    rfl

end FarmClient.App

namespace FarmClient.Page

variable {K : Type} [Shown K]

/-! ## One late reply -/

/-- The timers that pace the session. -/
def Net.pacing (n : Net) : List (Nat × TimerTask) := n.timers.filter (·.2 matches .pacing _)

/-- A session goes on: the controller with its tickets, the frames that wait,
the sockets and the pauses that have begun are as before. -/
structure Session.Undisturbed (s s' : Session K) : Prop where
  controller : s'.app.controller = s.app.controller
  channel : s'.channel = s.channel
  sockets : s'.tab.sockets = s.tab.sockets
  pacing : s'.tab.net.pacing = s.tab.net.pacing

/-- The farm that a reply brings, if it can be read and fits. -/
def Session.brought? (s : Session K) (reply : Reply) : Option Farm :=
  (s.tab.payload reply).toOption.bind fun b => if b.farm.Fits s.app.scene.cache.gridSize then some b.farm else none

/-- Sessions are accepted, as far as the farm is concerned. -/
def isOpen : Page K → Bool
  | .loading _ => false
  | .running s _ => !s.app.controller.resyncRequired

/-- A fetch of the farm, number `n` or one before it, gets its reply although
the gate is open. -/
inductive Late (n : Nat) (p : Page K) : Event → Prop
  | reply {reply : Reply} {named : Option Nat} {k : Nat} : p.isOpen = true →
      p.fetch? named = some (k, .resync) → k ≤ n → Late n p (.reply reply named)

/-- The farm as last seen. -/
def farm? : Page K → Option Farm
  | .loading _ => none
  | .running s _ => some s.app.scene.cache.farm

/-- What a late reply does: the farm that it brings replaces the one that is
shown, and all else of the application stays. -/
inductive Replaced : Page K → Event → Page K → Prop
  | reply {s s' : Session K} {ready : Bool} {reply : Reply} {named : Option Nat} : s.Undisturbed s' →
      s'.app = { s.app with scene := s.app.scene.withFarm ((s.brought? reply).getD s.app.scene.cache.farm) } →
      Replaced (.running s ready) (.reply reply named) (.running s' ready)

namespace Session

variable {s s' : Session K} {ready : Bool} {reply : Reply} {named : Option Nat}

theorem setTimer_keeps (t : Tab) (delay : Nat) :
    (t.setTimer .retryResync delay).net.pacing = t.net.pacing ∧
      (t.setTimer .retryResync delay).net.fetches = t.net.fetches := by
  unfold Tab.setTimer
  split
  · cases h : t.setTimer? .retryResync delay with
    | none => exact ⟨rfl, rfl⟩
    | some t' =>
      obtain ⟨id, hn⟩ := Tab.setTimer?_net h
      rw [Option.getD_some, hn]
      exact ⟨by simp [Net.pacing, Tab.net, List.filter_append], rfl⟩
  · exact ⟨rfl, rfl⟩

/-- Whatever a reply brings, it begins no pause and makes no fetch. -/
theorem receiveFarm_keeps (s : Session K) (reply : Reply) :
    (s.receiveFarm reply).tab.net.pacing = s.tab.net.pacing ∧
      (s.receiveFarm reply).tab.net.fetches = s.tab.net.fetches := by
  have hfail (reason : String) : (s.resyncFailed reason).tab.net.pacing = s.tab.net.pacing ∧
      (s.resyncFailed reason).tab.net.fetches = s.tab.net.fetches := by
    have ht := setTimer_keeps (s.tab.log ("[error] resync: " ++ reason)) (backoffDelay 255)
    rwa [Tab.net_log] at ht
  unfold receiveFarm
  split
  · exact hfail _
  · split
    · exact hfail _
    · rw [onTab, Tab.net_log]
      exact ⟨rfl, rfl⟩

/-- A reply ends its fetch, and leaves the other fetches and the pauses alone. -/
theorem reply_keeps {k : Nat} (hk : (Page.running s ready).fetch? named = some (k, .resync))
    (hq : (Page.running s ready).handle (.reply reply named) = some (.running s' ready)) :
    s'.tab.net.pacing = s.tab.net.pacing ∧ s'.tab.fetches = s.tab.fetches.filter (·.1 ≠ k) := by
  obtain ⟨f, hf, hs⟩ := Option.map_eq_some_iff.mp hq
  obtain rfl := Option.some.inj (hk.symm.trans hf)
  obtain rfl := (Page.running.inj hs).1
  exact receiveFarm_keeps _ reply

end Session

/-- What a late reply does to the session that it finds. -/
theorem Late.replaced {n : Nat} {r r' : Page K} {e : Event} (hl : Late n r e)
    (hf : ∀ f ∈ r.tab.fetches, f.2 = .resync) (hr : r.handle e = some r') : Replaced r e r' := by
  cases r with
  | loading t => nomatch hl
  | running s ready =>
    obtain @⟨reply, named, k, hg, hk, -⟩ := hl
    have hg : s.app.controller.resyncRequired = false := by simpa [isOpen] using hg
    obtain ⟨s', rfl, ht⟩ := Session.handle_turn hf (by simp) hr
    have hi : s.input? ready (.reply reply named) = (s.tab.payload reply).toOption.map fun b => .resync b.farm := by
      simp only [Session.input?, hk]
    have happ : s'.app = { s.app with
        scene := s.app.scene.withFarm ((s.brought? reply).getD s.app.scene.cache.farm) } := by
      rw [ht.app, hi, Session.brought?]
      cases s.tab.payload reply with
      | error e => rfl
      | ok b =>
        simp only [Except.toOption, Option.map_some, Option.elim_some, Option.bind_some, App.answer_resync _ hg]
        split <;> rfl
    have hh : s.hands ready (.reply reply named) = [] := by
      rw [Session.hands, hi]
      cases s.tab.payload reply <;> rfl
    refine .reply ⟨by rw [happ], ?_, ?_, (Session.reply_keeps hk hr).1⟩ happ
    · rw [ht.channel, hh]
      rfl
    · cases ht.wiring with
      | keep _ hs _ => exact hs

/-! ## Fetches that are left when the gate opens -/

/-- A snapshot has been applied: the gate is open, and one fetch less is without a reply. -/
theorem Applies.turn {k : Nat} {p q : Page K} {e : Event} (hv : Visit p) (ha : Applies k p e)
    (hq : p.handle e = some q) :
    ∃ s ready, q = .running s ready ∧ s.Chained ∧ q.isOpen = true ∧
      q.tab.fetches = p.tab.fetches.filter (·.1 ≠ k) := by
  cases ha with
  | @reply s ready reply named b app hk hb happ =>
    have hc : s.Chained := hv.sound
    obtain ⟨s', rfl, ht⟩ := Session.handle_turn hc.resyncs (by simp) hq
    have hl : (Event.reply reply named).Lawful (.running s ready) := trivial
    have hi : s.input? ready (.reply reply named) = some (.resync b.farm) := by
      simp [Session.input?, hk, hb, Except.toOption]
    obtain ⟨rfl, hg⟩ := App.open_of_resync happ
    have happ : s'.app = (s.app.answer (.resync b.farm)).1 := by
      rw [ht.app, hi]
      rfl
    exact ⟨s', ready, rfl, hc.turn hl ht, by simpa [isOpen, happ] using hg, (Session.reply_keeps hk hq).2⟩

/-- Where no fetch is without a reply, none of those made so far is answered late. -/
theorem Path.not_late {s : Session K} {ready : Bool} {past : List (Page K × Event)} {r : Page K} {e : Event}
    (h : Path (.running s ready) past r) (hc : s.Chained) (hf : s.tab.fetches = []) :
    ¬ Late s.tab.fetchesMade r e := by
  obtain ⟨s', rfl, -, -, hnew⟩ := h.invariant (I := fun _ s' =>
      s.tab.fetchesMade ≤ s'.tab.fetchesMade ∧ ∀ f ∈ s'.tab.fetches, s.tab.fetchesMade < f.1) hc
      ⟨Nat.le_refl _, by simp [hf]⟩ <| by
    rintro past s₁ e s₂ ⟨hn, hf⟩ - ht
    refine ⟨Nat.le_trans hn ht.made, fun f hm => ?_⟩
    exact (ht.fetches f hm).elim (hf f) fun hm => Nat.lt_of_le_of_lt hn hm.2.1
  rintro ⟨-, hk, hn⟩
  exact absurd (hnew _ (Session.mem_of_fetch? hk)) (Nat.not_lt.mpr hn)

end FarmClient.Page

namespace FarmClient.ExactFarm

/-- A bootstrap payload that tells nothing of the farm. -/
def barePayload : String :=
  "\x7b\"config\":\x7b\"grid\":2,\"background\":\"farm.webp\",\"field_ratio\":\x7b\"topLeft\":[0,0]," ++
    "\"topRight\":[1,0],\"bottomLeft\":[0,1],\"bottomRight\":[1,1]\x7d,\"exec_interval\":100\x7d," ++
    "\"farm\":\x7b\x7d\x7d"

theorem exists_read {text : String} {p : Farm → Bool}
    (h : ((Bootstrap.read text.toList).toOption.elim false fun b => p b.farm) = true) :
    ∃ b, Bootstrap.read text.toList = .ok b ∧ p b.farm = true := by
  cases hb : Bootstrap.read text.toList with
  | error e => simp [hb, Except.toOption] at h
  | ok b => exact ⟨b, rfl, by simpa [hb, Except.toOption] using h⟩

/-- Whatever farm is shown, a payload may bring another. -/
theorem exists_payload_ne (farm : Farm) :
    ∃ text : String, ∃ b, Bootstrap.read text.toList = .ok b ∧ b.farm.grid = [] ∧ b.farm ≠ farm := by
  have hsome : ∃ b, Bootstrap.read payload.toList = .ok b ∧ (b.farm.grid.isEmpty && b.farm.gold.isSome) = true :=
    exists_read (p := fun f => f.grid.isEmpty && f.gold.isSome) (by decide +kernel)
  have hnone : ∃ b, Bootstrap.read barePayload.toList = .ok b ∧
      (b.farm.grid.isEmpty && b.farm.gold.isNone) = true :=
    exists_read (p := fun f => f.grid.isEmpty && f.gold.isNone) (by decide +kernel)
  simp only [Bool.and_eq_true, List.isEmpty_iff, Option.isNone_iff_eq_none] at hsome hnone
  cases hg : farm.gold with
  | none =>
    obtain ⟨b, hb, hgrid, hgold⟩ := hsome
    refine ⟨payload, b, hb, hgrid, ?_⟩
    rintro rfl
    simp [hg] at hgold
  | some gold =>
    obtain ⟨b, hb, hgrid, hgold⟩ := hnone
    refine ⟨barePayload, b, hb, hgrid, ?_⟩
    rintro rfl
    simp [hg] at hgold

end FarmClient.ExactFarm

namespace FarmClient.Page

variable {K : Type} [Shown K] {s : Session K}

/-- A fetch that is without a reply can be answered late, with another farm. -/
theorem farm_replaced_late {ready : Bool} (hc : s.Chained) (hg : (Page.running s ready).isOpen = true)
    {f : Nat × FetchTask} (hf : f ∈ s.tab.fetches) :
    ∃ past r e r', Path (.running s ready) past r ∧ Late s.tab.fetchesMade r e ∧ r.handle e = some r' ∧
      r'.farm? ≠ r.farm? := by
  obtain ⟨k, task⟩ := f
  obtain rfl : task = .resync := hc.resyncs _ hf
  obtain ⟨text, b, hb, hgrid, hne⟩ := ExactFarm.exists_payload_ne s.app.scene.cache.farm
  let s₁ : Session K := { s with tab := { s.tab with calls := [], browser := ExactFarm.browser } }
  let reply : Reply := .response 200 (some text)
  have hp : Path (.running s ready) [(.running s ready, .browser ExactFarm.browser)] (.running s₁ ready) :=
    .event _ .nil trivial rfl
  have hk : (Page.running s₁ ready).fetch? (some k) = some (k, .resync) := fetch?_of_mem s₁ ready hc.resyncs hf
  have hl : Late s.tab.fetchesMade (.running s₁ ready) (.reply reply (some k)) := .reply hg hk (hc.made _ hf)
  obtain ⟨r', hr⟩ : ∃ r', (Page.running s₁ ready).handle (.reply reply (some k)) = some r' :=
    ⟨_, Option.map_eq_some_iff.mpr ⟨_, hk, rfl⟩⟩
  refine ⟨_, _, _, r', hp, hl, hr, ?_⟩
  have hbrought : s₁.brought? reply = some b.farm := by
    have hfit : b.farm.Fits s.app.scene.cache.gridSize := .inl hgrid
    have hpayload : s₁.tab.payload reply = .ok b := payload_of_read rfl hb
    rw [Session.brought?, hpayload]
    exact if_pos hfit
  cases hl.replaced hc.resyncs hr with
  | @reply _ s' _ _ _ _ happ =>
    simp only [farm?, happ, hbrought]
    exact fun h => hne (Option.some.inj h)

/-- **Late replies** to fetches that were made before a snapshot opened the
gate. A running session does not notice them, and all they can change is the
farm. That they leave alone in every case exactly if no fetch is without a
reply when the gate opens. -/
theorem farm_kept_iff {p q : Page K} {e : Event} {k : Nat} (hv : Visit p) (ha : Applies k p e)
    (hq : p.handle e = some q) :
    (∀ past r e' r', Path q past r → Late q.tab.fetchesMade r e' → r.handle e' = some r' → Replaced r e' r') ∧
    ((∀ past r e' r', Path q past r → Late q.tab.fetchesMade r e' → r.handle e' = some r' → r'.farm? = r.farm?) ↔
      q.tab.fetches = []) := by
  obtain ⟨s, ready, rfl, hc, hg, -⟩ := ha.turn hv hq
  refine ⟨fun past r e' r' hp hl hr => ?_, ⟨fun h => ?_, fun h past r e' r' hp hl _ => ?_⟩⟩
  · obtain ⟨s', rfl, hc', -⟩ := hp.invariant (I := fun _ _ => True) hc trivial fun _ _ _ => trivial
    exact hl.replaced hc'.resyncs hr
  · refine List.eq_nil_iff_forall_not_mem.mpr fun f hf => ?_
    obtain ⟨past, r, e', r', hp, hl, hr, hne⟩ := farm_replaced_late hc hg hf
    exact hne (h past r e' r' hp hl hr)
  · exact absurd hl (hp.not_late hc h)

/-! ### Two fetches at a time -/

/-- A session is running on the page. -/
def inSession : Page K → Bool
  | .loading _ => false
  | .running s _ => s.app.controller.isActive

theorem Path.after {p q : Page K} {past : List (Page K × Event)} (h : Path p past q) {es : List Event}
    (hl : AllLawful q es) : ∃ past', Path p past' (q.after es) := by
  induction es generalizing q past with
  | nil => exact ⟨past, h⟩
  | cons e es ih =>
    rw [Page.after]
    cases hq : q.handle e with
    | none =>
      rw [AllLawful, hq] at hl
      exact ih h hl.2
    | some q' =>
      rw [AllLawful, hq] at hl
      exact ih (.event e h hl.1 hq) hl.2

theorem handle_of_isSome {p : Page K} {e : Event} (h : (p.handle e).isSome = true) :
    p.handle e = some (p.after [e]) := by
  obtain ⟨q, hq⟩ := Option.isSome_iff_exists.mp h
  rw [Page.after, hq]
  rfl

end FarmClient.Page

namespace FarmClient.ExactFarm

open Page

/-- The connection was lost twice, and neither fetch of the farm has its reply. -/
def reconnectedTwice : Page Rat := reconnected.after [.socketClosed none .closed, .timer none, .socketOpened none]

/-- The reply to the oldest fetch. -/
def answered : Event := .reply (.response 200 (some payload)) none

/-- The same page when the oldest fetch has its reply. -/
def resynced : Page Rat := reconnectedTwice.after [answered]

/-- An event that brings the gold to sixty. -/
def sixty : String := "\x7b\"type\":\"event\",\"event\":\x7b\"line\":1,\"x\":0,\"y\":0,\"gold\":60\x7d\x7d"

/-- A session is running, and it has earned gold. -/
def earning : Page Rat := resynced.after [.run (some ""), .message none (some sixty)]

theorem visit_reconnectedTwice : Visit reconnectedTwice := visit_reconnected.after (by decide +kernel)

/-- What the page is like before and after the reply to the second fetch. -/
theorem earning_answered : AllLawful resynced [.run (some ""), .message none (some sixty)] ∧
    earning.isOpen = true ∧ earning.inSession = true ∧ earning.fetch? none = some (3, .resync) ∧
    3 ≤ resynced.tab.fetchesMade ∧ (earning.handle answered).isSome = true ∧
    (earning.farm?.bind (·.gold), (earning.after [answered]).farm?.bind (·.gold)) = (some 60, some 10) := by
  decide +kernel

/-- The payload is applied wherever it comes. -/
theorem applies_answered {p : Page Rat} {k : Nat} (hp : p.farm?.isSome = true)
    (hb : p.tab.browser.fails .text = false) (hk : p.fetch? none = some (k, .resync)) : Applies k p answered := by
  obtain ⟨b, hr, hgrid⟩ := payload_read
  cases p with
  | loading t => cases hp
  | running s ready =>
    obtain ⟨app, happ, -⟩ := resync_of_grid (a := s.app) hgrid
    exact .reply hk (payload_of_read hb hr) happ

end FarmClient.ExactFarm

namespace FarmClient.Page

open ExactFarm (reconnected reconnectedTwice resynced answered earning)

/-- After one loss the farm is safe once it has been fetched, after two it is not. -/
theorem farm_kept_iff_twice :
    (∃ q, reconnected.handle answered = some q ∧ ∀ past r e r', Path q past r → Late q.tab.fetchesMade r e →
      r.handle e = some r' → r'.farm? = r.farm?) ∧
    ∃ q, reconnectedTwice.handle answered = some q ∧ ¬ ∀ past r e r', Path q past r → Late q.tab.fetchesMade r e →
      r.handle e = some r' → r'.farm? = r.farm? := by
  have h₁ : Applies 2 reconnected answered :=
    ExactFarm.applies_answered (by decide +kernel) (by decide +kernel) (by decide +kernel)
  have h₂ : Applies 2 reconnectedTwice answered :=
    ExactFarm.applies_answered (by decide +kernel) (by decide +kernel) (by decide +kernel)
  obtain ⟨q₁, hq₁⟩ : ∃ q, reconnected.handle answered = some q := Option.isSome_iff_exists.mp (by decide +kernel)
  obtain ⟨q₂, hq₂⟩ : ∃ q, reconnectedTwice.handle answered = some q := Option.isSome_iff_exists.mp (by decide +kernel)
  obtain ⟨-, -, -, -, -, hf₁⟩ := h₁.turn ExactFarm.visit_reconnected hq₁
  obtain ⟨-, -, -, -, -, hf₂⟩ := h₂.turn ExactFarm.visit_reconnectedTwice hq₂
  refine ⟨⟨q₁, hq₁, (farm_kept_iff ExactFarm.visit_reconnected h₁ hq₁).2.mpr ?_⟩,
    q₂, hq₂, mt (farm_kept_iff ExactFarm.visit_reconnectedTwice h₂ hq₂).2.mp ?_⟩
  · rw [hf₁]
    decide +kernel
  · rw [hf₂]
    decide +kernel

/-- A running session loses what it has earned. -/
theorem not_forall_farm_kept :
    ¬ ∀ (p q : Page Rat) (e : Event) (k : Nat), Visit p → Applies k p e → p.handle e = some q →
      ∀ past r e' r', Path q past r → Late q.tab.fetchesMade r e' → r.inSession = true →
        r.handle e' = some r' → r'.farm? = r.farm? := by
  intro h
  obtain ⟨hlawful, hopen, hsession, hfetch, hmade, hsome, hgold⟩ := ExactFarm.earning_answered
  have ha : Applies 2 reconnectedTwice answered :=
    ExactFarm.applies_answered (by decide +kernel) (by decide +kernel) (by decide +kernel)
  have hq : reconnectedTwice.handle answered = some resynced := handle_of_isSome (by decide +kernel)
  obtain ⟨past, hp⟩ : ∃ past, Path resynced past earning := Path.after .nil hlawful
  have hkept := h _ _ _ _ ExactFarm.visit_reconnectedTwice ha hq past earning answered _ hp
    (.reply hopen hfetch hmade) hsession (handle_of_isSome hsome)
  rw [hkept] at hgold
  cases (congrArg Prod.fst hgold).symm.trans (congrArg Prod.snd hgold)

end FarmClient.Page
