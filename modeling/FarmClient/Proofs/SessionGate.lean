/-
The gate for new sessions, told by the history of a run. A lost connection
closes it, and a fetched farm that is applied opens it again; nothing else does
either, no matter what else comes in between. Behind a closed gate no session
runs, nothing at all is sent, and the buttons answer with one line.

An open gate lets every session start, under a number that no session had
before it. Tickets of earlier sessions stay worthless because sessions are
counted and never counted back; nor does the count ever start over, as it would
after more starts than any run has time for.
-/
import FarmClient.Proofs.ExactFarm
import FarmClient.Proofs.SceneChanges

namespace FarmClient

variable {K : Type} [Scalar K]

/-! ## The gate in the history -/

/-- Sessions are accepted again only together with a fetched farm. -/
def ByFarms (_ : List (Turn K)) (_ : App K) (i : Input K) : Prop := i ≠ .resynced

/-- A farm has been fetched, and it is applied. -/
def Turn.Opens (t : Turn K) : Prop :=
  ∃ farm b, t.input = .resync farm ∧ t.before.resync farm = .ok b

/-- The connection has been lost, and no fetched farm has been applied since. -/
def Gated (past : List (Turn K)) : Prop :=
  ∃ before lost after, past = before ++ lost :: after ∧ lost.input = .connectionLost ∧ ∀ t ∈ after, ¬ t.Opens

theorem not_gated_nil : ¬ Gated ([] : List (Turn K)) := by
  rintro ⟨before, lost, after, h, -⟩
  simp at h

/-- A turn in a longer run is its last one, or one of those before. -/
theorem snoc_eq_append_cons {α : Type} {past before after : List α} {t u : α}
    (h : past ++ [t] = before ++ u :: after) :
    (after = [] ∧ t = u) ∨ ∃ after', after = after' ++ [t] ∧ past = before ++ u :: after' := by
  rcases List.eq_nil_or_concat after with rfl | ⟨after', v, rfl⟩
  · obtain ⟨-, ht⟩ := List.append_inj' h rfl
    exact .inl ⟨rfl, List.singleton_inj.mp ht⟩
  · have h' : past ++ [t] = (before ++ u :: after') ++ [v] := by simpa using h
    obtain ⟨hp, ht⟩ := List.append_inj' h' rfl
    exact .inr ⟨after', by rw [List.concat_eq_append, List.singleton_inj.mp ht], hp⟩

theorem gated_snoc {past : List (Turn K)} {t : Turn K} :
    Gated (past ++ [t]) ↔ t.input = .connectionLost ∨ Gated past ∧ ¬ t.Opens := by
  constructor
  · rintro ⟨before, lost, after, h, hl, ha⟩
    rcases snoc_eq_append_cons h with ⟨rfl, rfl⟩ | ⟨after', rfl, rfl⟩
    · exact .inl hl
    · exact .inr ⟨⟨before, lost, after', rfl, hl, fun u hu => ha u (by simp [hu])⟩, ha t (by simp)⟩
  · rintro (hl | ⟨⟨before, lost, after, rfl, hl, ha⟩, ht⟩)
    · exact ⟨past, t, [], rfl, hl, by simp⟩
    · refine ⟨before, lost, after ++ [t], by simp, hl, fun u hu => ?_⟩
      rcases List.mem_append.mp hu with hu | hu
      · exact ha u hu
      · rwa [List.mem_singleton.mp hu]

/-! ## One input -/

theorem Move.resyncRequired_eq {c c' : Controller} {i : Input K} {ms ts} (h : Move c i c' ms ts)
    (hl : i ≠ .connectionLost) (hi : ¬ i.Resyncs) : c'.resyncRequired = c.resyncRequired := by
  cases h with
  | lose => exact absurd rfl hl
  | rest _ _ hc => exact hc.resolve_right hi
  | _ => rfl

/-- The requirement of a farm follows the history. -/
theorem App.resyncRequired_answer (a : App K) {i : Input K} (hi : i ≠ .resynced) :
    (a.answer i).1.controller.resyncRequired = true ↔
      i = .connectionLost ∨ a.controller.resyncRequired = true ∧ ¬ (⟨a, i⟩ : Turn K).Opens := by
  cases i with
  | connectionLost => simp [App.answer, App.connectionLost, App.control, Controller.connectionLost]
  | resync farm =>
    by_cases hf : farm.Fits a.scene.cache.gridSize
    · simp [App.answer, App.resyncIfFits, Turn.Opens, App.resync_of_fits hf, Controller.resynced]
    · obtain ⟨e, he⟩ := Farm.not_fits_iff.mp hf
      simp [App.answer, App.resyncIfFits, Turn.Opens, App.resync_of_refused he]
  | resynced => exact absurd rfl hi
  | _ =>
    rw [(a.answer_move _).resyncRequired_eq (by simp) (by rintro ⟨⟩)]
    simp [Turn.Opens]

/-- Where no session runs and a farm is required, an input starts none and
sends nothing. -/
theorem Move.gated {c c' : Controller} {i : Input K} {ms ts} (h : Move c i c' ms ts) (hs : c.state = .idle)
    (hr : c.resyncRequired = true) : c'.state = .idle ∧ c'.session = c.session ∧ ms = [] := by
  have ha : ¬ c.isActive = true := fun h => Controller.isActive_eq_true.mp h hs
  cases h with
  | start mode code _ ho => simp [hr] at ho
  | pause _ hc | resume _ hc | ask _ hc => simp [hs] at hc
  | permit hc | cancel hc => exact absurd hc ha
  | event _ _ hc | finish _ _ hc => exact absurd hc ha
  | lose => exact ⟨rfl, rfl, rfl⟩
  | rest hs' hn => exact ⟨hs'.trans hs, hn, rfl⟩

theorem App.press_gated (a : App K) (hs : a.controller.state = .idle) (hr : a.controller.resyncRequired = true)
    (mode : ExecMode) (code : String) : a.answer (mode.press code) = (a, [.log "[system] reconnecting"]) := by
  cases mode <;>
    simp [ExecMode.press, App.answer, App.toggleRun, App.step, App.control, Controller.toggleRun, Controller.step,
      Controller.start, hs, hr]

theorem App.press_open (a : App K) (hs : a.controller.state = .idle) (hr : a.controller.resyncRequired = false)
    (mode : ExecMode) (code : String) :
    a.answer (mode.press code) =
      ({ a with controller :=
          { a.controller with session := a.controller.session + 1, state := Controller.startState mode } },
        [.clearConsole, .clearHighlight, .controls (Controller.startState mode).controls,
          .send (.start mode code)]) := by
  cases mode <;>
    simp [ExecMode.press, App.answer, App.toggleRun, App.step, App.control, Controller.toggleRun, Controller.step,
      Controller.start, hs, hr]

theorem App.elapsed_of_lt (a : App K) {ticket : AckTicket} (h : ticket.session < a.controller.session) :
    a.answer (.elapsed ticket) = (a, []) := by
  have hne : ticket.session ≠ a.controller.session := Nat.ne_of_lt h
  simp [App.answer, App.pacingElapsed, App.control, Controller.pacingElapsed, hne]

/-! ## Runs -/

/-- The gate's state is what the history says, no session runs behind a closed
gate, and nothing has been sent since it closed. -/
structure GateOK (past : List (Turn K)) (c : Controller) : Prop where
  required : c.resyncRequired = true ↔ Gated past
  idle : Gated past → c.state = .idle
  silent : ∀ before lost after, past = before ++ lost :: after → lost.input = .connectionLost →
    (∀ t ∈ after, ¬ t.Opens) → sentIn after = []

theorem GateOK.fresh (interval : Nat) : GateOK ([] : List (Turn K)) (.fresh interval) :=
  ⟨by simp [Controller.fresh, not_gated_nil], fun h => absurd h not_gated_nil, by simp⟩

theorem GateOK.turn {past : List (Turn K)} {a : App K} {i : Input K} (h : GateOK past a.controller)
    (hi : i ≠ .resynced) : GateOK (past ++ [⟨a, i⟩]) (a.answer i).1.controller := by
  have hm := a.answer_move i
  have hgated (hg : Gated past) := hm.gated (h.idle hg) (h.required.mpr hg)
  refine ⟨?_, fun hg => ?_, fun before lost after he hl ha => ?_⟩
  · rw [a.resyncRequired_answer hi, gated_snoc, h.required]
  · rcases gated_snoc.mp hg with rfl | ⟨hg, -⟩
    · rfl
    · exact (hgated hg).1
  · rcases snoc_eq_append_cons he with ⟨rfl, -⟩ | ⟨after', rfl, rfl⟩
    · rfl
    · have ha' : ∀ t ∈ after', ¬ t.Opens := fun t ht => ha t (by simp [ht])
      rw [sentIn_snoc, h.silent before lost after' rfl hl ha', (hgated ⟨before, lost, after', rfl, hl, ha'⟩).2.2]
      rfl

/-- No session, and no ticket, has a number beyond that of the last session. -/
structure Counted (past : List (Turn K)) (c : Controller) : Prop where
  turns : ∀ t ∈ past, t.session ≤ c.session
  tickets : ∀ t ∈ issuedIn past, t.session ≤ c.session

theorem Counted.turn {past : List (Turn K)} {a : App K} (h : Counted past a.controller) (i : Input K) :
    Counted (past ++ [⟨a, i⟩]) (a.answer i).1.controller := by
  have hm := a.answer_move i
  have hle := hm.session_le
  refine ⟨fun t ht => ?_, fun t ht => ?_⟩
  · rw [List.mem_append, List.mem_singleton] at ht
    rcases ht with ht | rfl
    · exact Nat.le_trans (h.turns t ht) hle
    · exact hle
  · rw [issuedIn_snoc, List.mem_append] at ht
    rcases ht with ht | ht
    · exact Nat.le_trans (h.tickets t ht) hle
    · rw [hm.ticket_session ht]
      exact hle

theorem Leads.session_le {allows : List (Turn K) → App K → Input K → Prop} {past post : List (Turn K)} {a b : App K}
    (h : Leads allows past a post b) : a.controller.session ≤ b.controller.session :=
  h.invariant (I := fun _ c => a.controller.session ≤ c.controller.session) (Nat.le_refl _) fun hc _ =>
    Nat.le_trans hc (App.answer_move _ _).session_le

/-- **The session gate.** From the loss of the connection on, until a fetched
farm is applied, no session runs, nothing is sent, and no other input opens the gate;
the buttons answer with one line and start nothing. Connecting asks for the
farm exactly in that time. At all other times a button starts a session where
none runs, under a new number, and from then on no earlier ticket counts. -/
theorem gate_of_turns {s : Settings K} {past : List (Turn K)} {a : App K}
    (h : Leads ByFarms [] (.ofSettings s) past a) :
    (a.controller.resyncRequired = true ↔ Gated past) ∧
      (∀ before lost after, past = before ++ lost :: after → lost.input = .connectionLost →
        (∀ t ∈ after, ¬ t.Opens) → sentIn after = []) ∧
      (Gated past → a.controller.state = .idle ∧
        (∀ (mode : ExecMode) code, a.answer (mode.press code) = (a, [.log "[system] reconnecting"])) ∧
        ∀ i : Input K, i ≠ .resynced → ¬ (⟨a, i⟩ : Turn K).Opens →
          messagesOf (a.answer i).2 = [] ∧ (a.answer i).1.controller.state = .idle ∧
            (a.answer i).1.controller.session = a.controller.session ∧
            (a.answer i).1.controller.resyncRequired = true) ∧
      (Gated past → a.answer .connected = (a, [.log "[system] connected", .resync])) ∧
      (¬ Gated past → a.answer .connected = (a, [.log "[system] connected"])) ∧
      (¬ Gated past → a.controller.state = .idle → ∀ (mode : ExecMode) code,
        let b := (a.answer (mode.press code)).1
        (a.answer (mode.press code)).2 =
            [.clearConsole, .clearHighlight, .controls b.controller.controls, .send (.start mode code)] ∧
          b.controller.isActive = true ∧ (∀ t ∈ past, t.session < b.controller.session) ∧
          a.controller.session < b.controller.session ∧
          ∀ post c, Leads ByFarms (past ++ [⟨a, mode.press code⟩]) b post c →
            ∀ ticket ∈ issuedIn past, c.answer (.elapsed ticket) = (c, [])) := by
  obtain ⟨hg, hc⟩ : GateOK past a.controller ∧ Counted past a.controller :=
    h.invariant (I := fun turns c => GateOK turns c.controller ∧ Counted turns c.controller)
      ⟨.fresh s.interval, by simp, by simp⟩ fun {turns c i} ⟨hg, hc⟩ hi => ⟨hg.turn hi, hc.turn i⟩
  refine ⟨hg.required, hg.silent, fun hp => ?closed, fun hp => ?asks, fun hp => ?rests, fun hp hs mode code => ?opened⟩
  case closed =>
    have hr := hg.required.mpr hp
    have hs := hg.idle hp
    refine ⟨hs, a.press_gated hs hr, fun i hi ho => ?_⟩
    obtain ⟨hstate, hsession, hsent⟩ := (a.answer_move i).gated hs hr
    exact ⟨hsent, hstate, hsession, (a.resyncRequired_answer hi).mpr (.inr ⟨hr, ho⟩)⟩
  case asks =>
    simp [App.answer, App.connected, App.control, Controller.connected, hg.required.mpr hp]
  case rests =>
    have hr : a.controller.resyncRequired = false := by simpa [← hg.required] using hp
    simp [App.answer, App.connected, App.control, Controller.connected, hr]
  case opened =>
    have hr : a.controller.resyncRequired = false := by simpa [← hg.required] using hp
    have hb := a.press_open hs hr mode code
    have hsession : (a.answer (mode.press code)).1.controller.session = a.controller.session + 1 := by rw [hb]
    refine ⟨by rw [hb]; rfl, by rw [hb]; cases mode <;> rfl, fun t ht => ?_, by rw [hb]; simp, ?_⟩
    · have := hc.turns t ht
      omega
    · intro post c hl ticket ht
      have := hc.tickets ticket ht
      have := hl.session_le
      exact c.elapsed_of_lt (by omega)

/-- A farm that does not fit, the connection and a farm of the server leave the
gate closed; the fetched farm opens it, and the ticket from before the loss
does not count in the next session. -/
theorem gate_of_turns_small_farm :
    let lost : List (Input Rat) := [.toggleRun "till()", .message (.event ⟨1, 0, 0, 5⟩), .connectionLost,
      .resync ⟨some 9, none, [[none]]⟩, .connected, .message (.farmState ⟨some 10, none, []⟩)]
    let a := ExactFarm.client.after lost
    let found := lost ++ [.resync ⟨some 11, none, []⟩]
    let b := ExactFarm.client.after found
    let c := (b.answer (.step "plant()")).1
    Gated (ExactFarm.client.turns lost) ∧ a.answer (.step "plant()") = (a, [.log "[system] reconnecting"]) ∧
      ¬ Gated (ExactFarm.client.turns found) ∧ a.controller.session < c.controller.session ∧
      ⟨1⟩ ∈ issuedIn (ExactFarm.client.turns found) ∧ c.answer (.elapsed ⟨1⟩) = (c, []) := by
  intro lost a found b c
  have hl : Allowed ByFarms [] ExactFarm.client lost := by simp [Allowed, ByFarms, lost]
  have hf : Allowed ByFarms [] ExactFarm.client found := by simp [Allowed, ByFarms, found, lost]
  obtain ⟨hg, -, hclosed, -⟩ := gate_of_turns hl.leads
  obtain ⟨hg', -, -, -, -, hopened⟩ := gate_of_turns hf.leads
  have hpast : Gated (ExactFarm.client.turns lost) := hg.mp (by decide +kernel)
  have hfound : ¬ Gated (ExactFarm.client.turns found) := fun h => absurd (hg'.mpr h) (by decide +kernel)
  obtain ⟨-, -, -, hlt, hold⟩ := hopened hfound (by decide +kernel) .manualStep "plant()"
  have hticket : ⟨1⟩ ∈ issuedIn (ExactFarm.client.turns found) := by decide +kernel
  exact ⟨hpast, (hclosed hpast).2.1 .manualStep "plant()", hfound, hlt, hticket, hold [] _ .nil _ hticket⟩

end FarmClient
