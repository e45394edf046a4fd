/-
The accounts of a session in auto-step mode: events handled, messages that
permit the next one, pacing waits that run, and resumes.

The server waits for an acknowledgement after every event. An event that
comes while the session runs is acknowledged when its pacing wait is over;
one that comes in a pause gets no wait, and the resume acknowledges it. A
wait may be over during a pause, and a resume acknowledges also when there
is nothing to catch up with, so that neither number bounds the other alone.
-/
import FarmClient.Proofs.ClientRuns
import FarmClient.Proofs.ExactFarm

namespace FarmClient

variable {K : Type} [Scalar K]

/-! ## Accounts -/

/-- A running session handles an event. -/
def Input.isEvent (c : Controller) (i : Input K) : Bool :=
  match i.message? with
  | some (.event _) => c.isActive
  | _ => false

/-- A paused session goes on. -/
def Input.isResume (c : Controller) (i : Input K) : Bool :=
  match i with
  | .toggleRun _ => c.state = .pausedAuto
  | _ => false

/-- A ticket comes back. -/
def Input.returns (ticket : AckTicket) (i : Input K) : Bool :=
  match i with
  | .elapsed t => t = ticket
  | _ => false

/-- What has happened in one session. -/
structure Account where
  /-- Events handled. -/
  events : Nat
  /-- Acknowledgements sent. -/
  acks : Nat
  resumes : Nat
  /-- Tickets issued. -/
  issued : Nat
  /-- Tickets that have come back. -/
  returned : Nat
deriving DecidableEq

/-- The pacing waits that are not over. -/
def Account.pending (x : Account) : Nat := x.issued - x.returned

/-- The turns that found a session running, or over and no other begun. -/
def during (session : Nat) (past : List (Turn K)) : List (Turn K) := past.filter (·.session = session)

/-- The account of a session after some turns. -/
def account (session : Nat) (past : List (Turn K)) : Account where
  events := (during session past).countP fun t => t.input.isEvent t.before.controller
  acks := (sentIn (during session past)).count .ack
  resumes := (during session past).countP fun t => t.input.isResume t.before.controller
  issued := (issuedIn past).count ⟨session⟩
  returned := past.countP fun t => t.input.returns ⟨session⟩

/-- An account with one more turn of its session. -/
def Account.add (x : Account) (c : Controller) (i : Input K) (ms : List ClientMessage)
    (ts : List AckTicket) : Account where
  events := x.events + if i.isEvent c then 1 else 0
  acks := x.acks + ms.count .ack
  resumes := x.resumes + if i.isResume c then 1 else 0
  issued := x.issued + ts.count ⟨c.session⟩
  returned := x.returned + if i.returns ⟨c.session⟩ then 1 else 0

theorem account_snoc (past : List (Turn K)) (a : App K) (i : Input K) :
    account a.controller.session (past ++ [⟨a, i⟩]) =
      (account a.controller.session past).add a.controller i (messagesOf (a.answer i).2)
        (ticketsOf (a.answer i).2) := by
  have hd : during a.controller.session (past ++ [⟨a, i⟩]) = during a.controller.session past ++ [⟨a, i⟩] := by
    simp [during, Turn.session]
  simp [account, hd, Account.add, List.countP_append, List.countP_cons]

/-! ## One input -/

/-- The balance of a session's account: no event is without an
acknowledgement, a wait or a resume to come. -/
structure Account.Balanced (state : ExecState) (x : Account) : Prop where
  returned : x.returned ≤ x.issued
  running : state = .runningAuto → x.events ≤ x.acks + x.pending
  paused : state = .pausedAuto → x.events ≤ x.acks + x.pending + 1
  bounded : state.mode? = some .autoStep → x.acks + x.pending ≤ x.events + x.resumes

section

variable {c : Controller} {i : Input K}

theorem Input.isEvent_eq_false (h : ∀ e, i.message? ≠ some (.event e)) : i.isEvent c = false := by
  unfold Input.isEvent
  split
  · next e he => exact absurd he (h e)
  · rfl

theorem Input.eq_elapsed_of_returns {t : AckTicket} (h : i.returns t = true) : i = .elapsed t := by
  cases i with
  | elapsed t' => simp only [Input.returns, decide_eq_true_eq] at h; rw [h]
  | _ => cases h

/-- A message of the server is no resume and no ticket. -/
theorem Input.isResume_of_message {m : ServerMessage} (h : i.message? = some m) :
    i.isResume c = false ∧ ∀ t, i.returns t = false := by
  cases i with
  | text | message => exact ⟨rfl, fun _ => rfl⟩
  | _ => cases h

/-- An input that a running session takes no notice of is on no account. -/
theorem Account.add_quiet (h : i.Quiet c) (x : Account) : x.add c i [] [] = x := by
  have hr : i.isResume c = false := by
    unfold Input.isResume
    split
    · next code => simp [h.toggle code rfl]
    · rfl
  have ht : i.returns ⟨c.session⟩ = false := by
    cases hb : i.returns ⟨c.session⟩ with
    | false => rfl
    | true => exact absurd (Input.eq_elapsed_of_returns hb) h.ticket
  simp [Account.add, Input.isEvent_eq_false h.event, hr, ht]

end

/-- Once a session is over only the number of its tickets counts. -/
theorem Account.Balanced.idle {x : Account} (h : x.returned ≤ x.issued) : x.Balanced .idle :=
  ⟨h, by simp, by simp, by simp [ExecState.mode?]⟩

/-- An input within a session keeps its account balanced. -/
theorem Account.Balanced.move {c c' : Controller} {i : Input K} {ms ts} {x : Account}
    (h : x.Balanced c.state) (hm : Move c i c' ms ts) (hc : c'.session = c.session)
    (ht : i = .elapsed ⟨c.session⟩ → x.returned < x.issued)
    (he : ∀ e, i.message? = some (.event e) → c.state.mode? = some .autoStep → x.events ≤ x.acks) :
    (x.add c i ms ts).Balanced c'.state := by
  obtain ⟨hret, hrun, hpau, hbnd⟩ := h
  simp only [Account.pending] at hrun hpau hbnd
  cases hm with
  | start => simp at hc
  | pause code hs =>
    have hx : x.add c (.toggleRun code : Input K) [] [] = x := by
      simp [Account.add, Input.isEvent, Input.message?, Input.isResume, Input.returns, hs]
    have := hrun hs
    have := hbnd (by simp [hs, ExecState.mode?])
    rw [hx]
    exact ⟨hret, by simp, fun _ => by simp only [Account.pending]; omega, fun _ => this⟩
  | resume code hs =>
    have hx : x.add c (.toggleRun code : Input K) [.ack] [] =
        { x with acks := x.acks + 1, resumes := x.resumes + 1 } := by
      simp [Account.add, Input.isEvent, Input.message?, Input.isResume, Input.returns, hs]
    have := hpau hs
    have := hbnd (by simp [hs, ExecState.mode?])
    rw [hx]
    refine ⟨hret, fun _ => ?_, by simp, fun _ => ?_⟩ <;> simp only [Account.pending] <;> omega
  | ask code hs =>
    have hx : x.add c (.step code : Input K) [.step] [] = x := by
      simp [Account.add, Input.isEvent, Input.message?, Input.isResume, Input.returns]
    rw [hx]
    exact ⟨hret, hrun, hpau, hbnd⟩
  | permit ha =>
    have hx : x.add c (.elapsed ⟨c.session⟩ : Input K) [.ack] [] =
        { x with acks := x.acks + 1, returned := x.returned + 1 } := by
      simp [Account.add, Input.isEvent, Input.message?, Input.isResume, Input.returns]
    have := ht rfl
    rw [hx]
    -- the wait that is over was pending, so that what it is now acknowledged by was counted before
    refine ⟨this, fun hs => ?_, fun hs => ?_, fun hs => ?_⟩ <;> simp only [Account.pending]
    · have := hrun hs
      omega
    · have := hpau hs
      omega
    · have := hbnd hs
      omega
  | event e hi ha =>
    obtain ⟨hr, hb⟩ := Input.isResume_of_message (c := c) hi
    have hv : i.isEvent c = true := by simp [Input.isEvent, hi, ha]
    by_cases hs : c.state = .runningAuto
    · have hx : x.add c i [] (if c.state = .runningAuto then [⟨c.session⟩] else []) =
          { x with events := x.events + 1, issued := x.issued + 1 } := by
        simp [Account.add, hv, hr, hb, hs]
      have := hrun hs
      have := hbnd (by simp [hs, ExecState.mode?])
      rw [hx]
      refine ⟨by simp only; omega, fun _ => ?_, by simp [hs], fun _ => ?_⟩ <;> simp only [Account.pending] <;>
        omega
    · have hx : x.add c i [] (if c.state = .runningAuto then [⟨c.session⟩] else []) =
          { x with events := x.events + 1 } := by
        simp [Account.add, hv, hr, hb, hs]
      rw [hx]
      -- no wait is begun in a pause: here the server's own patience counts
      refine ⟨hret, fun h => absurd h hs, fun hp => ?_, fun hm => ?_⟩ <;> simp only [Account.pending]
      · have := he e hi (by simp [hp, ExecState.mode?])
        omega
      · have := hbnd hm
        omega
  | cancel ha =>
    have hx : x.add c (.abort : Input K) [.abort] [] = x := by
      simp [Account.add, Input.isEvent, Input.message?, Input.isResume, Input.returns]
    rw [hx]
    exact .idle hret
  | finish r hi ha =>
    obtain ⟨hr, hb⟩ := Input.isResume_of_message (c := c) hi
    have hx : x.add c i [] [] = x := by
      simp [Account.add, Input.isEvent, hi, hr, hb]
    rw [hx]
    exact .idle hret
  | lose =>
    have hx : x.add c (.connectionLost : Input K) [] [] = x := by
      simp [Account.add, Input.isEvent, Input.message?, Input.isResume, Input.returns]
    rw [hx]
    exact .idle hret
  | rest hs hn _ hq =>
    rw [hs]
    by_cases ha : c.isActive = true
    · rw [Account.add_quiet (hq ha)]
      exact ⟨hret, hrun, hpau, hbnd⟩
    · rw [Controller.isActive_eq_false.mp (by simpa using ha)]
      refine .idle ?_
      simp only [Account.add]
      split
      · next hb => have := ht (Input.eq_elapsed_of_returns hb); simp; omega
      · simpa using hret

/-! ## Runs -/

/-- The host hands every ticket back at most once, and during a session in
auto-step mode the server sends an event only when all events before it have
been acknowledged. -/
structure Paced (past : List (Turn K)) (a : App K) (i : Input K) : Prop where
  ticket : ∀ t, i = .elapsed t → (past.countP fun u => u.input.returns t) < (issuedIn past).count t
  event : ∀ e, i.message? = some (.event e) → a.controller.state.mode? = some .autoStep →
    (account a.controller.session past).events ≤ (account a.controller.session past).acks

/-- Nothing in some turns is of a session that has not been started. -/
structure Dated (past : List (Turn K)) (c : Controller) : Prop where
  turns : ∀ t ∈ past, t.session ≤ c.session
  issued : ∀ t ∈ issuedIn past, t.session ≤ c.session
  returned : ∀ t ∈ past, ∀ ticket, t.input = .elapsed ticket → ticket.session ≤ c.session

theorem Dated.mono {past : List (Turn K)} {c c' : Controller} (h : Dated past c)
    (hle : c.session ≤ c'.session) : Dated past c' :=
  ⟨fun t ht => Nat.le_trans (h.turns t ht) hle, fun t ht => Nat.le_trans (h.issued t ht) hle,
    fun t ht ticket he => Nat.le_trans (h.returned t ht ticket he) hle⟩

/-- A turn is of the session that it finds, also one that starts another. -/
theorem Dated.snoc {past : List (Turn K)} {a : App K} {i : Input K} (h : Dated past a.controller)
    (hp : Paced past a i) : Dated (past ++ [⟨a, i⟩]) a.controller := by
  refine ⟨fun t ht => ?_, fun t ht => ?_, fun t ht ticket he => ?_⟩
  · rw [List.mem_append, List.mem_singleton] at ht
    rcases ht with ht | rfl
    · exact h.turns t ht
    · exact Nat.le_refl _
  · rw [issuedIn_snoc, List.mem_append] at ht
    rcases ht with ht | ht
    · exact h.issued t ht
    · exact Nat.le_of_eq ((a.answer_move i).ticket_session ht)
  · rw [List.mem_append, List.mem_singleton] at ht
    rcases ht with ht | rfl
    · exact h.returned t ht ticket he
    · have hc := hp.ticket ticket he
      exact h.issued ticket (List.count_pos_iff.mp (by omega))

/-- The account of a session that is yet to start is empty. -/
theorem Dated.account_eq {past : List (Turn K)} {c : Controller} (h : Dated past c) {k : Nat}
    (hk : c.session < k) : account k past = ⟨0, 0, 0, 0, 0⟩ := by
  have hd : during k past = [] := by
    refine List.filter_eq_nil_iff.mpr fun t ht => ?_
    have := h.turns t ht
    simp
    omega
  have hi : (issuedIn past).count ⟨k⟩ = 0 := by
    refine List.count_eq_zero.mpr fun hm => ?_
    have := h.issued _ hm
    simp at this
    omega
  have hr : (past.countP fun t => t.input.returns ⟨k⟩) = 0 := by
    refine List.countP_eq_zero.mpr fun t ht hb => ?_
    have := h.returned t ht _ (Input.eq_elapsed_of_returns hb)
    simp at this
    omega
  simp [account, hd, hi, hr]

/-- An input keeps the account of the session, old or new, balanced. -/
theorem Account.Balanced.turn {past : List (Turn K)} {a : App K} {i : Input K}
    (h : (account a.controller.session past).Balanced a.controller.state) (hd : Dated past a.controller)
    (hp : Paced past a i) :
    (account (a.answer i).1.controller.session (past ++ [⟨a, i⟩])).Balanced (a.answer i).1.controller.state := by
  have hm := a.answer_move i
  rcases hm.session_eq with hs | ⟨hs, -⟩
  · rw [hs, account_snoc]
    exact h.move hm hs (fun hi => hp.ticket _ hi) hp.event
  · rw [(hd.snoc hp).account_eq (by omega)]
    exact ⟨Nat.le_refl _, fun _ => Nat.le_refl _, fun _ => Nat.zero_le _, fun _ => Nat.le_refl _⟩

theorem Leads.balanced {interval : Nat} {a₀ a : App K} {past : List (Turn K)}
    (h₀ : a₀.controller = .fresh interval) (h : Leads Paced [] a₀ past a) :
    Dated past a.controller ∧ (account a.controller.session past).Balanced a.controller.state := by
  refine h.invariant (I := fun turns c => Dated turns c.controller ∧
    (account c.controller.session turns).Balanced c.controller.state) ⟨?_, ?_⟩ ?_
  · exact ⟨by simp, by simp, by simp⟩
  · rw [h₀]
    exact .idle (Nat.le_refl _)
  · intro turns c i ⟨hd, hb⟩ hp
    exact ⟨(hd.snoc hp).mono (c.answer_move i).session_le, hb.turn hd hp⟩

/-- **Flow control.** While the host hands each ticket back at most once and
the server waits for its acknowledgements, every event of a session in
auto-step mode is acknowledged, or its wait is pending, or it is the one that
came in the pause. With no wait pending a session that runs owes the server
nothing, and it never acknowledges more than its events and resumes. -/
theorem events_le_acks_add_pending {interval : Nat} {a₀ a : App K} {past : List (Turn K)}
    (h₀ : a₀.controller = .fresh interval) (h : Leads Paced [] a₀ past a) :
    let x := account a.controller.session past
    x.returned ≤ x.issued ∧
      (a.controller.state = .runningAuto → x.events ≤ x.acks + x.pending) ∧
      (a.controller.state = .pausedAuto → x.events ≤ x.acks + x.pending + 1) ∧
      (a.controller.state.mode? = some .autoStep → x.acks + x.pending ≤ x.events + x.resumes) ∧
      (a.controller.state = .runningAuto → x.pending = 0 → x.events ≤ x.acks) ∧
      (a.controller.state.mode? = some .autoStep → x.acks ≤ x.events + x.resumes) := by
  intro x
  have hb := (h.balanced h₀).2
  refine ⟨hb.returned, hb.running, hb.paused, hb.bounded, fun hs hp => ?_, fun hs => ?_⟩
  · have : x.events ≤ x.acks + x.pending := hb.running hs
    omega
  · have : x.acks + x.pending ≤ x.events + x.resumes := hb.bounded hs
    omega

/-- A wait is over in a pause, an event comes in the pause, and a resume
acknowledges while another wait runs. -/
theorem events_le_acks_add_pending_pauses :
    let e : Input Rat := .message (.event ⟨1, 0, 0, 5⟩)
    let press : Input Rat := .toggleRun "till()"
    let inputs := [press, e, press, .elapsed ⟨1⟩, e, press, e, press, press, e]
    let past := ExactFarm.client.turns inputs
    let a := ExactFarm.client.after inputs
    let x := account a.controller.session past
    x = ⟨4, 3, 2, 3, 1⟩ ∧ x.events ≤ x.acks + x.pending ∧ x.acks + x.pending ≤ x.events + x.resumes := by
  intro e press inputs past a
  have ha : Allowed Paced [] ExactFarm.client inputs := by
    have hp {past : List (Turn Rat)} {a : App Rat} : Paced past a press :=
      ⟨fun t ht => (by simp [press] at ht), fun e he => (by simp [press, Input.message?] at he)⟩
    have he {past : List (Turn Rat)} {a : App Rat}
        (h : (account a.controller.session past).events ≤ (account a.controller.session past).acks) :
        Paced past a e := ⟨fun t ht => (by simp [e] at ht), fun _ _ _ => h⟩
    refine ⟨hp, he (by decide +kernel), hp, ⟨fun t ht => ?_, fun e he => (by cases he)⟩,
      he (by decide +kernel), hp, he (by decide +kernel), hp, hp, he (by decide +kernel), trivial⟩
    cases ht
    decide +kernel
  have hs : a.controller.state = .runningAuto := by decide +kernel
  have hl : Leads Paced [] ExactFarm.client past a := ha.leads
  obtain ⟨-, hr, -, hb, -⟩ := events_le_acks_add_pending rfl hl
  exact ⟨by decide +kernel, hr hs, hb (by rw [hs]; rfl)⟩

end FarmClient
