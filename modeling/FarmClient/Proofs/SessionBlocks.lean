/-
What a client sends over a run, session by session: every message belongs to
the block of one session, which opens with its start, goes on with the
permits of its mode alone, and ends with an abort or without one.

Old tickets may come back at any time. They do no harm because a ticket
names its session, tickets are issued only to a session in auto-step mode,
and sessions are counted: the invariant is `TicketsOK`.
-/
import FarmClient.Proofs.ClientRuns
import FarmClient.Proofs.ExactFarm

namespace FarmClient

variable {K : Type} [Scalar K]

/-! ## Blocks -/

/-- What is sent in one session. -/
structure Block where
  mode : ExecMode
  code : String
  /-- How many permits follow the start. -/
  permits : Nat
  aborted : Bool
deriving DecidableEq

/-- What lets a session go on, in each mode. -/
def ExecMode.permit : ExecMode → ClientMessage
  | .autoStep => .ack
  | .manualStep => .step

def Block.messages (b : Block) : List ClientMessage :=
  .start b.mode b.code :: (List.replicate b.permits b.mode.permit ++ if b.aborted then [.abort] else [])

/-- The messages `ms` fill the blocks `bs`, and the block of a session that
is still running is the last one and open. -/
structure Fills (state : ExecState) (bs : List Block) (ms : List ClientMessage) : Prop where
  eq : ms = bs.flatMap Block.messages
  opened : ∀ m, state.mode? = some m → ∃ init b, bs = init ++ [b] ∧ b.mode = m ∧ b.aborted = false

namespace Fills

variable {state : ExecState} {bs : List Block} {ms : List ClientMessage}

theorem nil : Fills .idle [] [] := ⟨rfl, by simp [ExecState.mode?]⟩

theorem start (h : Fills state bs ms) (mode : ExecMode) (code : String) :
    Fills (Controller.startState mode) (bs ++ [⟨mode, code, 0, false⟩]) (ms ++ [.start mode code]) := by
  refine ⟨by simp [h.eq, Block.messages], fun m hm => ⟨bs, _, rfl, ?_, rfl⟩⟩
  cases mode <;> simpa [Controller.startState, ExecState.mode?] using hm

/-- A session that goes on in its mode keeps its block open. -/
theorem keep (h : Fills state bs ms) {state' : ExecState}
    (hs : state'.mode? = none ∨ state'.mode? = state.mode?) : Fills state' bs ms := by
  refine ⟨h.eq, fun m hm => ?_⟩
  rcases hs with hs | hs
  · simp [hs] at hm
  · exact h.opened m (by rw [← hs, hm])

theorem permit (h : Fills state bs ms) {m : ExecMode} (hm : state.mode? = some m) :
    ∃ bs', bs'.length = bs.length ∧ Fills state bs' (ms ++ [m.permit]) := by
  obtain ⟨init, b, rfl, rfl, hb⟩ := h.opened m hm
  refine ⟨init ++ [{ b with permits := b.permits + 1 }], by simp, ?_, fun m' hm' => ⟨init, _, rfl, ?_, hb⟩⟩
  · simp [h.eq, Block.messages, hb, List.replicate_succ']
  · simpa [hm] using hm'

theorem abort (h : Fills state bs ms) {m : ExecMode} (hm : state.mode? = some m) :
    ∃ bs', bs'.length = bs.length ∧ Fills .idle bs' (ms ++ [.abort]) := by
  obtain ⟨init, b, rfl, rfl, hb⟩ := h.opened m hm
  refine ⟨init ++ [{ b with aborted := true }], by simp, ?_, by simp [ExecState.mode?]⟩
  simp [h.eq, Block.messages, hb]

end Fills

/-! ## Tickets -/

/-- Every ticket is of a session that has been started, and not of one that
is in manual-step mode now. -/
def TicketsOK (c : Controller) (tickets : List AckTicket) : Prop :=
  ∀ t ∈ tickets, t.session ≤ c.session ∧ (t.session = c.session → c.state ≠ .runningManual)

theorem TicketsOK.move {c c' : Controller} {i : Input K} {ms ts old} (h : TicketsOK c old)
    (hm : Move c i c' ms ts) : TicketsOK c' (old ++ ts) := by
  cases hm with
  | start mode code =>
    intro t ht
    have := (h t (by simpa using ht)).1
    exact ⟨by simp; omega, fun he => by simp at he; omega⟩
  | event e he ha =>
    intro t ht
    rw [List.mem_append] at ht
    rcases ht with ht | ht
    · exact h t ht
    · split at ht
      · next hr =>
        obtain rfl := List.mem_singleton.mp ht
        exact ⟨Nat.le_refl _, fun _ => by simp [hr]⟩
      · simp at ht
  | ask | permit => simpa using h
  | rest hs hn => simpa [TicketsOK, hs, hn] using h
  | pause | resume | cancel | finish | lose =>
    intro t ht
    exact ⟨(h t (by simpa using ht)).1, fun _ => by simp⟩

/-! ## One input -/

/-- The mode in which a session sends acknowledgements is the automatic one. -/
theorem TicketsOK.mode {c : Controller} {tickets} (h : TicketsOK c tickets) (ht : ⟨c.session⟩ ∈ tickets)
    (ha : c.isActive = true) : c.state.mode? = some .autoStep := by
  have hne := (h _ ht).2 rfl
  have hni := Controller.isActive_eq_true.mp ha
  cases hs : c.state <;> simp_all [ExecState.mode?]

theorem Controller.exists_mode {c : Controller} (ha : c.isActive = true) : ∃ m, c.state.mode? = some m := by
  have hni := Controller.isActive_eq_true.mp ha
  cases hs : c.state <;> simp_all [ExecState.mode?]

/-- An input fills the blocks further, and opens one if it starts a session. -/
theorem Fills.move {c c' : Controller} {i : Input K} {ms ts bs old tickets} (h : Fills c.state bs old)
    (hm : Move c i c' ms ts) (ht : TicketsOK c tickets) (hi : ∀ t, i = .elapsed t → t ∈ tickets) :
    ∃ bs', bs'.length + c.session = bs.length + c'.session ∧ Fills c'.state bs' (old ++ ms) := by
  cases hm with
  | start mode code => exact ⟨_, by simp; omega, h.start mode code⟩
  | pause code hs => exact ⟨bs, rfl, by simpa using h.keep (.inr (by simp [hs, ExecState.mode?]))⟩
  | resume code hs =>
    obtain ⟨bs', hl, hf⟩ := h.permit (m := .autoStep) (by simp [hs, ExecState.mode?])
    exact ⟨bs', by simp [hl], hf.keep (.inr (by simp [hs, ExecState.mode?]))⟩
  | ask code hs =>
    obtain ⟨bs', hl, hf⟩ := h.permit (m := .manualStep) (by simp [hs, ExecState.mode?])
    exact ⟨bs', by simp [hl], hf⟩
  | permit ha =>
    obtain ⟨bs', hl, hf⟩ := h.permit (ht.mode (hi _ rfl) ha)
    exact ⟨bs', by simp [hl], hf⟩
  | event e _ ha => exact ⟨bs, rfl, by simpa using h⟩
  | cancel ha =>
    obtain ⟨m, hm⟩ := Controller.exists_mode ha
    obtain ⟨bs', hl, hf⟩ := h.abort hm
    exact ⟨bs', by simp [hl], hf⟩
  | finish | lose => exact ⟨bs, rfl, by simpa using h.keep (.inl rfl)⟩
  | rest hs hn => exact ⟨bs, by rw [hn], by simpa [hs] using h⟩

/-! ## Runs -/

/-- The host hands back only tickets it was given. -/
def HandsBackIssued (past : List (Turn K)) (_ : App K) (i : Input K) : Prop :=
  ∀ t, i = .elapsed t → t ∈ issuedIn past

theorem Leads.ticketsOK {past post : List (Turn K)} {a b : App K}
    (h : Leads HandsBackIssued past a post b) (ht : TicketsOK a.controller (issuedIn past)) :
    TicketsOK b.controller (issuedIn (past ++ post)) :=
  h.invariant (I := fun turns c => TicketsOK c.controller (issuedIn turns)) ht fun {turns c i} hc _ => by
    rw [issuedIn_snoc]
    exact hc.move (c.answer_move i)

/-- What is sent from an idle moment on fills blocks, one for each session
that is started. -/
theorem Leads.fills {past post : List (Turn K)} {a b : App K} (h : Leads HandsBackIssued past a post b)
    (ht : TicketsOK a.controller (issuedIn past)) (hs : a.controller.state = .idle) :
    ∃ bs, a.controller.session + bs.length = b.controller.session ∧
      Fills b.controller.state bs (sentIn post) := by
  induction h with
  | nil => exact ⟨[], rfl, by simpa [hs] using Fills.nil⟩
  | @turn post c i h hi ih =>
    obtain ⟨bs, hl, hf⟩ := ih
    obtain ⟨bs', hl', hf'⟩ := hf.move (c.answer_move i) (h.ticketsOK ht) hi
    rw [sentIn_snoc]
    exact ⟨bs', by omega, hf'⟩

/-- An abort, the end of a script, or the loss of the connection. -/
inductive Input.EndsSession : Input K → Prop
  | abort : EndsSession .abort
  | done {i} (r : Option ScriptResult) : i.message? = some (.done r) → EndsSession i
  | lost : EndsSession .connectionLost

theorem Input.EndsSession.idle {i : Input K} (h : i.EndsSession) (a : App K) :
    (a.answer i).1.controller.state = .idle := by
  cases h with
  | abort =>
    simp only [App.answer, App.abort, App.control, Controller.abort]
    split
    · rfl
    · next ha => simpa [Controller.isActive_eq_true] using ha
  | done r hi =>
    simp only [a.answer_of_message hi, App.handle, App.control, Controller.done]
    split
    · rfl
    · next ha => simpa [Controller.isActive_eq_true] using ha
  | lost => rfl

theorem Input.EndsSession.session {i : Input K} (h : i.EndsSession) (a : App K) :
    (a.answer i).1.controller.session = a.controller.session := by
  cases h with
  | abort =>
    simp only [App.answer, App.abort, App.control, Controller.abort]
    split <;> rfl
  | done r hi =>
    simp only [a.answer_of_message hi, App.handle, App.control, Controller.done]
    split <;> rfl
  | lost => rfl

/-- **What is sent, block by block.** Over any run of a fresh controller,
whatever frames come and whichever tickets come back, the messages fill one
block for each session started, in order. After an abort, the end of a
script or a loss of the connection, what is still to be sent is again whole
blocks: nothing before the next start. -/
theorem sentIn_eq_blocks {interval : Nat} {a₀ a : App K} {past : List (Turn K)}
    (h₀ : a₀.controller = .fresh interval) (h : Leads HandsBackIssued [] a₀ past a) :
    (∃ bs : List Block, bs.length = a.controller.session ∧ sentIn past = bs.flatMap Block.messages) ∧
      ∀ i : Input K, i.EndsSession → ∀ post b,
        Leads HandsBackIssued (past ++ [⟨a, i⟩]) (a.answer i).1 post b →
          ∃ bs : List Block, a.controller.session + bs.length = b.controller.session ∧
            sentIn post = bs.flatMap Block.messages := by
  have hn : TicketsOK a₀.controller (issuedIn ([] : List (Turn K))) := by simp [TicketsOK]
  refine ⟨?_, fun i hi post b hb => ?_⟩
  · obtain ⟨bs, hl, hf⟩ := h.fills hn (by rw [h₀]; rfl)
    exact ⟨bs, by simpa [h₀, Controller.fresh] using hl, hf.eq⟩
  · have ht : TicketsOK (a.answer i).1.controller (issuedIn (past ++ [⟨a, i⟩])) := by
      rw [issuedIn_snoc]
      exact TicketsOK.move (by simpa using h.ticketsOK hn) (a.answer_move i)
    obtain ⟨bs, hl, hf⟩ := hb.fills ht (hi.idle a)
    exact ⟨bs, by rw [← hl, hi.session a], hf.eq⟩

/-- A ticket of an aborted session comes back in the next one, and nothing is
sent for it. -/
theorem sentIn_eq_blocks_old_ticket :
    let first : List (Input Rat) := [.toggleRun "till()", .message (.event ⟨1, 0, 0, 5⟩)]
    let past := ExactFarm.client.turns first
    let a := ExactFarm.client.after first
    let second : List (Input Rat) := [.toggleRun "plant()", .elapsed ⟨1⟩]
    let post := (a.answer .abort).1.turns second
    issuedIn past = [⟨1⟩] ∧ sentIn post = [.start .autoStep "plant()"] ∧
      (∃ bs : List Block, bs.length = a.controller.session ∧ sentIn past = bs.flatMap Block.messages) ∧
      ∃ bs : List Block, a.controller.session + bs.length = 2 ∧ sentIn post = bs.flatMap Block.messages := by
  intro first past a second post
  have hf : Allowed HandsBackIssued [] ExactFarm.client first := by
    simp [Allowed, first, HandsBackIssued]
  have hs : Allowed HandsBackIssued (past ++ [⟨a, .abort⟩]) (a.answer .abort).1 second := by
    refine ⟨by simp [HandsBackIssued], fun t ht => ?_, trivial⟩
    cases ht
    exact List.mem_of_elem_eq_true rfl
  obtain ⟨hb, ha⟩ := sentIn_eq_blocks rfl hf.leads
  exact ⟨rfl, rfl, hb, ha .abort .abort _ _ hs.leads⟩

end FarmClient
