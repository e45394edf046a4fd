/-
What becomes of the messages handed to the channel. They are numbered as they
come, and beside every use of the channel a ledger keeps which numbers wait,
and which were tried in which order with what success: that is read off what
the sockets were asked to do. The queue is what waits, in the order of sending
whatever fails (`Sound.record`), since all that waits is tried before anything
goes back.
-/
import Mathlib.Data.List.Induction
import Mathlib.Data.List.Nodup
import FarmClient.Page.Channel

namespace FarmClient.Page

/-! ## Uses of the channel -/

/-- The text of a sending, and whether it succeeded. -/
def SocketCall.sending? : SocketCall → Option (String × Bool)
  | .close _ => none
  | .send _ text delivered => some (text, delivered)

def sendings (calls : List SocketCall) : List (String × Bool) := calls.filterMap SocketCall.sending?

@[simp] theorem sendings_append (calls calls' : List SocketCall) :
    sendings (calls ++ calls') = sendings calls ++ sendings calls' := List.filterMap_append

namespace Channel

/-- What can be asked of the channel. -/
inductive Use where
  | send (message : ClientMessage)
  | flush
  | install (socket : Nat)
  | disconnected
  | discard

/-- A use of the channel, with what the sockets are ready for at that time and
which sendings will succeed. -/
structure Occasion where
  use : Use
  sockets : Sockets
  luck : Nat → Bool

/-- The channel used, and what it asks of the sockets. -/
def Occasion.on (o : Occasion) (c : Channel) : Channel × List SocketCall :=
  match o.use with
  | .send message => c.send o.sockets message o.luck
  | .flush => c.flush o.sockets o.luck
  | .install n =>
    let (c, _, calls) := c.install o.sockets n o.luck
    (c, calls)
  | .disconnected => (c.disconnected, [])
  | .discard => (c.discard, [])

/-! ### What is tried -/

/-- A message that has failed once more, unless it has too often. -/
def requeued (p : Pending) : Option Pending :=
  if p.failures < maxRetries then some ⟨p.text, p.failures + 1⟩ else none

/-- What goes back to the queue of messages that were tried. -/
def left (tried : List (Pending × Bool)) : List Pending :=
  tried.filterMap fun (p, delivered) => if delivered then none else requeued p

/-- How the first sendings come out. -/
def outcomes (luck : Nat → Bool) (n : Nat) : List Bool := (List.range n).map luck

@[simp] theorem length_outcomes (luck : Nat → Bool) (n : Nat) : (outcomes luck n).length = n := by
  simp [outcomes]

theorem outcomes_succ (luck : Nat → Bool) (n : Nat) :
    outcomes luck (n + 1) = luck 0 :: outcomes (fun i => luck (i + 1)) n := by
  simp only [outcomes, List.range_succ_eq_map, List.map_cons, List.map_map]
  rfl

/-- Each message of a queue was tried in turn, or none of them. -/
structure Tries (queue : List Pending) (luck : Nat → Bool) (tried : Nat) (after : Channel)
    (calls : List SocketCall) : Prop where
  all : tried = 0 ∨ tried = queue.length
  sendings : sendings calls = (queue.zip (outcomes luck tried)).map fun (p, delivered) => (p.text, delivered)
  queue : after.queue = left (queue.zip (outcomes luck tried)) ++ queue.drop tried

theorem Tries.none {queue : List Pending} {c : Channel} {luck : Nat → Bool} {calls : List SocketCall}
    (hq : c.queue = queue) (hc : Page.sendings calls = []) : Tries queue luck 0 c calls :=
  ⟨.inl rfl, by simp [hc, outcomes], by simp [hq, left, outcomes]⟩

@[simp] theorem succeeded_queue (c : Channel) : c.succeeded.queue = c.queue := by
  unfold succeeded
  split <;> rfl

theorem failed_queue (c : Channel) (p : Pending) : (c.failed p).queue = c.queue ++ (requeued p).toList := by
  unfold failed requeued
  split <;> simp

theorem attempt_tries (n : Nat) : ∀ (queue : List Pending) (c : Channel) (luck : Nat → Bool),
    sendings (c.attempt n luck queue).2 =
      (queue.zip (outcomes luck queue.length)).map (fun (p, delivered) => (p.text, delivered)) ∧
    (c.attempt n luck queue).1.queue = c.queue ++ left (queue.zip (outcomes luck queue.length))
  | [], c, _ => by simp [attempt, left, sendings, outcomes]
  | p :: queue, c, luck => by
    obtain ⟨hs, hq⟩ := attempt_tries n queue (if luck 0 then c.succeeded else c.failed p) (fun i => luck (i + 1))
    rw [List.length_cons, outcomes_succ, List.zip_cons_cons]
    constructor
    · rw [List.map_cons, ← hs]
      rfl
    · refine hq.trans ?_
      cases luck 0 with
      | true => simp [left]
      | false => cases h : requeued p <;> simp [left, failed_queue, h]

/-- There is an installed socket, and it is open. -/
def isOpen (c : Channel) (sockets : Sockets) : Bool := c.socket.any fun n => sockets.ready n = .opened

/-- What waits is tried on an open socket; without one nothing is sent. -/
theorem flush_cases (c : Channel) (sockets : Sockets) (luck : Nat → Bool) :
    (∃ n, c.isOpen sockets = true ∧ c.flush sockets luck = { c with queue := [] }.attempt n luck c.queue) ∨
      c.isOpen sockets = false ∧ c.flush sockets luck = (c, []) := by
  unfold flush isOpen
  cases c.socket with
  | none => exact .inr ⟨rfl, rfl⟩
  | some n =>
    by_cases hn : sockets.ready n = .opened
    · exact .inl ⟨n, by simp [hn], by simp [hn]⟩
    · exact .inr ⟨by simp [hn], by simp [hn]⟩

theorem flush_tries (c : Channel) (sockets : Sockets) (luck : Nat → Bool) :
    Tries c.queue luck (if c.isOpen sockets then c.queue.length else 0) (c.flush sockets luck).1
      (c.flush sockets luck).2 := by
  obtain ⟨n, ho, hf⟩ | ⟨ho, hf⟩ := c.flush_cases sockets luck
  · obtain ⟨hs, hq⟩ := attempt_tries n c.queue { c with queue := [] } luck
    rw [ho, hf]
    exact ⟨.inr rfl, hs, by simpa using hq⟩
  · rw [ho, hf]
    exact .none rfl rfl

/-- Sending leaves the installed socket. -/
theorem attempt_socket (n : Nat) (queue : List Pending) :
    ∀ (c : Channel) (luck : Nat → Bool), (c.attempt n luck queue).1.socket = c.socket := by
  induction queue with
  | nil => exact fun _ _ => rfl
  | cons p queue ih =>
    intro c luck
    refine (ih _ _).trans ?_
    cases luck 0 with
    | true =>
      change c.succeeded.socket = _
      unfold succeeded
      split <;> rfl
    | false => rfl

theorem flush_socket (c : Channel) (sockets : Sockets) (luck : Nat → Bool) :
    (c.flush sockets luck).1.socket = c.socket := by
  obtain ⟨n, -, hf⟩ | ⟨-, hf⟩ := c.flush_cases sockets luck <;> rw [hf]
  exact attempt_socket ..

/-- The queue when sending starts. -/
def Use.queue (u : Use) (c : Channel) : List Pending :=
  match u with
  | .send message => c.queue ++ [⟨message.toJson, 0⟩]
  | .discard => []
  | _ => c.queue

theorem release_sendings (c : Channel) (sockets : Sockets) : sendings (c.release sockets).2 = [] := by
  unfold release
  split
  · rfl
  · split <;> rfl

/-- Whether the installed socket is open when a use comes to send what waits. A
new socket is looked at after the old one has been closed. -/
def Occasion.opens (o : Occasion) (c : Channel) : Bool :=
  match o.use with
  | .send _ | .flush => c.isOpen o.sockets
  | .install n => (c.release o.sockets).1.ready n = .opened
  | .disconnected | .discard => false

/-- How many messages a use tries. -/
def Occasion.reach (o : Occasion) (c : Channel) : Nat := if o.opens c then (o.use.queue c).length else 0

theorem Occasion.reach_le (o : Occasion) (c : Channel) : o.reach c ≤ (o.use.queue c).length := by
  unfold reach
  split
  · exact Nat.le_refl _
  · exact Nat.zero_le _

/-- **What a use tries**: all that waits in turn, or nothing. -/
theorem Occasion.on_tries (o : Occasion) (c : Channel) :
    Tries (o.use.queue c) o.luck (o.reach c) (o.on c).1 (o.on c).2 := by
  obtain ⟨use, sockets, luck⟩ := o
  cases use with
  | send message => exact flush_tries { c with queue := c.queue ++ [Pending.mk message.toJson 0] } sockets luck
  | flush => exact flush_tries c sockets luck
  | install n =>
    obtain ⟨ha, hs, hq⟩ := flush_tries { c with socket := some n, state := .connected, failures := 0 }
      (c.release sockets).1 luck
    refine ⟨ha, Eq.trans ?_ hs, hq⟩
    simp only [on, install, sendings_append, release_sendings, List.nil_append]
  | disconnected => exact .none rfl rfl
  | discard => exact .none rfl rfl

end Channel

/-! ## The ledger -/

/-- A message that waits, by its number. -/
structure Slip where
  number : Nat
  pending : Pending

/-- A slip after one more failure. -/
def Slip.failed (s : Slip) : Slip := ⟨s.number, s.pending.text, s.pending.failures + 1⟩

/-- One sending of a message. -/
structure Try where
  number : Nat
  text : String
  delivered : Bool
deriving DecidableEq

/-- The numbers of the messages that a round delivers. -/
def arrivals (round : List Try) : List Nat :=
  round.filterMap fun t => if t.delivered then some t.number else none

def Try.of : Slip × Bool → Try
  | (s, delivered) => ⟨s.number, s.pending.text, delivered⟩

/-- The channel with a record of all messages it was handed. -/
structure Ledger where
  channel : Channel
  /-- The texts of the messages, by their numbers. -/
  sent : List String
  waiting : List Slip
  /-- The sendings of each use of the channel. -/
  rounds : List (List Try)
  calls : List SocketCall

namespace Ledger

def fresh : Ledger := ⟨.fresh, [], [], [], []⟩

/-- A use begins: a message is handed in, or all that wait are dropped. -/
def accept (l : Ledger) (u : Channel.Use) : Ledger :=
  match u with
  | .send message =>
    { l with
      sent := l.sent ++ [message.toJson]
      waiting := l.waiting ++ [⟨l.sent.length, ⟨message.toJson, 0⟩⟩] }
  | .discard => { l with waiting := [] }
  | _ => l

@[simp] theorem accept_rounds (l : Ledger) (u : Channel.Use) : (l.accept u).rounds = l.rounds := by
  cases u <;> rfl

/-- What waits with the outcomes of its sendings, in turn. -/
def tried (l : Ledger) (calls : List SocketCall) : List (Slip × Bool) :=
  l.waiting.zip ((sendings calls).map Prod.snd)

/-- The slips of the messages that go back to the queue. -/
def left (tried : List (Slip × Bool)) : List Slip :=
  tried.filterMap fun (s, delivered) =>
    if delivered then none else (Channel.requeued s.pending).map (⟨s.number, ·⟩)

/-- The sockets have been asked to send what waits. -/
def settle (l : Ledger) (calls : List SocketCall) : Ledger :=
  let tried := l.tried calls
  { l with
    waiting := left tried ++ l.waiting.drop tried.length
    rounds := l.rounds ++ [tried.map Try.of]
    calls := l.calls ++ calls }

def record (l : Ledger) (o : Channel.Occasion) : Ledger :=
  let (channel, calls) := o.on l.channel
  { (l.accept o.use).settle calls with channel }

/-- The ledger of a channel that has been used so. -/
def after (os : List Channel.Occasion) : Ledger := os.foldl record fresh

/-- The numbers of the messages that were given to a socket, in that order. -/
def delivered (l : Ledger) : List Nat := l.rounds.flatMap arrivals

/-- The texts that were given to a socket, in that order. -/
def deliveries (l : Ledger) : List String :=
  (sendings l.calls).filterMap fun (text, delivered) => if delivered then some text else none

end Ledger

/-- A round leaves a message for later: it does not deliver it, and tries no
message after it without having tried it too. -/
structure Leaves (round : List Try) (n : Nat) : Prop where
  failed : ∀ t ∈ round, t.number = n → t.delivered = false
  tried : ∀ t ∈ round, n < t.number → ∃ t' ∈ round, t'.number = n

theorem Leaves.of_lt {round : List Try} {n : Nat} (h : ∀ t ∈ round, t.number < n) : Leaves round n :=
  ⟨fun t ht he => absurd (h t ht) (by omega), fun t ht hn => absurd (h t ht) (by omega)⟩

namespace Ledger

/-- Nothing in the records contradicts anything else. -/
structure Orderly (l : Ledger) : Prop where
  sorted : l.waiting.Pairwise (·.number < ·.number)
  texts : ∀ s ∈ l.waiting, l.sent[s.number]? = some s.pending.text
  tried_texts : ∀ round ∈ l.rounds, ∀ t ∈ round, l.sent[t.number]? = some t.text
  rounds_sorted : ∀ round ∈ l.rounds, round.Pairwise (·.number < ·.number)
  rounds_leave : l.rounds.Pairwise fun round later => ∀ t ∈ later, Leaves round t.number
  leaves : ∀ s ∈ l.waiting, ∀ round ∈ l.rounds, Leaves round s.number
  sendings : sendings l.calls = l.rounds.flatten.map fun t => (t.text, t.delivered)

/-- The records are those of the channel. -/
structure Sound (l : Ledger) : Prop extends l.Orderly where
  queue : l.waiting.map Slip.pending = l.channel.queue

theorem lt_of_getElem?_eq {l : Ledger} {n : Nat} {text : String} (h : l.sent[n]? = some text) : n < l.sent.length :=
  (List.getElem?_eq_some_iff.mp h).1

theorem Orderly.accept {l : Ledger} (h : l.Orderly) (u : Channel.Use) : (l.accept u).Orderly := by
  cases u with
  | send message =>
    have kept {n : Nat} {text : String} (hn : l.sent[n]? = some text) :
        (l.sent ++ [message.toJson])[n]? = some text :=
      (List.getElem?_append_left (lt_of_getElem?_eq hn)).trans hn
    exact
      { sorted := by
          refine List.pairwise_append.mpr ⟨h.sorted, List.pairwise_singleton _ _, fun s hs s' hs' => ?_⟩
          rw [List.mem_singleton.mp hs']
          exact lt_of_getElem?_eq (h.texts s hs)
        texts := fun s hs => by
          rcases List.mem_append.mp hs with hs | hs
          · exact kept (h.texts s hs)
          · rw [List.mem_singleton.mp hs]
            exact List.getElem?_concat_length
        tried_texts := fun round hr t ht => kept (h.tried_texts round hr t ht)
        rounds_sorted := h.rounds_sorted
        rounds_leave := h.rounds_leave
        leaves := fun s hs round hr => by
          rcases List.mem_append.mp hs with hs | hs
          · exact h.leaves s hs round hr
          · rw [List.mem_singleton.mp hs]
            exact .of_lt fun t ht => lt_of_getElem?_eq (h.tried_texts round hr t ht)
        sendings := h.sendings }
  | discard =>
    exact { h with sorted := .nil, texts := nofun, leaves := nofun }
  | flush | install | disconnected => exact h

/-- What goes back has failed, and not too often. -/
theorem mem_left_iff {tried : List (Slip × Bool)} {s' : Slip} :
    s' ∈ left tried ↔ ∃ s, (s, false) ∈ tried ∧ s.pending.failures < Channel.maxRetries ∧ s' = s.failed := by
  simp only [left, List.mem_filterMap, Prod.exists, Option.ite_none_left_eq_some, Option.map_eq_some_iff,
    Channel.requeued, Option.ite_none_right_eq_some, Option.some.injEq, Bool.not_eq_true, Slip.failed]
  constructor
  · rintro ⟨s, _, hm, rfl, _, ⟨hf, rfl⟩, rfl⟩
    exact ⟨s, hm, hf, rfl⟩
  · rintro ⟨s, hm, hf, rfl⟩
    exact ⟨s, false, hm, rfl, _, ⟨hf, rfl⟩, rfl⟩

/-- What goes back was tried and not delivered, and keeps its number and its text. -/
theorem mem_left {tried : List (Slip × Bool)} {s : Slip} (h : s ∈ left tried) :
    ∃ s', (s', false) ∈ tried ∧ s.number = s'.number ∧ s.pending.text = s'.pending.text := by
  obtain ⟨s', hm, -, rfl⟩ := mem_left_iff.mp h
  exact ⟨s', hm, rfl, rfl⟩

theorem left_sorted {tried : List (Slip × Bool)} (h : tried.Pairwise (·.1.number < ·.1.number)) :
    (left tried).Pairwise (·.number < ·.number) := by
  refine h.filterMap _ fun (s, b) (s', b') hlt t ht t' ht' => ?_
  simp only [Option.ite_none_left_eq_some, Option.map_eq_some_iff] at ht ht'
  obtain ⟨-, p, -, rfl⟩ := ht
  obtain ⟨-, p', -, rfl⟩ := ht'
  exact hlt

/-- What waits is what was tried, and after that the rest. -/
theorem tried_append_drop (l : Ledger) (calls : List SocketCall) :
    (l.tried calls).map Prod.fst ++ l.waiting.drop (l.tried calls).length = l.waiting := by
  have h : (l.tried calls).map Prod.fst = l.waiting.take (l.tried calls).length := by
    unfold tried
    generalize l.waiting = slips
    generalize (Page.sendings calls).map Prod.snd = outcomes
    induction slips generalizing outcomes with
    | nil => rfl
    | cons s slips ih =>
      cases outcomes with
      | nil => rfl
      | cons b outcomes => simpa using ih outcomes
  rw [h, List.take_append_drop]

theorem mem_waiting_of_tried {l : Ledger} {calls : List SocketCall} {x : Slip × Bool} (h : x ∈ l.tried calls) :
    x.1 ∈ l.waiting := by
  rw [← l.tried_append_drop calls]
  exact List.mem_append_left _ (List.mem_map_of_mem h)

/-- What waits afterwards was not reached, or failed. -/
theorem mem_settle_waiting {l : Ledger} {calls : List SocketCall} {s : Slip} (h : s ∈ (l.settle calls).waiting) :
    s ∈ l.waiting.drop (l.tried calls).length ∨
      ∃ s', (s', false) ∈ l.tried calls ∧ s.number = s'.number ∧ s.pending.text = s'.pending.text :=
  (List.mem_append.mp h).symm.imp_right mem_left

theorem exists_mem_waiting {l : Ledger} {calls : List SocketCall} {s : Slip} (h : s ∈ (l.settle calls).waiting) :
    ∃ s' ∈ l.waiting, s.number = s'.number ∧ s.pending.text = s'.pending.text := by
  rcases mem_settle_waiting h with h | ⟨s', h, he⟩
  · exact ⟨s, List.mem_of_mem_drop h, rfl, rfl⟩
  · exact ⟨s', mem_waiting_of_tried h, he⟩

theorem mem_settle_rounds {l : Ledger} {calls : List SocketCall} {round : List Try}
    (h : round ∈ (l.settle calls).rounds) : round ∈ l.rounds ∨ round = (l.tried calls).map Try.of := by
  simpa [settle] using h

/-- The numbers that are tried rise, as do those of the rest, which are larger. -/
theorem Orderly.tried_sorted {l : Ledger} (h : l.Orderly) (calls : List SocketCall) :
    (l.tried calls).Pairwise (·.1.number < ·.1.number) ∧
      (l.waiting.drop (l.tried calls).length).Pairwise (·.number < ·.number) ∧
      ∀ x ∈ l.tried calls, ∀ s ∈ l.waiting.drop (l.tried calls).length, x.1.number < s.number := by
  have hs := h.sorted
  rw [← l.tried_append_drop calls, List.pairwise_append, List.pairwise_map] at hs
  obtain ⟨htried, hrest, hlt⟩ := hs
  exact ⟨htried, hrest, fun x hx s hs => hlt x.1 (List.mem_map_of_mem hx) s hs⟩

/-- The new round leaves what waits after it. -/
theorem Orderly.leaves_tried {l : Ledger} (h : l.Orderly) {calls : List SocketCall} {s : Slip}
    (hs : s ∈ (l.settle calls).waiting) : Leaves ((l.tried calls).map Try.of) s.number := by
  obtain ⟨htried, -, hlt⟩ := h.tried_sorted calls
  rcases mem_settle_waiting hs with hs | ⟨s', hs, hn, -⟩
  · refine .of_lt fun t ht => ?_
    obtain ⟨x, hx, rfl⟩ := List.mem_map.mp ht
    exact hlt x hx s hs
  · rw [hn]
    refine ⟨fun t ht he => ?_, fun _ _ _ => ⟨Try.of (s', false), List.mem_map_of_mem hs, rfl⟩⟩
    obtain ⟨x, hx, rfl⟩ := List.mem_map.mp ht
    -- no other sending of this round has the same number
    have hinj := List.inj_on_of_nodup_map (f := fun x : Slip × Bool => x.1.number)
      ((List.pairwise_map.mpr htried).imp Nat.ne_of_lt)
    rw [hinj hx hs he]
    rfl

theorem Orderly.settle {l : Ledger} (h : l.Orderly) {calls : List SocketCall}
    (hs : Page.sendings calls = (l.tried calls).map fun (s, delivered) => (s.pending.text, delivered)) :
    (l.settle calls).Orderly := by
  obtain ⟨htried, hrest, hlt⟩ := h.tried_sorted calls
  refine ⟨?sorted, ?texts, ?tried_texts, ?rounds_sorted, ?rounds_leave, ?leaves, ?sendings⟩
  case sorted =>
    refine List.pairwise_append.mpr ⟨left_sorted htried, hrest, fun s hm s' hm' => ?_⟩
    obtain ⟨s₀, h₀, hn, -⟩ := mem_left hm
    rw [hn]
    exact hlt _ h₀ s' hm'
  case texts =>
    intro s hm
    obtain ⟨s', hm', hn, ht⟩ := exists_mem_waiting hm
    rw [hn, ht]
    exact h.texts s' hm'
  case tried_texts =>
    intro round hm t ht
    rcases mem_settle_rounds hm with hm | rfl
    · exact h.tried_texts round hm t ht
    · obtain ⟨x, hx, rfl⟩ := List.mem_map.mp ht
      exact h.texts x.1 (mem_waiting_of_tried hx)
  case rounds_sorted =>
    intro round hm
    rcases mem_settle_rounds hm with hm | rfl
    · exact h.rounds_sorted round hm
    · exact List.pairwise_map.mpr htried
  case rounds_leave =>
    refine List.pairwise_append.mpr ⟨h.rounds_leave, List.pairwise_singleton _ _, fun round hm round' hm' t ht => ?_⟩
    rw [List.mem_singleton.mp hm'] at ht
    obtain ⟨x, hx, rfl⟩ := List.mem_map.mp ht
    exact h.leaves x.1 (mem_waiting_of_tried hx) round hm
  case leaves =>
    intro s hm round hm'
    rcases mem_settle_rounds hm' with hm' | rfl
    · obtain ⟨s', hs', hn, -⟩ := exists_mem_waiting hm
      rw [hn]
      exact h.leaves s' hs' round hm'
    · exact h.leaves_tried hm
  case sendings =>
    have hnew : Page.sendings calls = ((l.tried calls).map Try.of).map fun t => (t.text, t.delivered) := by
      rw [hs, List.map_map]
      rfl
    simp only [Ledger.settle, sendings_append, h.sendings, hnew, List.flatten_append, List.flatten_singleton,
      List.map_append]

theorem accept_queue {l : Ledger} (h : l.Sound) (u : Channel.Use) :
    (l.accept u).waiting.map Slip.pending = u.queue l.channel := by
  cases u with
  | send message => simp [accept, Channel.Use.queue, h.queue]
  | discard => rfl
  | flush | install | disconnected => exact h.queue

theorem map_left (tried : List (Slip × Bool)) :
    (left tried).map Slip.pending = Channel.left (tried.map (Prod.map Slip.pending id)) := by
  simp only [left, Channel.left, List.map_filterMap, List.filterMap_map]
  congr 1
  funext ⟨s, delivered⟩
  cases delivered with
  | true => rfl
  | false => cases h : Channel.requeued s.pending <;> simp [h]

theorem reach_le {l : Ledger} (h : l.Sound) (o : Channel.Occasion) :
    o.reach l.channel ≤ (l.accept o.use).waiting.length := by
  have hn := o.reach_le l.channel
  rwa [← accept_queue h, List.length_map] at hn

/-- What a use tries, by the slips. -/
theorem Sound.tried_eq {l : Ledger} (h : l.Sound) (o : Channel.Occasion) :
    (l.accept o.use).tried (o.on l.channel).2 =
      (l.accept o.use).waiting.zip (Channel.outcomes o.luck (o.reach l.channel)) ∧
    Channel.Tries ((l.accept o.use).waiting.map Slip.pending) o.luck (o.reach l.channel) (o.on l.channel).1
      (o.on l.channel).2 := by
  have ht := o.on_tries l.channel
  rw [← accept_queue h o.use] at ht
  refine ⟨?_, ht⟩
  rw [tried, ht.sendings, List.map_map]
  congr 1
  exact List.map_snd_zip (by simpa using reach_le h o)

/-- **Every use keeps the records sound.** -/
theorem Sound.record {l : Ledger} (h : l.Sound) (o : Channel.Occasion) : (l.record o).Sound := by
  obtain ⟨htried, -, hs, hq⟩ := h.tried_eq o
  have hlen : ((l.accept o.use).tried (o.on l.channel).2).length = o.reach l.channel := by
    rw [htried, List.length_zip, Channel.length_outcomes, Nat.min_eq_right (reach_le h o)]
  rw [List.zip_map_left, ← htried] at hs hq
  have ho : ((l.accept o.use).settle (o.on l.channel).2).Orderly := by
    refine (h.accept o.use).settle ?_
    rw [hs, List.map_map]
    rfl
  have hwaiting : ((l.accept o.use).settle (o.on l.channel).2).waiting.map Slip.pending =
      (o.on l.channel).1.queue := by
    rw [settle, hq, List.map_append, map_left, List.map_drop, hlen]
  exact { toOrderly := { ho with }, queue := hwaiting }

theorem after_snoc (os : List Channel.Occasion) (o : Channel.Occasion) :
    after (os ++ [o]) = (after os).record o := List.foldl_concat ..

/-- The records of every channel are sound, however it has been used. -/
theorem after_sound (os : List Channel.Occasion) : (after os).Sound := by
  induction os using List.reverseRecOn with
  | nil => exact ⟨⟨.nil, nofun, nofun, nofun, .nil, nofun, rfl⟩, rfl⟩
  | append_singleton os o ih =>
    rw [after_snoc]
    exact ih.record o

end Ledger

end FarmClient.Page
