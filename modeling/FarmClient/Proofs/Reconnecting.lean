/-
Connecting again. From startup on there is either one socket that has not
closed or one timer for the next attempt (`Session.Strung`): a socket that
closes sets the timer, and the timer makes the next socket or, where that
fails, another timer. Each timer since a socket opened waits twice as long as
the one before, up to 1.6 seconds. A close is a loss to the application if and
only if that socket had opened, which the page can only tell from the state of
its channel. What waits to be sent is dropped at a loss and otherwise only tried.
-/
import FarmClient.Proofs.PageTimers
import FarmClient.Proofs.ResyncGate
import FarmClient.Proofs.SendLedger

namespace FarmClient.Page

variable {K : Type} [Shown K]

/-! ## Sockets that opened and closed, and waits -/

/-- The sockets that have opened, in order. -/
def openings (past : List (Page K × Event)) : List Nat := past.filterMap fun (p, e) => p.opening? e

/-- The sockets that have closed, in order. -/
def closings (past : List (Page K × Event)) : List Nat := past.filterMap fun (p, e) => p.closing? e

/-- The delays of the timers for connecting that an event sets. -/
def waits (p : Page K) (e : Event) : List Nat := ((p.handle e).map fun q => q.tab.clock.waits).getD []

/-- The delays of all timers for connecting that were set since a socket opened, in order. -/
def waitsSince (past : List (Page K × Event)) : List Nat :=
  past.foldl (fun waits (p, e) => (if (p.opening? e).isSome then [] else waits) ++ p.waits e) []

section

variable (past : List (Page K × Event)) (p : Page K) (e : Event)

@[simp] theorem openings_append : openings (past ++ [(p, e)]) = openings past ++ (p.opening? e).toList := by
  cases h : p.opening? e <;> simp [openings, List.filterMap_append, h]

@[simp] theorem closings_append : closings (past ++ [(p, e)]) = closings past ++ (p.closing? e).toList := by
  cases h : p.closing? e <;> simp [closings, List.filterMap_append, h]

@[simp] theorem waitsSince_append : waitsSince (past ++ [(p, e)]) =
    (if (p.opening? e).isSome then [] else waitsSince past) ++ p.waits e := by
  rw [waitsSince, List.foldl_append]
  rfl

end

/-! ## Sockets -/

namespace Sockets

variable {s : Sockets} {n m : Nat} {x : ReadyState}

theorem lt_of_ready (h : s.ready n ≠ .closed) : n < s.length := by
  by_contra hn
  exact h (by simp [ready, List.getElem?_eq_none (Nat.not_lt.mp hn)])

theorem ready_set_self (h : n < s.length) : ready (s.set n x) n = x := by
  simp [ready, h]

theorem ready_append_of_lt (h : n < s.length) : ready (s ++ [x]) n = s.ready n := by
  simp [ready, List.getElem?_append_left h]

/-- A socket that goes on without closing is counted as before. -/
theorem unclosed_set (hn : s.ready n ≠ .closed) (hx : x ≠ .closed) : unclosed (s.set n x) = s.unclosed := by
  have hlt := lt_of_ready hn
  have hc : s[n] ≠ .closed := by rwa [ready_of_lt hlt] at hn
  have hp := List.boole_getElem_le_countP (p := (· ≠ ReadyState.closed)) hlt
  simp only [unclosed, List.countP_set hlt]
  simp only [ne_eq, hc, hx, not_false_eq_true, decide_true, if_true] at *
  omega

theorem unclosed_append (h : x ≠ .closed) : unclosed (s ++ [x]) = s.unclosed + 1 := by
  simp [unclosed, List.countP_append, h]

/-- No two sockets have not closed. -/
theorem eq_of_unclosed (h : s.unclosed ≤ 1) (hn : s.ready n ≠ .closed) (hm : s.ready m ≠ .closed) : n = m := by
  by_contra hne
  have hz : unclosed (s.set n .closed) = 0 := by
    have := unclosed_close (lt_of_ready hn) hn
    omega
  have hm' := ready_eq_closed hz m
  rw [Session.ready_set_of_ne hne] at hm'
  exact hm hm'

end Sockets

namespace Channel

variable {sockets : Sockets}

/-- Without an open socket nothing changes the state of the channel. -/
theorem sendAll_isNotOpen_eq (h : ∀ n, sockets.ready n ≠ .opened) (luck : Nat → Bool) (ms : List ClientMessage)
    (c : Channel) : (c.sendAll sockets luck ms).isNotOpen = c.isNotOpen := by
  have hno (c : Channel) : c.isOpen sockets = false := by simp [isOpen, h]
  induction ms generalizing c with
  | nil => rfl
  | cons m ms ih =>
    refine (ih _).trans ?_
    change (Channel.flush _ sockets luck).1.isNotOpen = _
    obtain ⟨n, ho, -⟩ | ⟨-, hf⟩ := Channel.flush_cases { c with queue := c.queue ++ [⟨m.toJson, 0⟩] } sockets luck
    · rw [hno] at ho
      cases ho
    · rw [hf]
      rfl

theorem sendAll_socket (luck : Nat → Bool) (ms : List ClientMessage) (c : Channel) :
    (c.sendAll sockets luck ms).socket = c.socket := by
  induction ms generalizing c with
  | nil => rfl
  | cons m ms ih => exact (ih _).trans (flush_socket { c with queue := c.queue ++ [⟨m.toJson, 0⟩] } sockets luck)

theorem install_socket (c : Channel) (n : Nat) (luck : Nat → Bool) : (c.install sockets n luck).1.socket = some n :=
  flush_socket { c with socket := some n, state := .connected, failures := 0 } ..

/-! ### What goes on waiting -/

/-- What goes on waiting when all that waits comes to be tried: without an open
socket all of it, and nothing if sendings succeed; one that fails goes back
unless it has failed too often. -/
def rest (opened delivers : Bool) (queue : List Pending) : List Pending :=
  if opened then if delivers then [] else queue.filterMap requeued else queue

/-- The same after messages that are handed in one by one. -/
def restAfter (opened delivers : Bool) (queue : List Pending) (ms : List ClientMessage) : List Pending :=
  ms.foldl (fun queue m => rest opened delivers (queue ++ [⟨m.toJson, 0⟩])) queue

theorem left_zip_replicate (delivers : Bool) (queue : List Pending) :
    left (queue.zip (List.replicate queue.length delivers)) = if delivers then [] else queue.filterMap requeued := by
  induction queue with
  | nil => simp [left]
  | cons p queue ih =>
    rw [List.length_cons, List.replicate_succ, List.zip_cons_cons]
    unfold left at *
    cases delivers with
    | true => simpa using ih
    | false => cases hp : requeued p <;> simpa [List.filterMap_cons, hp] using ih

theorem flush_queue (c : Channel) (sockets : Sockets) (delivers : Bool) :
    (c.flush sockets fun _ => delivers).1.queue = rest (c.isOpen sockets) delivers c.queue := by
  have ht := (c.flush_tries sockets fun _ => delivers).queue
  have hr (n : Nat) : outcomes (fun _ => delivers) n = List.replicate n delivers := by
    simp [outcomes, List.map_const']
  rw [ht, hr, rest]
  cases c.isOpen sockets with
  | true => simp [left_zip_replicate]
  | false => simp [left]

theorem sendAll_queue (delivers : Bool) (ms : List ClientMessage) (c : Channel) :
    (c.sendAll sockets (fun _ => delivers) ms).queue = restAfter (c.isOpen sockets) delivers c.queue ms := by
  induction ms generalizing c with
  | nil => rfl
  | cons m ms ih =>
    have hq := flush_queue { c with queue := c.queue ++ [⟨m.toJson, 0⟩] } sockets delivers
    have hs : (c.send sockets m fun _ => delivers).1.isOpen sockets = c.isOpen sockets :=
      congrArg (Option.any fun n => decide (sockets.ready n = .opened))
        (flush_socket { c with queue := c.queue ++ [⟨m.toJson, 0⟩] } sockets fun _ => delivers)
    refine (ih _).trans ?_
    rw [hs]
    exact congrArg (fun queue => restAfter (c.isOpen sockets) delivers queue ms) hq

/-- A socket that is open when the old one has been closed is installed, and all that waits is tried. -/
theorem install_queue (c : Channel) {n : Nat} (delivers : Bool) (h : (c.release sockets).1.ready n = .opened) :
    (c.install sockets n fun _ => delivers).1.queue = rest true delivers c.queue := by
  have hq := flush_queue { c with socket := some n, state := .connected, failures := 0 } (c.release sockets).1 delivers
  refine hq.trans (congrArg (rest · delivers c.queue) ?_)
  simp [isOpen, h]

end Channel

theorem backoffDelay_min (n : Nat) : backoffDelay (min n Session.maxAttempts) = backoffDelay n := by
  have h : min (min n Session.maxAttempts) 4 = min n 4 := by
    rw [Session.maxAttempts]
    omega
  rw [backoffDelay, h, backoffDelay]

/-! ## The chain -/

/-- The waits so far, each for an attempt of its own, and the attempts that were counted. -/
structure BackedOff (waits : List Nat) (attempts : Nat) : Prop where
  attempts : attempts = min waits.length Session.maxAttempts
  waits : waits = (List.range waits.length).map backoffDelay

theorem BackedOff.nil : BackedOff [] 0 := ⟨rfl, rfl⟩

theorem BackedOff.wait {waits : List Nat} {attempts : Nat} (h : BackedOff waits attempts) :
    BackedOff (waits ++ [backoffDelay attempts]) (min (attempts + 1) Session.maxAttempts) := by
  have hd : backoffDelay attempts = backoffDelay waits.length := by rw [h.attempts, backoffDelay_min]
  constructor
  · rw [h.attempts, List.length_append, List.length_singleton]
    omega
  · rw [List.length_append, List.length_singleton, List.range_succ, List.map_append, ← h.waits, hd]
    rfl

/-- The sockets that have opened and those that have closed, by their numbers. -/
structure Sockets.Marked (opens closes : List Nat) (s : Sockets) : Prop where
  opened : ∀ n ∈ opens, n < s.length ∧ s.ready n ≠ .connecting
  opening : ∀ n, s.ready n = .opened ∨ s.ready n = .closing → n ∈ opens
  closed : ∀ n ∈ closes, n < s.length ∧ s.ready n = .closed

namespace Sockets.Marked

variable {opens closes : List Nat} {s : Sockets} {n : Nat} {x : ReadyState}

/-- A new socket is connecting. -/
theorem append (h : Marked opens closes s) : Marked opens closes (s ++ [.connecting]) := by
  have hlen : (s ++ [ReadyState.connecting]).length = s.length + 1 := by simp
  refine ⟨fun n hn => ?_, fun n hn => ?_, fun n hn => ?_⟩
  · obtain ⟨hlt, hr⟩ := h.opened n hn
    exact ⟨by omega, by rwa [ready_append_of_lt hlt]⟩
  · have hlt : n < s.length := by
      have hne : Sockets.ready (s ++ [ReadyState.connecting]) n ≠ .closed := by
        rcases hn with hn | hn <;> simp [hn]
      have := lt_of_ready hne
      refine Nat.lt_of_le_of_ne (by omega) ?_
      rintro rfl
      simp [ready] at hn
    exact h.opening n (by rwa [ready_append_of_lt hlt] at hn)
  · obtain ⟨hlt, hr⟩ := h.closed n hn
    exact ⟨by omega, by rwa [ready_append_of_lt hlt]⟩

/-- A socket that has not closed goes on to another state. -/
theorem set (h : Marked opens closes s) (hn : s.ready n ≠ .closed) (hx : x ≠ .connecting)
    {opens' closes' : List Nat} (ho : ∀ m ∈ opens', m = n ∨ m ∈ opens) (ho' : ∀ m ∈ opens, m ∈ opens')
    (hopen : x ≠ .closed → n ∈ opens') (hc : ∀ m ∈ closes', m = n ∧ x = .closed ∨ m ∈ closes) :
    Marked opens' closes' (s.set n x) := by
  have hlen : (List.set s n x).length = s.length := List.length_set
  have hlt := lt_of_ready hn
  refine ⟨fun m hm => ?_, fun m hm => ?_, fun m hm => ?_⟩
  · by_cases hmn : m = n
    · subst hmn
      exact ⟨hlen ▸ hlt, by rwa [ready_set_self hlt]⟩
    · obtain ⟨hml, hr⟩ := h.opened m ((ho m hm).resolve_left hmn)
      exact ⟨hlen ▸ hml, by rwa [Session.ready_set_of_ne (Ne.symm hmn)]⟩
  · by_cases hmn : m = n
    · subst hmn
      rw [ready_set_self hlt] at hm
      exact hopen (by rcases hm with rfl | rfl <;> simp)
    · rw [Session.ready_set_of_ne (Ne.symm hmn)] at hm
      exact ho' m (h.opening m hm)
  · rcases hc m hm with ⟨rfl, rfl⟩ | hm
    · exact ⟨hlen ▸ hlt, ready_set_self hlt⟩
    · obtain ⟨hml, hr⟩ := h.closed m hm
      have hmn : n ≠ m := by
        rintro rfl
        exact hn hr
      exact ⟨hlen ▸ hml, by rwa [Session.ready_set_of_ne hmn]⟩

end Sockets.Marked

namespace Session

/-- How a session is connected, after all that has happened to it. -/
structure Strung (past : List (Page K × Event)) (s : Session K) : Prop where
  numbered : s.tab.clock.Numbered
  one : s.tab.sockets.unclosed + s.tab.clock.reconnects = 1
  backedOff : BackedOff (waitsSince past) s.attempts
  marked : s.tab.sockets.Marked (openings past) (closings past)
  installed : ∀ n, s.channel.socket = some n → n ∈ openings past
  connected : s.channel.isNotOpen = false → ∃ n, s.tab.sockets.ready n = .opened ∨ s.tab.sockets.ready n = .closing
  once : (closings past).Nodup

variable {s s' : Session K} {ready : Bool} {e : Event} {past : List (Page K × Event)}

theorem Strung.unclosed_le (h : s.Strung past) : s.tab.sockets.unclosed ≤ 1 := by
  have := h.one
  omega

/-- The channel tells whether a socket that closes had opened. -/
theorem Strung.isNotOpen_iff (h : s.Strung past) (hc : s.Chained) {n : Nat} (hn : s.tab.sockets.ready n ≠ .closed) :
    s.channel.isNotOpen = false ↔ n ∈ openings past := by
  constructor
  · intro hopen
    obtain ⟨m, hm⟩ := h.connected hopen
    have hmc : s.tab.sockets.ready m ≠ .closed := by
      rcases hm with hm | hm <;> simp [hm]
    obtain rfl := Sockets.eq_of_unclosed h.unclosed_le hn hmc
    exact h.marked.opening n hm
  · intro ho
    have hne := (h.marked.opened n ho).2
    refine hc.opened n ?_
    cases hr : s.tab.sockets.ready n with
    | connecting => exact absurd hr hne
    | opened => exact .inl rfl
    | closing => exact .inr rfl
    | closed => exact absurd hr hn

/-- When a socket opens, the one installed before has closed, so that there is none to give up. -/
theorem Strung.release_opened (h : s.Strung past) {n : Nat} (hn : s.tab.sockets.ready n = .connecting) :
    (s.channel.release (s.tab.sockets.set n .opened)).1 = s.tab.sockets.set n .opened := by
  have hne : s.tab.sockets.ready n ≠ .closed := by simp [hn]
  unfold Channel.release
  split
  · rfl
  · next m hm =>
    have hother : m ≠ n := by
      rintro rfl
      exact (h.marked.opened m (h.installed m hm)).2 hn
    have hclosed : s.tab.sockets.ready m = .closed := by
      by_contra hmc
      exact hother (Sockets.eq_of_unclosed h.unclosed_le hmc hne)
    rw [if_neg (by simp [Sockets.isAlive, ready_set_of_ne hother.symm, hclosed])]

/-- Nothing but a socket that opens or closes changes the channel before messages are sent. -/
theorem prepared_eq {q : Page K} (hq : (running s ready).handle e = some q)
    (ho : (running s ready).opening? e = none) (hc : (running s ready).closing? e = none) :
    s.prepared e = s.channel := by
  cases e with
  | socketOpened named =>
    have hn : (running s true).socket? named = none := ho
    simp only [prepared, hn]
  | socketClosed named state =>
    obtain ⟨n, hn, -⟩ := Option.map_eq_some_iff.mp hq
    cases hc.symm.trans hn
  | _ => rfl

/-- A channel that is connected after an event was so before, or a socket has opened. -/
theorem Chained.isNotOpen_of_turn {q : Page K} (h : s.Chained) (ht : Turn s ready e s')
    (hq : (running s ready).handle e = some q) (ho : (running s ready).opening? e = none)
    (hc : (running s ready).closing? e = none) (hopen : s'.channel.isNotOpen = false) :
    s.channel.isNotOpen = false := by
  by_contra hn
  have hno : ∀ n, s.tab.sockets.ready n ≠ .opened := fun n hr => hn (h.opened n (.inl hr))
  rw [ht.channel, prepared_eq hq ho hc, Channel.sendAll_isNotOpen_eq hno] at hopen
  exact hn hopen

theorem hands_socketClosed (s : Session K) (named : Option Nat) (state : ReadyState) :
    s.hands ready (.socketClosed named state) = [] := by
  simp only [hands, input?]
  split
  · rfl
  · simpa [App.answer] using messagesOf_connectionLost s.app

/-- The socket that opens is the one installed from then on. -/
theorem Turn.socket_of_opening {n : Nat} (ht : Turn s ready e s') (ho : (running s ready).opening? e = some n) :
    s'.channel.socket = some n := by
  cases e with
  | socketOpened named =>
    have hn : (running s true).socket? named = some n := ho
    rw [ht.channel, Channel.sendAll_socket]
    simp only [prepared, hn]
    exact Channel.install_socket ..
  | _ => cases ho

theorem Turn.socket_of_closing {n : Nat} (ht : Turn s ready e s') (hc : (running s ready).closing? e = some n) :
    s'.channel.socket = s.channel.socket := by
  cases e with
  | socketClosed named state =>
    rw [ht.channel, Channel.sendAll_socket, prepared]
    split <;> rfl
  | _ => cases hc

/-- A close leaves the channel without a connection. -/
theorem Turn.isNotOpen_of_closing {n : Nat} (ht : Turn s ready e s')
    (hc : (running s ready).closing? e = some n) : s'.channel.isNotOpen = true := by
  cases e with
  | socketClosed named state =>
    rw [ht.channel, hands_socketClosed, prepared]
    split <;> rfl
  | _ => cases hc

/-- An event that neither opens nor closes a socket. -/
theorem Strung.of_quiet (h : s.Strung past) (ho : (running s ready).opening? e = none)
    (hcl : (running s ready).closing? e = none) (hn : s'.tab.clock.Numbered)
    (hone : s'.tab.sockets.unclosed + s'.tab.clock.reconnects = 1)
    (hp : BackedOff (waitsSince past ++ (running s ready).waits e) s'.attempts)
    (hm : s'.tab.sockets.Marked (openings past) (closings past)) (hs : s'.channel.socket = s.channel.socket)
    (hopen : s'.channel.isNotOpen = false →
      ∃ n, s'.tab.sockets.ready n = .opened ∨ s'.tab.sockets.ready n = .closing) :
    s'.Strung (past ++ [(running s ready, e)]) := by
  refine ⟨hn, hone, ?_, ?_, ?_, hopen, ?_⟩
  · rwa [waitsSince_append, ho]
  · rwa [openings_append, closings_append, ho, hcl, Option.toList_none, List.append_nil, List.append_nil]
  · rw [openings_append, ho, Option.toList_none, List.append_nil, hs]
    exact h.installed
  · rw [closings_append, hcl, Option.toList_none, List.append_nil]
    exact h.once

/-- **One event** leaves one socket or one timer, whatever it is. -/
theorem Strung.handle (h : s.Strung past) (hc : s.Chained) (hl : e.Lawful (running s ready))
    (hb : s.tab.browser.setsTimers = true) (hq : (running s ready).handle e = some (running s' ready))
    (ht : Turn s ready e s') : s'.Strung (past ++ [(running s ready, e)]) := by
  obtain ⟨s₂, hs₂, hsound, hlinks⟩ := handle_links h.numbered hb hc.resyncs hl hq
  obtain rfl : s' = s₂ := by
    injection hs₂
  have hw : (running s ready).waits e = s'.pace.waits := by
    rw [Page.waits, hq]
    rfl
  have ha : s'.attempts = s'.pace.attempts := rfl
  have hr : s'.tab.clock.reconnects = s'.pace.reconnects := rfl
  have hone := h.one
  have hkeeps (ho : (running s ready).opening? e = none) (hcl : (running s ready).closing? e = none) :
      s'.channel.socket = s.channel.socket := by
    rw [ht.channel, Channel.sendAll_socket, prepared_eq hq ho hcl]
  cases hlinks with
  | keep ho hcl hs hp =>
    rw [hp] at hw ha hr
    refine h.of_quiet ho hcl hsound.toNumbered ?_ ?_ ?_ (hkeeps ho hcl) fun hopen => ?_
    · rw [hs, hr, hone]
    · rw [hw, ha, List.append_nil]
      exact h.backedOff
    · exact hs ▸ h.marked
    · exact hs ▸ h.connected (hc.isNotOpen_of_turn ht hq ho hcl hopen)
  | @ending n ho hcl hn hs hp =>
    rw [hp] at hw ha hr
    have hne : s.tab.sockets.ready n ≠ .closed := by simp [hn]
    refine h.of_quiet ho hcl hsound.toNumbered ?_ ?_ ?_ (hkeeps ho hcl) fun _ => ?_
    · rw [hs, hr, Sockets.unclosed_set hne (by simp), hone]
    · rw [hw, ha, List.append_nil]
      exact h.backedOff
    · rw [hs]
      exact h.marked.set hne (by simp) (fun m hm => .inr hm) (fun m hm => hm)
        (fun _ => h.marked.opening n (.inl hn)) (fun m hm => .inr hm)
    · rw [hs]
      exact ⟨n, .inr (Sockets.ready_set_self (Sockets.lt_of_ready hne))⟩
  | @connect r ho hcl hn hs hp =>
    rw [hp] at hw ha hr
    refine h.of_quiet ho hcl hsound.toNumbered ?_ ?_ ?_ (hkeeps ho hcl) fun hopen => ?_
    · rw [hs, hr, Sockets.unclosed_append (by simp)]
      change s.tab.sockets.unclosed + 1 + r = 1
      omega
    · rw [hw, ha, List.append_nil]
      exact h.backedOff
    · exact hs ▸ h.marked.append
    · obtain ⟨m, hm⟩ := h.connected (hc.isNotOpen_of_turn ht hq ho hcl hopen)
      have hlt := (h.marked.opened m (h.marked.opening m hm)).1
      rw [hs]
      exact ⟨m, by rwa [Sockets.ready_append_of_lt hlt]⟩
  | @again r ho hcl hn hs hp =>
    rw [hp] at hw ha hr
    refine h.of_quiet ho hcl hsound.toNumbered ?_ ?_ ?_ (hkeeps ho hcl) fun hopen => ?_
    · rw [hs, hr, ← hn, hone]
    · rw [hw, ha]
      exact h.backedOff.wait
    · exact hs ▸ h.marked
    · exact hs ▸ h.connected (hc.isNotOpen_of_turn ht hq ho hcl hopen)
  | @opened n ho hcl hn hs hp =>
    rw [hp] at hw ha hr
    have hne : s.tab.sockets.ready n ≠ .closed := by simp [hn]
    rw [h.release_opened hn] at hs
    refine ⟨hsound.toNumbered, ?_, ?_, ?_, fun m hm => ?_, fun _ => ?_, ?_⟩
    · rw [hs, hr, Sockets.unclosed_set hne (by simp), hone]
    · rw [waitsSince_append, ho, hw, ha]
      exact .nil
    · rw [openings_append, closings_append, ho, hcl, hs]
      refine h.marked.set hne (by simp) (fun m hm => ?_) (fun m hm => List.mem_append_left _ hm)
        (fun _ => List.mem_append_right _ (List.mem_singleton_self n)) (fun m hm => .inr (by simpa using hm))
      rw [Option.toList_some, List.mem_append, List.mem_singleton] at hm
      exact hm.symm
    · rw [ht.socket_of_opening ho] at hm
      cases hm
      simp [openings_append, ho]
    · rw [hs]
      exact ⟨n, .inl (Sockets.ready_set_self (Sockets.lt_of_ready hne))⟩
    · rw [closings_append, hcl, Option.toList_none, List.append_nil]
      exact h.once
  | @closed n ho hcl hn hs hp =>
    rw [hp] at hw ha hr
    refine ⟨hsound.toNumbered, ?_, ?_, ?_, fun m hm => ?_, fun hopen => ?_, ?_⟩
    · have hu := Sockets.unclosed_close (Sockets.lt_of_ready hn) hn
      rw [hs, hr]
      change Sockets.unclosed (List.set s.tab.sockets n .closed) + (s.tab.clock.reconnects + 1) = 1
      omega
    · rw [waitsSince_append, ho, hw, ha]
      exact h.backedOff.wait
    · rw [openings_append, closings_append, ho, hcl, hs]
      refine h.marked.set hn (by simp) (fun m hm => .inr (by simpa using hm))
        (fun m hm => List.mem_append_left _ hm) (by simp) (fun m hm => ?_)
      rw [Option.toList_some, List.mem_append, List.mem_singleton] at hm
      exact hm.symm.imp_left fun he => ⟨he, rfl⟩
    · rw [ht.socket_of_closing hcl] at hm
      rw [openings_append, ho, Option.toList_none, List.append_nil]
      exact h.installed m hm
    · rw [ht.isNotOpen_of_closing hcl] at hopen
      cases hopen
    · rw [closings_append, hcl, Option.toList_some, ← List.concat_eq_append]
      exact h.once.concat fun hm => hn (h.marked.closed n hm).2

end Session

/-! ## Startup -/

/-- A page whose startup has just come to its end. -/
inductive Started : Page K → Prop
  | reply {t named reply p} : Visit (.loading t : Page K) →
      (loading t : Page K).handle (.reply reply named) = some p → p.isReady = true → Started p
  | payload {t id endpoints app painter} : Visit (.loading t : Page K) → (id, .startup endpoints) ∈ t.fetches →
      (begun t id endpoints app painter : Page K).isReady = true → Started (begun t id endpoints app painter)

namespace Session

variable {s s' : Session K}

/-- The connection, the attempts and the channel are as before. -/
structure Prepares (s s' : Session K) : Prop where
  net : s'.tab.net = s.tab.net
  attempts : s'.attempts = s.attempts
  channel : s'.channel = s.channel

theorem Prepares.trans {s₁ s₂ s₃ : Session K} (h : s₁.Prepares s₂) (h' : s₂.Prepares s₃) : s₁.Prepares s₃ :=
  ⟨h'.net.trans h.net, h'.attempts.trans h.attempts, h'.channel.trans h.channel⟩

theorem takeSteps_cons {step : Session K → Session K × Option Thrown}
    {steps : List (Session K → Session K × Option Thrown)} (h : s.takeSteps (step :: steps) = (s', none)) :
    ∃ s₁, step s = (s₁, none) ∧ s₁.takeSteps steps = (s', none) := by
  simp only [takeSteps] at h
  cases hs : step s with
  | mk s₁ fault =>
    rw [hs] at h
    cases fault with
    | none => exact ⟨s₁, rfl, h⟩
    | some e => cases h

theorem takeSteps_listen {service : Service} {call : Call} {attach : Listeners → Listeners}
    {steps : List (Session K → Session K × Option Thrown)}
    (h : s.takeSteps (listen service call attach :: steps) = (s', none)) :
    ∃ s₁, s.Prepares s₁ ∧ s₁.takeSteps steps = (s', none) := by
  obtain ⟨s₁, hs, h⟩ := takeSteps_cons h
  refine ⟨s₁, ?_, h⟩
  have hn := listen_net service call attach s
  rw [hs] at hn
  unfold listen at hs
  split at hs
  · cases hs
  · cases hs
    exact ⟨hn, rfl, rfl⟩

/-- A startup that comes to its end has made one socket. -/
theorem setUp_eq_none (h : s.setUp = (s', none)) :
    s'.tab.net = { s.tab.net with sockets := s.tab.sockets ++ [.connecting] } ∧ s'.attempts = s.attempts ∧
      s'.channel = s.channel := by
  have h₀ : s.Prepares s.showControls := ⟨Tab.net_showControls _ _, rfl, rfl⟩
  obtain ⟨s₁, h₁, h⟩ := takeSteps_listen h
  obtain ⟨s₂, h₂, h⟩ := takeSteps_listen h
  obtain ⟨s₃, h₃, h⟩ := takeSteps_listen h
  obtain ⟨s₄, h₄, h⟩ := takeSteps_cons h
  have hp : s.Prepares s₃ := ((h₀.trans h₁).trans h₂).trans h₃
  have hc : s₃.connect = .ok s₄ := by
    unfold firstConnect at h₄
    split at h₄
    · next hc => cases h₄; exact hc
    · cases h₄
  obtain ⟨hn, -, hch⟩ := connect_net hc
  have hs₃ : s₃.tab.sockets = s.tab.sockets := congrArg Net.sockets hp.net
  rw [hp.net, hs₃] at hn
  cases h
  exact ⟨(Tab.net_requestFrame _).trans hn, (connect_clock hc).2.trans hp.attempts, hch.trans hp.channel⟩

/-- The first socket of a session. -/
theorem Strung.first (hs : s.tab.sockets = [.connecting]) (ht : s.tab.timers = []) (ha : s.attempts = 0)
    (hc : s.channel = .fresh) : s.Strung [] := by
  have hclock : s.tab.clock.timers = [] := ht
  refine ⟨⟨by simp [hclock], by simp [hclock]⟩, ?_, ?_, ⟨by simp [openings], fun n hn => ?_, by simp [closings]⟩,
    fun n hn => ?_, fun hopen => ?_, List.nodup_nil⟩
  · simp [hs, Sockets.unclosed, Clock.reconnects, hclock]
  · rw [ha]
    exact .nil
  · cases n <;> simp [hs, Sockets.ready] at hn
  · rw [hc] at hn
    cases hn
  · rw [hc] at hopen
    cases hopen

end Session

theorem Net.Waiting.exists_session {t : Tab} (h : t.net.Waiting) {id : Nat} {endpoints : Endpoints}
    (hf : (id, .startup endpoints) ∈ t.fetches) {app : App K} {painter : Painter}
    (hr : (Page.begun t id endpoints app painter).isReady = true) :
    ∃ s, Page.begun t id endpoints app painter = .running s true ∧ s.Chained ∧ s.Strung [] := by
  have hsound := h.begun hf app painter
  obtain ⟨s, hs⟩ : ∃ s,
      Session.ofMaterial { t with fetches := t.fetches.filter (·.1 ≠ id) } endpoints app painter = s := ⟨_, rfl⟩
  have hnet : s.tab.net = { t.net with fetches := t.fetches.filter (·.1 ≠ id) } := by subst hs; rfl
  obtain ⟨ha, hc⟩ : s.attempts = 0 ∧ s.channel = .fresh := by subst hs; exact ⟨rfl, rfl⟩
  simp only [Page.begun, hs] at hr hsound ⊢
  cases hu : s.setUp with
  | mk s' fault =>
    rw [hu] at hr hsound
    cases fault with
    | some e => cases hr
    | none =>
      obtain ⟨hn, ha', hc'⟩ := Session.setUp_eq_none hu
      have hsock : s.tab.sockets = [] := (congrArg Net.sockets hnet).trans h.sockets
      have htime : s.tab.timers = [] := (congrArg Net.timers hnet).trans h.timers
      refine ⟨s', rfl, hsound, .first ?_ ((congrArg Net.timers hn).trans htime) (ha'.trans ha) (hc'.trans hc)⟩
      exact (congrArg Net.sockets hn).trans (by rw [hsock]; rfl)

theorem Started.exists_session {p : Page K} (h : Started p) :
    ∃ s, p = .running s true ∧ s.Chained ∧ s.Strung [] := by
  cases h with
  | payload hv hf hr => exact Net.Waiting.exists_session hv.sound hf hr
  | @reply t named reply p hv hq hr =>
    obtain ⟨⟨id, task⟩, hf, rfl⟩ := Option.map_eq_some_iff.mp hq
    cases task with
    | resync => cases hr
    | startup endpoints =>
      have hm : (id, .startup endpoints) ∈ t.fetches := Session.mem_of_fetch? hf
      have hw : { t with calls := [] }.net.Waiting := hv.sound
      simp only [Page.resume, Page.onTab, Page.tab] at hr ⊢
      split at hr
      · cases hr
      · exact hw.exists_session hm hr

/-- **From startup on** a session stays strung. -/
theorem Path.strung {p r : Page K} {past : List (Page K × Event)} (hp : Started p) (h : Path p past r)
    (hb : ∀ step ∈ past, step.1.tab.browser.setsTimers = true) :
    ∃ s, r = .running s true ∧ s.Chained ∧ s.Strung past := by
  induction h with
  | nil => exact hp.exists_session
  | @event past q r e _ hl hq ih =>
    obtain ⟨s, rfl, hc, hs⟩ := ih fun step hm => hb step (List.mem_append_left _ hm)
    obtain ⟨s', rfl, ht⟩ := Session.handle_turn hc.resyncs hl.ne_start hq
    have hb' : s.tab.browser.setsTimers = true :=
      hb _ (List.mem_append_right past (List.mem_singleton_self (running s true, e)))
    exact ⟨s', rfl, hc.turn hl ht, hs.handle hc hl hb' hq ht⟩

/-! ## Losses -/

namespace Session

variable {s s' : Session K} {ready : Bool} {e : Event}

/-- Whether sendings succeed in the browser of a session. -/
def delivers (s : Session K) : Bool := !s.tab.browser.fails .send

/-- What becomes of the connection at an event, when some sockets have opened:
what the application is told, and what is done to the channel. -/
inductive Fares (opens : List Nat) (s : Session K) (e : Event) (s' : Session K) : Prop
  /-- A socket closes that had opened: the connection is lost, and what waits to be sent is dropped. -/
  | lost {n} : (running s true).closing? e = some n → n ∈ opens → s'.app = s.app.connectionLost.1 →
      s'.app.controller.isActive = false → s'.app.controller.resyncRequired = true →
      s'.channel = { s.channel with state := .disconnected, queue := [] } → Fares opens s e s'
  /-- A socket closes that had not opened: nobody is told, and what waits goes on waiting. -/
  | failed {n} : (running s true).closing? e = some n → n ∉ opens → s'.app = s.app →
      s'.channel = { s.channel with state := .disconnected } → Fares opens s e s'
  /-- A socket opens, and what waits is tried. -/
  | opened {n} : (running s true).opening? e = some n → s'.app = s.app.connected.1 →
      s'.channel = (s.channel.install (s.tab.sockets.set n .opened) n s.tab.luck).1 →
      s'.channel.queue = Channel.rest true s.delivers s.channel.queue → Fares opens s e s'
  /-- Another event, with messages to send or without: each is handed in behind
  what waits, and all is tried if the installed socket is open. -/
  | other : (running s true).closing? e = none → (running s true).opening? e = none →
      s.input? true e ≠ some .connectionLost →
      s'.app = ((s.input? true e).elim s.app fun i => (s.app.answer i).1) →
      s'.channel = s.channel.sendAll s.tab.sockets s.tab.luck (s.hands true e) →
      s'.channel.queue =
        Channel.restAfter (s.channel.isOpen s.tab.sockets) s.delivers s.channel.queue (s.hands true e) →
      Fares opens s e s'

/-- Only the close of a socket can be a loss. -/
theorem input?_ne_connectionLost {q : Page K} (hq : (running s ready).handle e = some q)
    (hc : (running s ready).closing? e = none) : s.input? ready e ≠ some .connectionLost := by
  cases e with
  | socketClosed named state =>
    obtain ⟨n, hn, -⟩ := Option.map_eq_some_iff.mp hq
    cases hc.symm.trans hn
  | run | step | abort => cases ready <;> simp [input?]
  | reply reply named =>
    simp only [input?]
    split
    · cases (s.tab.payload reply).toOption <;> simp
    · simp
  | message named text => cases text <;> simp [input?]
  | timer named =>
    simp only [input?]
    split <;> simp
  | _ => simp [input?]

theorem Turn.fares {q : Page K} {past : List (Page K × Event)} (ht : Turn s true e s') (h : s.Strung past)
    (hc : s.Chained) (hl : e.Lawful (running s true)) (hq : (running s true).handle e = some q) :
    s.Fares (openings past) e s' := by
  cases hcl : (running s true).closing? e with
  | some n =>
    cases e with
    | socketClosed named state =>
      have ha := ht.app
      have hch := ht.channel
      have hiff := h.isNotOpen_iff hc (hl.1 n hcl)
      simp only [input?] at ha
      rw [hands_socketClosed, prepared] at hch
      by_cases hn : n ∈ openings past
      · rw [hiff.mpr hn] at ha hch
        have hlost : s'.app = s.app.connectionLost.1 := ha
        exact .lost hcl hn hlost (by rw [hlost]; rfl) (by rw [hlost]; rfl) hch
      · have hno : s.channel.isNotOpen = true := by simpa using mt hiff.mp hn
        rw [hno] at ha hch
        exact .failed hcl hn ha hch
    | _ => cases hcl
  | none =>
    cases ho : (running s true).opening? e with
    | some n =>
      cases e with
      | socketOpened named =>
        have hs : (running s true).socket? named = some n := ho
        have hh : s.hands true (.socketOpened named) = [] := by
          simpa [hands, input?, App.answer] using messagesOf_connected s.app
        have hch : s'.channel = (s.channel.install (s.tab.sockets.set n .opened) n s.tab.luck).1 := by
          rw [ht.channel, hh]
          simp only [prepared, hs]
          rfl
        refine .opened ho ht.app hch ?_
        rw [hch]
        have hn : s.tab.sockets.ready n = .connecting := hl n hs
        refine s.channel.install_queue s.delivers ?_
        rw [h.release_opened hn]
        exact Sockets.ready_set_self (Sockets.lt_of_ready (by simp [hn]))
      | _ => cases ho
    | none =>
      have hch : s'.channel = s.channel.sendAll s.tab.sockets s.tab.luck (s.hands true e) := by
        rw [ht.channel, prepared_eq hq ho hcl]
      refine .other hcl ho (input?_ne_connectionLost hq hcl) ht.app hch ?_
      rw [hch]
      exact Channel.sendAll_queue s.delivers _ _

end Session

/-- The connection is made again by one attempt after the other. Whatever
happens after startup, as long as timers can be set, there is either one socket
that has not closed or one timer for the next attempt. The timers since a socket
opened wait for 100 ms, 200 ms and so on up to 1600 ms. A close, of which there
is one for each socket, is told to the application as a loss, and takes what
waits to be sent with it, if and only if that socket had opened. No other event
drops what waits: it is tried on an open socket, or goes on waiting. -/
theorem reconnects_in_turn {p r : Page K} {past : List (Page K × Event)} (hp : Started p) (h : Path p past r)
    (hb : ∀ step ∈ past, step.1.tab.browser.setsTimers = true) :
    (r.tab.sockets.unclosed = 1 ∧ r.tab.net.reconnects = 0 ∨
      r.tab.sockets.unclosed = 0 ∧ r.tab.net.reconnects = 1) ∧
    waitsSince past = (List.range (waitsSince past).length).map (fun n => min (100 * Nat.pow 2 n) 1600) ∧
    (closings past).Nodup ∧
    ∀ e r', e.Lawful r → r.handle e = some r' →
      ∃ s s', r = .running s true ∧ r' = .running s' true ∧ s.Fares (openings past) e s' := by
  obtain ⟨s, rfl, hc, hs⟩ := h.strung hp hb
  refine ⟨?_, ?_, hs.once, fun e r' hl hq => ?_⟩
  · have hone : s.tab.sockets.unclosed + s.tab.net.reconnects = 1 := hs.one
    change s.tab.sockets.unclosed = 1 ∧ s.tab.net.reconnects = 0 ∨
      s.tab.sockets.unclosed = 0 ∧ s.tab.net.reconnects = 1
    omega
  · have hd : backoffDelay = fun n => min (100 * Nat.pow 2 n) 1600 := by
      funext n
      rw [backoffDelay_eq, Nat.shiftLeft_eq]
      rfl
    rw [← hd]
    exact hs.backedOff.waits
  · obtain ⟨s', rfl, ht⟩ := Session.handle_turn hc.resyncs hl.ne_start hq
    exact ⟨s, s', rfl, rfl, ht.fares hs hc hl hq⟩

/-! ### Attempts that fail, and a loss -/

/-- The steps of some events; one that there is nothing for is passed over. -/
def steps (p : Page K) : List Event → List (Page K × Event)
  | [] => []
  | e :: es =>
    match p.handle e with
    | none => p.steps es
    | some q => (p, e) :: q.steps es

/-- What waits to be sent. -/
def waiting : Page K → List Pending
  | .loading _ => []
  | .running s _ => s.channel.queue

theorem Path.steps {p q : Page K} {past : List (Page K × Event)} (h : Path p past q) {es : List Event}
    (hl : AllLawful q es) : Path p (past ++ q.steps es) (q.after es) := by
  induction es generalizing q past with
  | nil => rwa [Page.steps, List.append_nil]
  | cons e es ih =>
    rw [Page.steps, Page.after]
    cases hq : q.handle e with
    | none =>
      rw [AllLawful, hq] at hl
      exact ih h hl.2
    | some q' =>
      rw [AllLawful, hq] at hl
      have h' := ih (.event e h hl.1 hq) hl.2
      rwa [List.append_assoc] at h'

end FarmClient.Page

namespace FarmClient.ExactFarm

open Page

/-- The first socket closes before it opens, and no socket can be made at the next two attempts. -/
def stumbles : List Event :=
  [.socketClosed none .closed, .browser { browser with failing := [.websocket] }, .timer none, .timer none]

/-- The next socket opens, and a start that cannot be sent waits for it to close. -/
def parting : List Event :=
  stumbles ++ [.browser browser, .timer none, .socketOpened none, .browser { browser with failing := [.send] },
    .run (some "a()")]

theorem started_loaded : Started loaded := by
  have h : (Page.ofBrowser browser : Page Rat).handle .start = some (.loading startTab) := rfl
  exact .payload (.event .start (.load browser) rfl h) (by decide +kernel) (by decide +kernel)

end FarmClient.ExactFarm

namespace FarmClient.Page

open ExactFarm (loaded stumbles parting)

/-- After three failures there is one timer, and it waits four times as long as
the first. The close of the socket that then opens is a loss, and the start that
waits is dropped. -/
theorem reconnects_in_turn_stumbling :
    Started loaded ∧ Path loaded (loaded.steps stumbles) (loaded.after stumbles) ∧
      (loaded.after stumbles).tab.net.reconnects = 1 ∧ waitsSince (loaded.steps stumbles) = [100, 200, 400] ∧
      Path loaded (loaded.steps parting) (loaded.after parting) ∧
      ∃ s s', loaded.after parting = .running s true ∧
        (running s true).handle (.socketClosed none .closed) = some (.running s' true) ∧
        s.channel.queue = [⟨"\x7b\"type\":\"start\",\"mode\":\"auto_step\",\"code\":\"a()\"\x7d", 1⟩] ∧
        s'.app = s.app.connectionLost.1 ∧ s'.channel.queue = [] := by
  have hlawful : AllLawful loaded stumbles := by decide +kernel
  have hpath : Path loaded (loaded.steps stumbles) (loaded.after stumbles) := Path.nil.steps hlawful
  obtain ⟨hone, hwaits, -⟩ := reconnects_in_turn ExactFarm.started_loaded hpath (by decide +kernel)
  have hlawful' : AllLawful loaded parting := by decide +kernel
  have hpath' : Path loaded (loaded.steps parting) (loaded.after parting) := Path.nil.steps hlawful'
  obtain ⟨-, -, -, hfares⟩ := reconnects_in_turn ExactFarm.started_loaded hpath' (by decide +kernel)
  refine ⟨ExactFarm.started_loaded, hpath, ?timers, ?delays, hpath', ?loss⟩
  case timers =>
    have hz : (loaded.after stumbles).tab.sockets.unclosed = 0 := by decide +kernel
    omega
  case delays =>
    have hlen : (waitsSince (loaded.steps stumbles)).length = 3 := by decide +kernel
    rw [hlen] at hwaits
    exact hwaits
  case loss =>
    have hlawfulClose : Event.Lawful (loaded.after parting) (.socketClosed none .closed) := by decide +kernel
    have hsome : ((loaded.after parting).handle (.socketClosed none .closed)).isSome = true := by decide +kernel
    have hwaiting : (loaded.after parting).waiting =
        [⟨"\x7b\"type\":\"start\",\"mode\":\"auto_step\",\"code\":\"a()\"\x7d", 1⟩] := by decide +kernel
    have hcloses : (loaded.after parting).closing? (.socketClosed none .closed) = some 1 := by decide +kernel
    have hopens : 1 ∈ openings (loaded.steps parting) := by decide +kernel
    obtain ⟨r, hr⟩ := Option.isSome_iff_exists.mp hsome
    obtain ⟨s, s', hs, rfl, hf⟩ := hfares _ r hlawfulClose hr
    rw [hs] at hr hwaiting hcloses
    cases hf with
    | lost _ _ happ _ _ hchannel => exact ⟨s, s', hs, hr, hwaiting, happ, congrArg Channel.queue hchannel⟩
    | failed hn hnot =>
      rw [hcloses] at hn
      cases hn
      exact absurd hopens hnot
    | opened ho => cases ho
    | other hn =>
      rw [hcloses] at hn
      cases hn

end FarmClient.Page
