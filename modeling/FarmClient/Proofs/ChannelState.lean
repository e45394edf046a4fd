/-
What the state of the channel says. It is disconnected until a socket is
installed, and again once a close has been told; in between it is degraded
while three sendings or more have failed since one succeeded, or since the
socket was installed. The channel remembers none of this: it has a state and a
counter, which four operations write, some in the middle of a round. That
they are what the history makes them is shown mark by mark (`Told`).

It takes a browser that tells a close only of a socket that will not open
again (`LeftForGood`). A channel that is told too early would go on sending,
and after three failures be degraded without a connection.

The counter has 32 bits. A row of failures that fills it is outside of what
addition is for: it stops the program, or goes on from zero where additions are
not checked. There a success would be taken for one without failures before it,
and leave the channel degraded. So what a degraded channel tells about the past
is shown for sockets on which the counter was never full (`NeverFull`), and all
else for any.
-/
import Mathlib.Data.List.DropRight
import Mathlib.Data.List.Infix
import FarmClient.Proofs.SendLedger
import FarmClient.Proofs.WireRoundTrip

namespace FarmClient.Page.Channel

/-! ## Histories -/

/-- What happens to a connection. -/
inductive Mark where
  | installed
  | closed
  | sent (delivered : Bool)
deriving DecidableEq

/-- What a use is in itself, whatever it sends. -/
def Use.mark? : Use → Option Mark
  | .install _ => some .installed
  | .disconnected => some .closed
  | .send _ | .flush | .discard => none

/-- How the sendings came out, in order. -/
def sentMarks (calls : List SocketCall) : List Mark := (sendings calls).map fun s => .sent s.2

/-- A channel with all that has happened to it. -/
structure Chronicle where
  channel : Channel
  marks : List Mark

namespace Chronicle

/-- A use is recorded as what it is, and then as what it sends. -/
def record (h : Chronicle) (o : Occasion) : Chronicle :=
  let (channel, calls) := o.on h.channel
  ⟨channel, h.marks ++ o.use.mark?.toList ++ sentMarks calls⟩

/-- The chronicle of a channel that has been used so. -/
def after (os : List Occasion) : Chronicle := os.foldl record ⟨.fresh, []⟩

theorem after_snoc (os : List Occasion) (o : Occasion) : after (os ++ [o]) = (after os).record o :=
  List.foldl_concat ..

end Chronicle

/-- What has happened since the last close was told, or from the beginning. -/
def sinceClose (marks : List Mark) : List Mark := marks.rtakeWhile (· ≠ .closed)

/-- What has happened since a sending succeeded or a socket was installed, whichever is later. -/
def sinceGood (marks : List Mark) : List Mark := marks.rtakeWhile fun m => m ≠ .sent true ∧ m ≠ .installed

/-- A socket has been installed, and no close was told since. -/
def Live (marks : List Mark) : Prop := .installed ∈ sinceClose marks

/-- How many sendings in a row have failed. -/
def failuresInARow (marks : List Mark) : Nat := (sinceGood marks).count (.sent false)

/-- What has happened since a socket was installed, or from the beginning. -/
def sinceInstall (marks : List Mark) : List Mark := marks.rtakeWhile (· ≠ .installed)

/-- Since the socket was installed, no more sendings have at any time failed in a row than 32 bits can count. -/
def NeverFull (marks : List Mark) : Prop := ∀ past ∈ (sinceInstall marks).inits, failuresInARow past < UInt32.size

instance (marks : List Mark) : Decidable (Live marks) := inferInstanceAs (Decidable (_ ∈ _))

instance (marks : List Mark) : Decidable (NeverFull marks) :=
  inferInstanceAs (Decidable (∀ past ∈ (sinceInstall marks).inits, _))

section

variable (marks : List Mark)

@[simp] theorem not_live_nil : ¬ Live [] := by simp [Live, sinceClose]

@[simp] theorem live_installed : Live (marks ++ [.installed]) := by simp [Live, sinceClose]

@[simp] theorem not_live_closed : ¬ Live (marks ++ [.closed]) := by simp [Live, sinceClose]

@[simp] theorem live_sent (b : Bool) : Live (marks ++ [.sent b]) ↔ Live marks := by simp [Live, sinceClose]

@[simp] theorem failuresInARow_nil : failuresInARow [] = 0 := rfl

@[simp] theorem failuresInARow_installed : failuresInARow (marks ++ [.installed]) = 0 := by
  simp [failuresInARow, sinceGood]

@[simp] theorem failuresInARow_closed : failuresInARow (marks ++ [.closed]) = failuresInARow marks := by
  simp [failuresInARow, sinceGood]

@[simp] theorem failuresInARow_sent_true : failuresInARow (marks ++ [.sent true]) = 0 := by
  simp [failuresInARow, sinceGood]

@[simp] theorem failuresInARow_sent_false :
    failuresInARow (marks ++ [.sent false]) = failuresInARow marks + 1 := by
  simp [failuresInARow, sinceGood]

end

/-- A row of failures is one of the socket that is installed. -/
theorem failuresInARow_sinceInstall (marks : List Mark) :
    failuresInARow (sinceInstall marks) = failuresInARow marks := by
  have hg : sinceGood (sinceInstall marks) = sinceGood marks := by
    simp only [sinceGood, sinceInstall, List.rtakeWhile, List.reverse_reverse, List.takeWhile_takeWhile]
    congr 2
    funext m
    cases m <;> simp
  rw [failuresInARow, hg, failuresInARow]

theorem NeverFull.lt {marks : List Mark} (h : NeverFull marks) : failuresInARow marks < UInt32.size := by
  rw [← failuresInARow_sinceInstall]
  exact h _ ((List.mem_inits _ _).mpr (List.prefix_refl _))

theorem NeverFull.init {marks : List Mark} {b : Bool} (h : NeverFull (marks ++ [.sent b])) : NeverFull marks := by
  have hs : sinceInstall (marks ++ [.sent b]) = sinceInstall marks ++ [.sent b] := by simp [sinceInstall]
  intro past hp
  refine h past ((List.mem_inits _ _).mpr ?_)
  rw [hs]
  exact ((List.mem_inits _ _).mp hp).trans (List.prefix_append _ _)

/-! ## The state that a history makes -/

/-- **The state and the counter are what has happened.** -/
structure Told (marks : List Mark) (c : Channel) : Prop where
  disconnected : c.state = .disconnected ↔ ¬ Live marks
  failures : c.failures.toNat = failuresInARow marks % UInt32.size
  degraded : Live marks → 3 ≤ failuresInARow marks → c.state = .degraded
  connected : Live marks → failuresInARow marks < 3 → NeverFull marks → c.state = .connected

namespace Told

variable {marks : List Mark} {c : Channel}

/-- Neither the queue nor the socket matters. -/
theorem of_eq {c' : Channel} (h : Told marks c) (hs : c'.state = c.state) (hf : c'.failures = c.failures) :
    Told marks c' where
  disconnected := by rw [hs]; exact h.disconnected
  failures := by rw [hf]; exact h.failures
  degraded := by rw [hs]; exact h.degraded
  connected := by rw [hs]; exact h.connected

theorem fresh : Told [] .fresh := ⟨by simp [Channel.fresh], rfl, by simp, by simp⟩

theorem close (h : Told marks c) : Told (marks ++ [.closed]) c.disconnected :=
  ⟨by simp [Channel.disconnected], by simp [Channel.disconnected, h.failures], by simp, by simp⟩

theorem install {c' : Channel} (hs : c'.state = .connected) (hf : c'.failures = 0) :
    Told (marks ++ [.installed]) c' :=
  ⟨by simp [hs], by simp [hf], by simp, fun _ _ _ => hs⟩

theorem succeeded (h : Told marks c) (hl : Live marks) : Told (marks ++ [.sent true]) c.succeeded := by
  have hs : c.state ≠ .disconnected := fun hs => h.disconnected.mp hs hl
  unfold Channel.succeeded
  split
  · next hf =>
    refine ⟨by simpa [hl] using hs, by simp [hf], by simp, fun _ _ hc => ?_⟩
    -- the counter tells that nothing has failed only because it was never full
    have hz := h.failures
    rw [hf, Nat.mod_eq_of_lt hc.init.lt] at hz
    exact h.connected hl (by rw [← hz]; decide) hc.init
  · exact ⟨by simp [hl], by simp, by simp, fun _ _ _ => rfl⟩

theorem failed (h : Told marks c) (hl : Live marks) (p : Pending) :
    Told (marks ++ [.sent false]) (c.failed p) := by
  have hs : c.state ≠ .disconnected := fun hs => h.disconnected.mp hs hl
  have hf : (c.failed p).failures.toNat = (failuresInARow marks + 1) % UInt32.size := by
    rw [← Nat.mod_add_mod, ← h.failures]
    exact UInt32.toNat_add _ _
  have hthree : 3 ≤ (c.failed p).failures ↔ 3 ≤ (failuresInARow marks + 1) % UInt32.size := by
    rw [UInt32.le_iff_toNat_le, hf]
    rfl
  by_cases h3 : 3 ≤ (c.failed p).failures
  · have hd : (c.failed p).state = .degraded := if_pos h3
    refine ⟨by simp [hd, hl], by rw [hf, failuresInARow_sent_false], fun _ _ => hd, fun _ hlt _ => ?_⟩
    have hle := Nat.le_trans (hthree.mp h3) (Nat.mod_le _ _)
    rw [failuresInARow_sent_false] at hlt
    omega
  · have hd : (c.failed p).state = c.state := if_neg h3
    refine ⟨by simpa [hd, hl] using hs, by rw [hf, failuresInARow_sent_false], fun _ hle => ?_, fun _ hlt hc => ?_⟩
    · rw [failuresInARow_sent_false] at hle
      -- past the third failure the state is degraded already
      have hmore : 3 ≤ failuresInARow marks := by
        by_contra hless
        have hsmall : failuresInARow marks + 1 < UInt32.size := Nat.lt_of_le_of_lt (Nat.not_le.mp hless) (by decide)
        rw [hthree, Nat.mod_eq_of_lt hsmall] at h3
        exact h3 hle
      exact hd.trans (h.degraded hl hmore)
    · rw [failuresInARow_sent_false] at hlt
      exact hd.trans (h.connected hl (by omega) hc.init)

/-- **A round of sendings**, each of which counts as it comes out. -/
theorem attempt (socket : Nat) (queue : List Pending) : ∀ {marks : List Mark} {c : Channel} {luck : Nat → Bool},
    Told marks c → Live marks →
      Told (marks ++ sentMarks (c.attempt socket luck queue).2) (c.attempt socket luck queue).1 := by
  induction queue with
  | nil => exact fun h _ => by simpa [Channel.attempt, sentMarks, sendings] using h
  | cons p queue ih =>
    intro marks c luck h hl
    have hfirst : Told (marks ++ [.sent (luck 0)]) (if luck 0 then c.succeeded else c.failed p) := by
      cases luck 0 with
      | true => exact h.succeeded hl
      | false => exact h.failed hl p
    have hmarks : sentMarks (c.attempt socket luck (p :: queue)).2 = .sent (luck 0) ::
        sentMarks ((if luck 0 then c.succeeded else c.failed p).attempt socket (fun i => luck (i + 1)) queue).2 :=
      rfl
    rw [hmarks, List.append_cons]
    exact ih hfirst ((live_sent ..).mpr hl)

/-- What waits is sent, if there is an open socket, and then there has to be a connection. -/
theorem flush {sockets : Sockets} (h : Told marks c) (hl : c.isOpen sockets = true → Live marks)
    (luck : Nat → Bool) :
    Told (marks ++ sentMarks (c.flush sockets luck).2) (c.flush sockets luck).1 := by
  obtain ⟨n, ho, hf⟩ | ⟨-, hf⟩ := c.flush_cases sockets luck
  · have hq : Told marks { c with queue := [] } := h.of_eq rfl rfl
    rw [hf]
    exact hq.attempt n c.queue (hl ho)
  · simpa [hf, sentMarks, sendings] using h

/-- **One use** of a channel that sends only while there is a connection. -/
theorem use (h : Told marks c) (o : Occasion) (hl : c.isOpen o.sockets = true → Live marks) :
    Told (marks ++ o.use.mark?.toList ++ sentMarks (o.on c).2) (o.on c).1 := by
  obtain ⟨use, sockets, luck⟩ := o
  cases use with
  | send message =>
    have hq : Told marks { c with queue := c.queue ++ [Pending.mk message.toJson 0] } := h.of_eq rfl rfl
    simp only [Use.mark?, Option.toList_none, List.append_nil]
    exact hq.flush hl luck
  | flush =>
    simp only [Use.mark?, Option.toList_none, List.append_nil]
    exact h.flush hl luck
  | install n =>
    have hn : Told (marks ++ [.installed]) { c with socket := some n, state := .connected, failures := 0 } :=
      .install rfl rfl
    have hmarks : sentMarks (Occasion.on ⟨.install n, sockets, luck⟩ c).2 = sentMarks (Channel.flush
        { c with socket := some n, state := .connected, failures := 0 } (c.release sockets).1 luck).2 := by
      simp only [sentMarks, Occasion.on, Channel.install, sendings_append, release_sendings, List.nil_append]
    rw [hmarks]
    exact hn.flush (fun _ => live_installed marks) luck
  | disconnected => simpa [Use.mark?, Occasion.on, sentMarks, sendings] using h.close
  | discard =>
    have hd : Told marks c.discard := h.of_eq rfl rfl
    simpa [Use.mark?, Occasion.on, sentMarks, sendings] using hd

end Told

/-! ## The installed socket -/

/-- The socket that was installed last. -/
def installed? (os : List Occasion) : Option Nat :=
  (os.filterMap fun o => match o.use with
    | .install n => some n
    | _ => none).getLast?

/-- A close has been told while a socket was the one installed. -/
def CloseTold (os : List Occasion) (n : Nat) : Prop :=
  ∃ i, ∃ hi : i < os.length, os[i].use.mark? = some .closed ∧ n ∈ installed? (os.take i)

/-- **A close is told only of a socket that has left the open state for good**:
it is not open then, nor at any later use. -/
def LeftForGood (os : List Occasion) : Prop :=
  ∀ i, (hi : i < os.length) → os[i].use.mark? = some .closed →
    ∀ n ∈ installed? (os.take i), ∀ o ∈ os.drop i, o.sockets.ready n ≠ .opened

instance (os : List Occasion) : Decidable (LeftForGood os) :=
  inferInstanceAs (Decidable (∀ i, (hi : i < os.length) → _))

variable {os : List Occasion} {o : Occasion} {n : Nat}

theorem CloseTold.snoc (h : CloseTold os n) (o : Occasion) : CloseTold (os ++ [o]) n := by
  obtain ⟨i, hi, hc, hn⟩ := h
  refine ⟨i, by simp; omega, ?_, ?_⟩
  · rwa [List.getElem_append_left hi]
  · rwa [List.take_append_of_le_length (by omega)]

theorem LeftForGood.init (h : LeftForGood (os ++ [o])) : LeftForGood os := by
  intro i hi hc n hn o' ho
  refine h i (by simp; omega) (by simpa [List.getElem_append_left hi] using hc) n ?_ o' ?_
  · rwa [List.take_append_of_le_length (by omega)]
  · rw [List.drop_append_of_le_length (by omega)]
    exact List.mem_append_left _ ho

variable {sockets : Sockets} {message : ClientMessage} {luck : Nat → Bool}

/-- A start is handed in before there is a socket, goes through on the first one and is followed by a step that fails
three times. -/
def stumbling : List Occasion :=
  [⟨.send (.start .manualStep "a()"), [], fun _ => true⟩, ⟨.install 0, [.opened], fun _ => true⟩,
    ⟨.send .step, [.opened], fun _ => false⟩, ⟨.flush, [.opened], fun _ => false⟩, ⟨.flush, [.opened], fun _ => false⟩]

/-- The same, and then the socket closes. -/
def lost : List Occasion := stumbling ++ [⟨.disconnected, [.closed], fun _ => true⟩]

/-- A close that is told of an open socket: the channel goes on sending, and three failures make it degraded. -/
example : let h := Chronicle.after [⟨.install 0, [.opened], fun _ => true⟩, ⟨.disconnected, [.opened], fun _ => true⟩,
      ⟨.send .step, [.opened], fun _ => false⟩, ⟨.flush, [.opened], fun _ => false⟩,
      ⟨.flush, [.opened], fun _ => false⟩]
    h.channel.state = .degraded ∧ ¬ Live h.marks := by decide +kernel

end FarmClient.Page.Channel
