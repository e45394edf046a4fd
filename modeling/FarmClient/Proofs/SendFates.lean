/-
What becomes of each message handed to the channel. It waits with the number
of times it has failed, at most five, until it is delivered, has failed six
times, or is dropped with all that wait; then it is never tried again. So
every message has exactly one of four fates at any time, however sockets come,
go and fail (`exists_unique_fate`).

What one use does to a slip is said once (`Sound.slip_cases` forwards,
`Sound.of_mem_record` backwards); that slips count right and that what is gone
stays away is shown from it, use by use.
-/
import Mathlib.Data.Set.Card
import FarmClient.Proofs.SendOrder

namespace FarmClient.Page

open Channel (maxRetries outcomes)

/-- How a message was tried in a round. -/
def triesOf (n : Nat) (round : List Try) : List Bool :=
  round.filterMap fun t => if t.number = n then some t.delivered else none

theorem triesOf_eq_nil {n : Nat} {round : List Try} (h : ∀ t ∈ round, t.number ≠ n) : triesOf n round = [] := by
  refine List.filterMap_eq_nil_iff.mpr fun t ht => ?_
  rw [if_neg (h t ht)]

/-- In a round a message is tried once at most. -/
theorem triesOf_eq_singleton {round : List Try} (h : round.Pairwise (·.number < ·.number)) {t : Try} (ht : t ∈ round) :
    triesOf t.number round = [t.delivered] := by
  obtain ⟨before, after, rfl⟩ := List.append_of_mem ht
  obtain ⟨-, ha, hb⟩ := List.pairwise_append.mp h
  obtain ⟨ha, -⟩ := List.pairwise_cons.mp ha
  have hbefore : triesOf t.number before = [] :=
    triesOf_eq_nil fun t' ht' => Nat.ne_of_lt (hb t' ht' t List.mem_cons_self)
  have hafter : triesOf t.number after = [] := triesOf_eq_nil fun t' ht' => Nat.ne_of_gt (ha t' ht')
  unfold triesOf at *
  rw [List.filterMap_append, List.filterMap_cons, hbefore, hafter, if_pos rfl]
  rfl

namespace Ledger

/-- How a message was tried so far, one outcome for each time. -/
def attempts (l : Ledger) (n : Nat) : List Bool := l.rounds.flatMap (triesOf n)

/-- A message waits. -/
def Waits (l : Ledger) (n : Nat) : Prop := ∃ s ∈ l.waiting, s.number = n

instance (l : Ledger) (n : Nat) : Decidable (l.Waits n) :=
  inferInstanceAs (Decidable (∃ s ∈ l.waiting, s.number = n))

/-- A message was handed in, and waits no more. -/
structure Gone (l : Ledger) (n : Nat) : Prop where
  sent : n < l.sent.length
  waits : ¬ l.Waits n

/-- What a use tries, with the outcomes. -/
def triedBy (l : Ledger) (o : Channel.Occasion) : List (Slip × Bool) :=
  (l.accept o.use).waiting.zip (outcomes o.luck (o.reach l.channel))

section

variable {l : Ledger} {n : Nat}

theorem Sound.lt_of_waits (h : l.Sound) (hn : l.Waits n) : n < l.sent.length := by
  obtain ⟨s, hs, rfl⟩ := hn
  exact lt_of_getElem?_eq (h.texts s hs)

/-- What was not handed in yet was not tried. -/
theorem Sound.attempts_eq_nil (h : l.Sound) (hn : l.sent.length ≤ n) : l.attempts n = [] := by
  refine List.flatMap_eq_nil_iff.mpr fun round hr => triesOf_eq_nil fun t ht he => ?_
  have := lt_of_getElem?_eq (h.tried_texts round hr t ht)
  omega

/-! ## One use -/

theorem waits_accept {u : Channel.Use} (h : (l.accept u).Waits n) : l.Waits n ∨ n = l.sent.length := by
  obtain ⟨s, hs, rfl⟩ := h
  cases u with
  | send message =>
    rcases List.mem_append.mp hs with hs | hs
    · exact .inl ⟨s, hs, rfl⟩
    · exact .inr (by rw [List.mem_singleton.mp hs])
  | discard => cases hs
  | flush | install | disconnected => exact .inl ⟨s, hs, rfl⟩

theorem Waits.accept {u : Channel.Use} (h : l.Waits n) (hu : u ≠ .discard) : (l.accept u).Waits n := by
  obtain ⟨s, hs, rfl⟩ := h
  cases u with
  | send message => exact ⟨s, List.mem_append_left _ hs, rfl⟩
  | discard => exact absurd rfl hu
  | flush | install | disconnected => exact ⟨s, hs, rfl⟩

/-- A new message waits. -/
theorem sent_of_not_waits {u : Channel.Use} (hs : n < (l.accept u).sent.length) (hn : ¬ (l.accept u).Waits n) :
    n < l.sent.length := by
  cases u with
  | send message =>
    have hne : n ≠ l.sent.length := by
      rintro rfl
      exact hn ⟨_, List.mem_append_right _ (List.mem_singleton_self _), rfl⟩
    have hlen : (l.accept (.send message)).sent.length = l.sent.length + 1 := by simp [Ledger.accept]
    omega
  | flush | install | disconnected | discard => exact hs

variable (o : Channel.Occasion)

theorem Sound.record_waiting (h : l.Sound) :
    (l.record o).waiting = left (l.triedBy o) ++ (l.accept o.use).waiting.drop (o.reach l.channel) := by
  have hw : (l.record o).waiting = left ((l.accept o.use).tried (o.on l.channel).2) ++
      (l.accept o.use).waiting.drop ((l.accept o.use).tried (o.on l.channel).2).length := rfl
  rw [hw, (h.tried_eq o).1, List.length_zip, Channel.length_outcomes, Nat.min_eq_right (reach_le h o)]
  rfl

theorem Sound.record_triedBy (h : l.Sound) : (l.record o).rounds = l.rounds ++ [(l.triedBy o).map Try.of] := by
  have hr : (l.record o).rounds = (l.accept o.use).rounds ++
      [((l.accept o.use).tried (o.on l.channel).2).map Try.of] := rfl
  rw [hr, (h.tried_eq o).1, accept_rounds]
  rfl

theorem Sound.attempts_record (h : l.Sound) (n : Nat) :
    (l.record o).attempts n = l.attempts n ++ triesOf n ((l.triedBy o).map Try.of) := by
  simp [attempts, h.record_triedBy]

/-- With an open socket all that waits is tried, and goes back if it may. -/
theorem Sound.record_of_opens (h : l.Sound) (ho : o.opens l.channel = true) :
    (l.triedBy o).map Prod.fst = (l.accept o.use).waiting ∧ (l.record o).waiting = left (l.triedBy o) := by
  have hr : o.reach l.channel = (l.accept o.use).waiting.length := by
    rw [Channel.Occasion.reach, if_pos ho, ← accept_queue h, List.length_map]
  refine ⟨?_, ?_⟩
  · rw [triedBy, hr]
    exact List.map_fst_zip (by simp)
  · rw [h.record_waiting, hr, List.drop_length, List.append_nil]

/-- Without one nothing is tried. -/
theorem Sound.record_of_not_opens (h : l.Sound) (ho : o.opens l.channel = false) :
    l.triedBy o = [] ∧ (l.record o).waiting = (l.accept o.use).waiting := by
  have hr : o.reach l.channel = 0 := by
    rw [Channel.Occasion.reach, ho]
    rfl
  have ht : l.triedBy o = [] := by simp [triedBy, hr, outcomes]
  refine ⟨ht, ?_⟩
  rw [h.record_waiting, ht, hr]
  rfl

theorem mem_triedBy {x : Slip × Bool} (hx : x ∈ l.triedBy o) : x.1 ∈ (l.accept o.use).waiting :=
  (List.of_mem_zip hx).1

theorem Sound.triedBy_sorted (h : l.Sound) : ((l.triedBy o).map Try.of).Pairwise (·.number < ·.number) :=
  (h.record o).rounds_sorted _ (by simp [h.record_triedBy])

/-- **The round of a use**: with an open socket each message that waits is
tried once, in turn. -/
theorem Sound.exists_round (h : l.Sound) :
    ∃ round, (l.record o).rounds = l.rounds ++ [round] ∧
      sendings (o.on l.channel).2 = round.map (fun t => (t.text, t.delivered)) ∧
      (round.map Try.number).Nodup ∧
      round.map Try.number = if o.opens l.channel then (l.accept o.use).waiting.map Slip.number else [] := by
  refine ⟨(l.triedBy o).map Try.of, h.record_triedBy o, ?sendings, ?nodup, ?numbers⟩
  case sendings =>
    rw [(h.tried_eq o).2.sendings, List.zip_map_left, List.map_map, List.map_map]
    rfl
  case nodup =>
    exact (List.pairwise_map.mpr (h.triedBy_sorted o)).imp Nat.ne_of_lt
  case numbers =>
    have hn : ((l.triedBy o).map Try.of).map Try.number = ((l.triedBy o).map Prod.fst).map Slip.number := by
      rw [List.map_map, List.map_map]
      rfl
    rw [hn]
    cases ho : o.opens l.channel with
    | true => rw [(h.record_of_opens o ho).1, if_pos rfl]
    | false =>
      rw [(h.record_of_not_opens o ho).1]
      rfl

/-- What is tried in a use is tried once in it. -/
theorem Sound.attempts_of_mem (h : l.Sound) {s : Slip} {delivered : Bool} (hs : (s, delivered) ∈ l.triedBy o) :
    (l.record o).attempts s.number = l.attempts s.number ++ [delivered] := by
  have ht : triesOf s.number ((l.triedBy o).map Try.of) = [delivered] :=
    triesOf_eq_singleton (h.triedBy_sorted o) (t := .of (s, delivered)) (List.mem_map_of_mem hs)
  rw [h.attempts_record, ht]

/-- What does not wait is not tried. -/
theorem Sound.attempts_of_not_waits (h : l.Sound) (hn : ¬ (l.accept o.use).Waits n) :
    (l.record o).attempts n = l.attempts n := by
  have ht : triesOf n ((l.triedBy o).map Try.of) = [] := by
    refine triesOf_eq_nil fun t ht he => hn ?_
    obtain ⟨x, hx, rfl⟩ := List.mem_map.mp ht
    exact ⟨x.1, mem_triedBy o hx, he⟩
  rw [h.attempts_record, ht, List.append_nil]

/-- **What becomes of a slip** in a use: it stays, is delivered, fails and goes
back, or fails for the last time. -/
theorem Sound.slip_cases (h : l.Sound) {s : Slip} (hs : s ∈ (l.accept o.use).waiting) :
    (s ∈ (l.record o).waiting ∧ (l.record o).attempts s.number = l.attempts s.number) ∨
    (l.record o).attempts s.number = l.attempts s.number ++ [true] ∨
    (l.record o).attempts s.number = l.attempts s.number ++ [false] ∧
      (s.pending.failures < maxRetries → s.failed ∈ (l.record o).waiting) := by
  cases ho : o.opens l.channel with
  | true =>
    obtain ⟨hfst, hw⟩ := h.record_of_opens o ho
    rw [← hfst] at hs
    obtain ⟨⟨s, delivered⟩, hm, rfl⟩ := List.mem_map.mp hs
    refine .inr ?_
    cases delivered with
    | true => exact .inl (h.attempts_of_mem o hm)
    | false =>
      refine .inr ⟨h.attempts_of_mem o hm, fun hf => ?_⟩
      rw [hw]
      exact mem_left_iff.mpr ⟨s, hm, hf, rfl⟩
  | false =>
    obtain ⟨ht, hw⟩ := h.record_of_not_opens o ho
    refine .inl ⟨by rwa [hw], ?_⟩
    rw [h.attempts_record, ht]
    exact List.append_nil _

/-- Where a slip comes from that waits after a use. -/
theorem Sound.of_mem_record (h : l.Sound) {s' : Slip} (hs : s' ∈ (l.record o).waiting) :
    ∃ s ∈ (l.accept o.use).waiting,
      s = s' ∧ (l.record o).attempts s.number = l.attempts s.number ∨
      s' = s.failed ∧ s.pending.failures < maxRetries ∧
        (l.record o).attempts s.number = l.attempts s.number ++ [false] := by
  cases ho : o.opens l.channel with
  | true =>
    rw [(h.record_of_opens o ho).2] at hs
    obtain ⟨s, hm, hf, rfl⟩ := mem_left_iff.mp hs
    exact ⟨s, mem_triedBy o hm, .inr ⟨rfl, hf, h.attempts_of_mem o hm⟩⟩
  | false =>
    obtain ⟨ht, hw⟩ := h.record_of_not_opens o ho
    rw [hw] at hs
    refine ⟨s', hs, .inl ⟨rfl, ?_⟩⟩
    rw [h.attempts_record, ht]
    exact List.append_nil _

/-- A message that does not wait when sending starts is gone. -/
theorem Sound.gone_of_not_waits (h : l.Sound) (hs : n < l.sent.length) (hn : ¬ (l.accept o.use).Waits n) :
    (l.record o).Gone n ∧ (l.record o).attempts n = l.attempts n := by
  have hle : l.sent.length ≤ (l.record o).sent.length := by
    have he : (l.record o).sent = (l.accept o.use).sent := rfl
    rw [he]
    cases o.use with
    | send message => simp [Ledger.accept]
    | flush | install | disconnected | discard => exact Nat.le_refl _
  refine ⟨⟨Nat.lt_of_lt_of_le hs hle, ?_⟩, h.attempts_of_not_waits o hn⟩
  rintro ⟨s', hs', rfl⟩
  obtain ⟨s, hs, he⟩ := h.of_mem_record o hs'
  refine hn ⟨s, hs, ?_⟩
  rcases he with ⟨rfl, -⟩ | ⟨rfl, -⟩ <;> rfl

theorem Gone.record (hn : l.Gone n) (h : l.Sound) :
    (l.record o).Gone n ∧ (l.record o).attempts n = l.attempts n := by
  refine h.gone_of_not_waits o hn.sent fun hw => ?_
  rcases waits_accept hw with hw | he
  · exact hn.waits hw
  · have := hn.sent
    omega

theorem Sound.gone_of_discard (h : l.Sound) (hw : l.Waits n) (ho : o.use = .discard) :
    (l.record o).Gone n ∧ (l.record o).attempts n = l.attempts n := by
  refine h.gone_of_not_waits o (h.lt_of_waits hw) ?_
  rw [ho]
  rintro ⟨s, hs, -⟩
  cases hs

end

/-! ## Counts -/

/-- A slip counts the failures of its message, and those are not too many. -/
structure Counts (l : Ledger) (s : Slip) : Prop where
  le : s.pending.failures ≤ maxRetries
  attempts : l.attempts s.number = List.replicate s.pending.failures false

theorem Counts.accept {l : Ledger} (h : l.Sound) (hc : ∀ s ∈ l.waiting, l.Counts s) (u : Channel.Use) :
    ∀ s ∈ (l.accept u).waiting, l.Counts s := by
  intro s hs
  cases u with
  | send message =>
    rcases List.mem_append.mp hs with hs | hs
    · exact hc s hs
    · rw [List.mem_singleton.mp hs]
      exact ⟨Nat.zero_le _, h.attempts_eq_nil (Nat.le_refl _)⟩
  | discard => cases hs
  | flush | install | disconnected => exact hc s hs

theorem Counts.record {l : Ledger} (h : l.Sound) (hc : ∀ s ∈ l.waiting, l.Counts s) (o : Channel.Occasion) :
    ∀ s ∈ (l.record o).waiting, (l.record o).Counts s := by
  intro s' hs'
  obtain ⟨s, hs, ⟨rfl, ha⟩ | ⟨rfl, hf, ha⟩⟩ := h.of_mem_record o hs'
  · obtain ⟨hle, hn⟩ := Counts.accept h hc o.use s hs
    exact ⟨hle, ha.trans hn⟩
  · obtain ⟨-, hn⟩ := Counts.accept h hc o.use s hs
    refine ⟨hf, ha.trans ?_⟩
    rw [hn]
    exact List.replicate_succ'.symm

theorem after_counts (os : List Channel.Occasion) : ∀ s ∈ (after os).waiting, (after os).Counts s := by
  induction os using List.reverseRecOn with
  | nil => nofun
  | append_singleton os o ih =>
    rw [after_snoc]
    exact Counts.record (after_sound os) ih o

/-- **What is gone stays away**, and is not tried again. -/
theorem Gone.after {os : List Channel.Occasion} {n : Nat} (hn : (after os).Gone n) (later : List Channel.Occasion) :
    (after (os ++ later)).Gone n ∧ (after (os ++ later)).attempts n = (after os).attempts n := by
  induction later using List.reverseRecOn with
  | nil => simpa using hn
  | append_singleton later o ih =>
    rw [← List.append_assoc, after_snoc]
    obtain ⟨hg, ha⟩ := ih.1.record o (after_sound _)
    exact ⟨hg, ha.trans ih.2⟩

/-! ## Fates -/

/-- What can have become of a message. -/
inductive Fate where
  | delivered
  | pending
  /-- It has failed too often. -/
  | exhausted
  | discarded
deriving DecidableEq

/-- **A message has met a fate** after some uses of a channel: its last sending
succeeded; it waits, with a count of its failures; it has failed once more than
it may go back; or it waited when all that waited was dropped. -/
inductive Meets (os : List Channel.Occasion) (n : Nat) : Fate → Prop
  | delivered (k : Nat) : k ≤ maxRetries → (after os).attempts n = List.replicate k false ++ [true] →
      Meets os n .delivered
  | pending (s : Slip) : s ∈ (after os).waiting → s.number = n → s.pending.failures ≤ maxRetries →
      (after os).attempts n = List.replicate s.pending.failures false → Meets os n .pending
  | exhausted : (after os).attempts n = List.replicate (maxRetries + 1) false → Meets os n .exhausted
  | discarded (before later : List Channel.Occasion) (o : Channel.Occasion) : os = before ++ o :: later →
      o.use = .discard → (after before).Waits n → Meets os n .discarded

variable {os : List Channel.Occasion} {n : Nat}

/-- What has been discarded is gone, and has not failed too often. -/
theorem Meets.of_discarded (h : Meets os n .discarded) :
    (after os).Gone n ∧ ∃ k ≤ maxRetries, (after os).attempts n = List.replicate k false := by
  cases h with
  | discarded before later o he ho hw =>
  obtain ⟨s, hs, rfl⟩ := hw
  obtain ⟨hg, ha⟩ := (after_sound before).gone_of_discard o ⟨s, hs, rfl⟩ ho
  rw [← after_snoc] at hg ha
  obtain ⟨hg', ha'⟩ := hg.after later
  obtain ⟨hle, hc⟩ := after_counts before s hs
  rw [he, List.append_cons]
  exact ⟨hg', _, hle, ha'.trans (ha.trans hc)⟩

/-- The fate of a message, read off the records. -/
def fate (l : Ledger) (n : Nat) : Fate :=
  if true ∈ l.attempts n then .delivered
  else if (l.attempts n).length = maxRetries + 1 then .exhausted
  else if l.Waits n then .pending
  else .discarded

theorem Meets.eq_fate {fate : Fate} (h : Meets os n fate) : fate = (after os).fate n := by
  have hfew {k : Nat} (hk : k ≤ maxRetries) : k ≠ maxRetries + 1 := by omega
  unfold Ledger.fate
  cases h with
  | delivered k hk ha => simp [ha]
  | pending s hs hn hk ha =>
    have hw : (after os).Waits n := ⟨s, hs, hn⟩
    simp [ha, hfew hk, hw]
  | exhausted ha => simp [ha]
  | discarded before later o he ho hw =>
    obtain ⟨hg, k, hk, ha⟩ := Meets.of_discarded (.discarded before later o he ho hw)
    simp [ha, hfew hk, hg.waits]

theorem meets_pending_iff : Meets os n .pending ↔ (after os).Waits n := by
  constructor
  · intro h
    cases h with
    | pending s hs hn => exact ⟨s, hs, hn⟩
  · rintro ⟨s, hs, rfl⟩
    obtain ⟨hle, hc⟩ := after_counts os s hs
    exact .pending s hs rfl hle hc

theorem Meets.sent {fate : Fate} (h : Meets os n fate) : n < (after os).sent.length := by
  by_contra hn
  have ha := (after_sound os).attempts_eq_nil (Nat.le_of_not_lt hn)
  cases h with
  | delivered k _ hd => simp [ha] at hd
  | pending s hs he => exact hn ((after_sound os).lt_of_waits ⟨s, hs, he⟩)
  | exhausted he => simp [ha] at he
  | discarded before later o he ho hw => exact hn (Meets.of_discarded (.discarded before later o he ho hw)).1.sent

/-- **Whatever does not wait is gone**, and its fate is final. -/
theorem Meets.gone {fate : Fate} (h : Meets os n fate) (hf : fate ≠ .pending) : (after os).Gone n :=
  ⟨h.sent, fun hw => hf (h.eq_fate.trans (meets_pending_iff.mpr hw).eq_fate.symm)⟩

theorem Meets.append {fate : Fate} (h : Meets os n fate) (hf : fate ≠ .pending) (later : List Channel.Occasion) :
    Meets (os ++ later) n fate := by
  have ha := ((h.gone hf).after later).2
  cases h with
  | delivered k hk hd => exact .delivered k hk (ha.trans hd)
  | pending => exact absurd rfl hf
  | exhausted he => exact .exhausted (ha.trans he)
  | discarded before rest o he ho hw => exact .discarded before (rest ++ later) o (by simp [he]) ho hw

/-- A message that waits when a use comes to send meets a fate in it. -/
theorem exists_meets_of_accept {o : Channel.Occasion} {s : Slip} (hs : s ∈ ((after os).accept o.use).waiting) :
    ∃ fate, Meets (os ++ [o]) s.number fate := by
  have h := after_sound os
  obtain ⟨hle, hc⟩ := Counts.accept h (after_counts os) o.use s hs
  have hr := after_snoc os o
  rcases h.slip_cases o hs with ⟨hw, ha⟩ | ha | ⟨ha, hw⟩ <;> rw [← after_snoc, hc] at ha
  · exact ⟨.pending, .pending s (hr ▸ hw) rfl hle ha⟩
  · exact ⟨.delivered, .delivered _ hle ha⟩
  · rw [← List.replicate_succ'] at ha
    by_cases hf : s.pending.failures < maxRetries
    · exact ⟨.pending, .pending s.failed (hr ▸ hw hf) rfl hf ha⟩
    · have hlast : s.pending.failures = maxRetries := by omega
      rw [hlast] at ha
      exact ⟨.exhausted, .exhausted ha⟩

theorem exists_meets (os : List Channel.Occasion) : ∀ n < (after os).sent.length, ∃ fate, Meets os n fate := by
  induction os using List.reverseRecOn with
  | nil => nofun
  | append_singleton os o ih =>
    intro n hn
    by_cases hw : ((after os).accept o.use).Waits n
    · obtain ⟨s, hs, rfl⟩ := hw
      exact exists_meets_of_accept hs
    · have hn' : n < (after os).sent.length := by
        rw [after_snoc] at hn
        exact sent_of_not_waits hn hw
      by_cases hb : (after os).Waits n
      · -- all that waits is dropped
        have ho : o.use = .discard := by
          by_contra ho
          exact hw (hb.accept ho)
        exact ⟨.discarded, .discarded os [] o rfl ho hb⟩
      · obtain ⟨fate, hf⟩ := ih n hn'
        have hp : fate ≠ .pending := by
          rintro rfl
          exact hb (meets_pending_iff.mp hf)
        exact ⟨fate, hf.append hp [o]⟩

/-- The channel counts the messages that wait. -/
theorem pendingCount_eq (os : List Channel.Occasion) :
    (after os).channel.pendingCount = {n | Meets os n .pending}.ncard := by
  have h := after_sound os
  have hset : {n | Meets os n .pending} = ((after os).waiting.map Slip.number).toFinset := by
    ext n
    simp [meets_pending_iff, Waits]
  have hnodup : ((after os).waiting.map Slip.number).Nodup := (List.pairwise_map.mpr h.sorted).imp Nat.ne_of_lt
  rw [hset, Set.ncard_coe_finset, List.toFinset_card_of_nodup hnodup, List.length_map, Channel.pendingCount,
    ← h.queue, List.length_map]

/-! ## The account of all messages -/

/-- **Every message has one fate.** Of the messages handed to a channel, each
one is delivered, waits, has failed six times or was dropped while it waited,
and only one of these; unless it waits, that is final, and it is never tried
again. As many wait as the channel counts. A use with an open socket tries
each message that waits when sending starts exactly once, any other use none.
The records are those of the channel and of the sockets. -/
theorem exists_unique_fate (os : List Channel.Occasion) :
    (∀ n < (after os).sent.length, ∃! fate, Meets os n fate) ∧
    (∀ n fate, Meets os n fate → fate ≠ .pending → ∀ later,
      Meets (os ++ later) n fate ∧ (after (os ++ later)).attempts n = (after os).attempts n) ∧
    (after os).channel.pendingCount = {n | Meets os n .pending}.ncard ∧
    (∀ o : Channel.Occasion, ∃ round, (after (os ++ [o])).rounds = (after os).rounds ++ [round] ∧
      sendings (o.on (after os).channel).2 = round.map (fun t => (t.text, t.delivered)) ∧
      (round.map Try.number).Nodup ∧
      round.map Try.number =
        if o.opens (after os).channel then ((after os).accept o.use).waiting.map Slip.number else []) ∧
    (after os).waiting.map Slip.pending = (after os).channel.queue ∧
    sendings (after os).calls = (after os).rounds.flatten.map (fun t => (t.text, t.delivered)) ∧
    ∀ t ∈ (after os).rounds.flatten, (after os).sent[t.number]? = some t.text := by
  have h := after_sound os
  refine ⟨fun n hn => ?unique, fun n fate hf hp later => ?final, pendingCount_eq os, fun o => ?round, h.queue,
    h.sendings, ?texts⟩
  case unique =>
    obtain ⟨fate, hf⟩ := exists_meets os n hn
    exact ⟨fate, hf, fun fate' hf' => hf'.eq_fate.trans hf.eq_fate.symm⟩
  case final =>
    exact ⟨hf.append hp later, ((hf.gone hp).after later).2⟩
  case round =>
    rw [after_snoc]
    exact h.exists_round o
  case texts =>
    intro t ht
    obtain ⟨round, hr, ht⟩ := List.mem_flatten.mp ht
    exact h.tried_texts round hr t ht

end Ledger

end FarmClient.Page
