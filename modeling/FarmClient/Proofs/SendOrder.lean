/-
The order in which messages reach the sockets. What waits is tried in the order
of sending. A message that fails waits for the next use of the channel, but the
use goes on to the messages behind it, and if it delivers one of them the order
is lost once the message that failed is delivered too. Nothing else changes the
order (`delivered_in_order_iff`): not sockets that are exchanged or close, not
messages that are dropped, and not failures as long as no sending succeeds
after one in the same use (`deliveries_sublist_of_lasting`).
-/
import Mathlib.Data.List.Sort
import FarmClient.Proofs.SendLedger

namespace FarmClient.Page

open scoped List

theorem mem_arrivals {round : List Try} {n : Nat} :
    n ∈ arrivals round ↔ ∃ t ∈ round, t.delivered = true ∧ t.number = n := by
  simp [arrivals, Option.ite_none_right_eq_some]

theorem arrivals_sorted {round : List Try} (h : round.Pairwise (·.number < ·.number)) :
    (arrivals round).Pairwise (· < ·) := by
  refine h.filterMap _ fun t t' hlt n hn n' hn' => ?_
  simp only [Option.ite_none_right_eq_some, Option.some.injEq] at hn hn'
  obtain ⟨-, rfl⟩ := hn
  obtain ⟨-, rfl⟩ := hn'
  exact hlt

/-- In a round, what has the smaller number stands first. -/
theorem pair_sublist {round : List Try} (h : round.Pairwise (·.number < ·.number)) {t t' : Try} (ht : t ∈ round)
    (ht' : t' ∈ round) (hlt : t.number < t'.number) : [t, t'] <+ round := by
  obtain ⟨before, after, rfl⟩ := List.append_of_mem ht
  obtain ⟨-, -, hb⟩ := List.pairwise_append.mp h
  rcases List.mem_append.mp ht' with hm | hm
  · have := hb t' hm t List.mem_cons_self
    omega
  · rcases List.mem_cons.mp hm with rfl | hm
    · omega
    · exact ((List.singleton_sublist.mpr hm).cons_cons t).trans (List.sublist_append_right before _)

/-- Once a sending fails in such a use, all that follow in it fail too. -/
def Channel.Occasion.Lasting (o : Channel.Occasion) : Prop :=
  ∀ i j, i < j → o.luck i = false → o.luck j = false

namespace Ledger

/-- A message fails in a use that goes on to deliver a later one, and is
delivered in a use after that. -/
def Overtaken (l : Ledger) : Prop :=
  ∃ round later, [round, later] <+ l.rounds ∧ ∃ t t', [t, t'] <+ round ∧ t.delivered = false ∧ t'.delivered = true ∧
    t.number ∈ arrivals later

theorem Orderly.delivered_nodup {l : Ledger} (h : l.Orderly) : l.delivered.Nodup := by
  refine List.pairwise_flatMap.mpr ⟨fun round hr => ?_, h.rounds_leave.imp fun {round later} hl n hn m hm => ?_⟩
  · exact (arrivals_sorted (h.rounds_sorted round hr)).imp Nat.ne_of_lt
  · rintro rfl
    obtain ⟨t, ht, hd, hn⟩ := mem_arrivals.mp hn
    obtain ⟨t', ht', -, hm⟩ := mem_arrivals.mp hm
    have := (hl t' ht').failed t ht (hn.trans hm.symm)
    rw [hd] at this
    cases this

theorem Orderly.delivered_sorted_iff {l : Ledger} (h : l.Orderly) :
    l.delivered.Pairwise (· < ·) ↔ ¬ l.Overtaken := by
  unfold delivered
  rw [List.pairwise_flatMap]
  constructor
  · rintro ⟨-, hp⟩ ⟨round, later, hs, t, t', ht, hf, hd, hn⟩
    have hr : round ∈ l.rounds := hs.subset List.mem_cons_self
    have hlt : t.number < t'.number := List.pairwise_iff_forall_sublist.mp (h.rounds_sorted round hr) ht
    have ht' : t'.number ∈ arrivals round := mem_arrivals.mpr ⟨t', ht.subset (by simp), hd, rfl⟩
    have := List.pairwise_iff_forall_sublist.mp hp hs t'.number ht' t.number hn
    omega
  · intro hno
    refine ⟨fun round hr => arrivals_sorted (h.rounds_sorted round hr), ?_⟩
    refine List.pairwise_iff_forall_sublist.mpr fun {round later} hs n hn m hm => Nat.lt_of_not_le fun hle => hno ?_
    have hr : round ∈ l.rounds := hs.subset List.mem_cons_self
    obtain ⟨t', ht', hd, rfl⟩ := mem_arrivals.mp hn
    obtain ⟨t₂, ht₂, -, rfl⟩ := mem_arrivals.mp hm
    -- the later round still has the message, so the earlier one tried it in vain
    have hl : Leaves round t₂.number := List.pairwise_iff_forall_sublist.mp h.rounds_leave hs t₂ ht₂
    rcases Nat.eq_or_lt_of_le hle with he | hlt
    · have := hl.failed t' ht' he.symm
      rw [hd] at this
      cases this
    · obtain ⟨t, ht, hn⟩ := hl.tried t' ht' hlt
      refine ⟨round, later, hs, t, t', ?_, hl.failed t ht hn, hd, hn ▸ hm⟩
      exact pair_sublist (h.rounds_sorted round hr) ht ht' (hn ▸ hlt)

/-- What was given to a socket are the texts of the messages that count as delivered. -/
theorem Orderly.deliveries_eq {l : Ledger} (h : l.Orderly) :
    l.deliveries.map some = l.delivered.map (l.sent[·]?) := by
  have texts : ∀ t ∈ l.rounds.flatten, l.sent[t.number]? = some t.text := fun t ht => by
    obtain ⟨round, hr, ht⟩ := List.mem_flatten.mp ht
    exact h.tried_texts round hr t ht
  have hd : l.delivered = l.rounds.flatten.filterMap fun t => if t.delivered then some t.number else none := by
    rw [List.filterMap_flatten]
    rfl
  rw [deliveries, h.sendings, List.filterMap_map, hd, List.map_filterMap, List.map_filterMap]
  refine List.filterMap_congr fun t ht => ?_
  cases hb : t.delivered <;> simp [hb, texts t ht]

theorem Orderly.deliveries_sublist {l : Ledger} (h : l.Orderly) (hs : l.delivered.Pairwise (· < ·)) :
    l.deliveries <+ l.sent := by
  have hmem : l.delivered ⊆ List.range l.sent.length := fun n hn => by
    obtain ⟨round, hr, hn⟩ := List.mem_flatMap.mp hn
    obtain ⟨t, ht, -, rfl⟩ := mem_arrivals.mp hn
    exact List.mem_range.mpr (lt_of_getElem?_eq (h.tried_texts round hr t ht))
  have hsub : l.delivered <+ List.range l.sent.length :=
    List.sublist_of_subperm_of_pairwise (List.subperm_of_subset h.delivered_nodup hmem) (hs.imp Nat.le_of_lt)
      (List.pairwise_lt_range.imp Nat.le_of_lt)
  have hrange : (List.range l.sent.length).map (l.sent[·]?) = l.sent.map some := by
    refine List.ext_getElem (by simp) fun i hi hi' => ?_
    simp
  have := hsub.map (l.sent[·]?)
  rw [hrange, ← h.deliveries_eq] at this
  simpa using this.filterMap id

/-! ## Failures that last -/

/-- How a round comes out is the luck of its use. -/
theorem Sound.record_rounds {l : Ledger} (h : l.Sound) (o : Channel.Occasion) :
    ∃ round n, (l.record o).rounds = l.rounds ++ [round] ∧
      round.map Try.delivered = Channel.outcomes o.luck n := by
  obtain ⟨htried, -⟩ := h.tried_eq o
  refine ⟨((l.accept o.use).tried (o.on l.channel).2).map Try.of, o.reach l.channel, ?_, ?_⟩
  · rw [← accept_rounds l o.use]
    rfl
  · rw [htried, List.map_map]
    exact List.map_snd_zip (by simpa using reach_le h o)

theorem rounds_lasting {os : List Channel.Occasion} (h : ∀ o ∈ os, o.Lasting) :
    ∀ round ∈ (after os).rounds, round.Pairwise fun t t' => t.delivered = false → t'.delivered = false := by
  induction os using List.reverseRecOn with
  | nil => nofun
  | append_singleton os o ih =>
    obtain ⟨new, n, hr, hn⟩ := (after_sound os).record_rounds o
    intro round hm
    rw [after_snoc, hr, List.mem_append, List.mem_singleton] at hm
    rcases hm with hm | rfl
    · exact ih (fun o ho => h o (List.mem_append_left _ ho)) round hm
    · rw [← List.pairwise_map (f := Try.delivered) (R := fun b b' => b = false → b' = false), hn]
      exact List.pairwise_map.mpr (List.pairwise_lt_range.imp fun {i j} hij => h o (by simp) i j hij)

/-- **If failures last as long as a use, the order is kept.** -/
theorem deliveries_sublist_of_lasting {os : List Channel.Occasion} (h : ∀ o ∈ os, o.Lasting) :
    (after os).deliveries <+ (after os).sent := by
  have ho := (after_sound os).toOrderly
  refine ho.deliveries_sublist (ho.delivered_sorted_iff.mpr ?_)
  rintro ⟨round, later, hs, t, t', ht, hf, hd, -⟩
  have := List.pairwise_iff_forall_sublist.mp (rounds_lasting h round (hs.subset List.mem_cons_self)) ht hf
  rw [hd] at this
  cases this

/-! ## The order of all that is delivered -/

/-- **When messages are delivered in the order of sending.** The ledger agrees
with what waits and with what the sockets were asked to send. By it, each
message is delivered once at most, and they come in order exactly if none is
overtaken. -/
theorem delivered_in_order_iff (os : List Channel.Occasion) :
    (after os).waiting.map Slip.pending = (after os).channel.queue ∧
    sendings (after os).calls = (after os).rounds.flatten.map (fun t => (t.text, t.delivered)) ∧
    (after os).deliveries.map some = (after os).delivered.map ((after os).sent[·]?) ∧
    (after os).delivered.Nodup ∧
    ((after os).delivered.Pairwise (· < ·) ↔ ¬ (after os).Overtaken) ∧
    (¬ (after os).Overtaken → (after os).deliveries <+ (after os).sent) := by
  obtain ⟨h, hq⟩ := after_sound os
  refine ⟨hq, h.sendings, h.deliveries_eq, h.delivered_nodup, h.delivered_sorted_iff, fun hno => ?_⟩
  exact h.deliveries_sublist (h.delivered_sorted_iff.mpr hno)

/-- A start waits, then an abort. On a new socket the start fails and the abort
succeeds, and the next flush sends the start. -/
def abortFirst : List Channel.Occasion :=
  [⟨.send (.start .autoStep "a()"), [], fun _ => true⟩, ⟨.send .abort, [], fun _ => true⟩,
    ⟨.install 0, [.opened], fun i => i ≠ 0⟩, ⟨.flush, [.opened], fun _ => true⟩]

/-- The order is not always kept. -/
theorem not_forall_deliveries_sublist :
    ¬ ∀ os : List Channel.Occasion, (after os).deliveries <+ (after os).sent := by
  intro h
  have hs : (after abortFirst).sent =
      [(ClientMessage.start .autoStep "a()").toJson, ClientMessage.abort.toJson] := rfl
  have hd : (after abortFirst).deliveries =
      [ClientMessage.abort.toJson, (ClientMessage.start .autoStep "a()").toJson] := by decide +kernel
  have := h abortFirst
  rw [hs, hd] at this
  exact absurd this (by decide +kernel)

end Ledger

end FarmClient.Page
