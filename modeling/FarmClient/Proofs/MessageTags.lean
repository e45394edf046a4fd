/-
What a text says under `type`, and what that decides. A value's entries are
sorted before they are looked at, and of equal keys the last counts: sorting
changes nothing about what is found under a key (`lookup?_sortEntries`), so
the tag can be read off the entries as they stand in the text. A value without
a tag, or with one that is no kind of message, is refused as such.
-/
import Mathlib.Data.List.Induction
import FarmClient.Wire.ServerMessage

namespace FarmClient

open Json (Value)
open Wire (lookup? serverKinds)

/-! ## Entries in order -/

namespace Wire

theorem lookup?_cons (key k : String) (v : Value) (l : List (String × Value)) :
    lookup? key ((k, v) :: l) = (lookup? key l).or (if k = key then some v else none) := by
  unfold lookup?
  rw [List.reverse_cons, List.find?_append]
  cases l.reverse.find? (fun e => e.1 = key) with
  | some e => rfl
  | none => by_cases hk : k = key <;> simp [hk]

theorem lookup?_snoc (key k : String) (v : Value) (l : List (String × Value)) :
    lookup? key (l ++ [(k, v)]) = if k = key then some v else lookup? key l := by
  unfold lookup?
  rw [List.reverse_concat, List.find?_cons]
  by_cases hk : k = key <;> simp [hk]

theorem lookup?_eq_none {key : String} {l : List (String × Value)} (h : ∀ e ∈ l, e.1 ≠ key) :
    lookup? key l = none := by
  unfold lookup?
  rw [Option.map_eq_none_iff, List.find?_eq_none]
  intro e he
  simpa using h e (List.mem_reverse.mp he)

end Wire

namespace Json

/-- The keys ascend, so that none stands twice. -/
def Ascending (l : List (String × Value)) : Prop := l.Pairwise (·.1 < ·.1)

theorem mem_insertEntry {key : String} {v : Value} {l : List (String × Value)} {e : String × Value}
    (h : e ∈ insertEntry key v l) : e = (key, v) ∨ e ∈ l := by
  induction l with
  | nil => exact .inl (List.mem_singleton.mp h)
  | cons e' l ih =>
    obtain ⟨k, w⟩ := e'
    unfold insertEntry at h
    split at h
    · rcases List.mem_cons.mp h with h | h
      · exact .inl h
      · exact .inr (List.mem_cons_of_mem _ h)
    split at h
    · exact List.mem_cons.mp h
    · rcases List.mem_cons.mp h with h | h
      · exact .inr (h ▸ List.mem_cons_self)
      · exact (ih h).imp_right (List.mem_cons_of_mem _)

theorem Ascending.insertEntry {key : String} {v : Value} {l : List (String × Value)} (h : Ascending l) :
    Ascending (insertEntry key v l) := by
  induction l with
  | nil => exact List.pairwise_singleton _ _
  | cons e l ih =>
    obtain ⟨k, w⟩ := e
    obtain ⟨hk, hl⟩ := List.pairwise_cons.mp h
    unfold Json.insertEntry
    split
    · next he => exact List.pairwise_cons.mpr ⟨fun e he' => he ▸ hk e he', hl⟩
    split
    · next hlt =>
      refine List.pairwise_cons.mpr ⟨fun e he => ?_, h⟩
      rcases List.mem_cons.mp he with rfl | he
      · exact hlt
      · exact String.lt_trans hlt (hk e he)
    · next hne hge =>
      refine List.pairwise_cons.mpr ⟨fun e he => ?_, ih hl⟩
      rcases mem_insertEntry he with rfl | he
      · exact String.not_le.mp fun hle => hne (String.le_antisymm hle (String.not_lt.mp hge))
      · exact hk e he

/-- What stands under a key once an entry has been put in. -/
theorem lookup?_insertEntry {key k : String} {v : Value} {l : List (String × Value)} (h : Ascending l) :
    lookup? key (insertEntry k v l) = if k = key then some v else lookup? key l := by
  induction l with
  | nil => exact Wire.lookup?_snoc key k v []
  | cons e l ih =>
    obtain ⟨k', w⟩ := e
    obtain ⟨hk, hl⟩ := List.pairwise_cons.mp h
    have hrest (hle : k = k' ∨ k < k') : lookup? k l = none := Wire.lookup?_eq_none fun e he heq => by
      have hlt : k' < k := heq ▸ hk e he
      rcases hle with rfl | hle
      · exact String.lt_irrefl _ hlt
      · exact String.lt_irrefl _ (String.lt_trans hle hlt)
    unfold insertEntry
    split
    · next he =>
      by_cases hkey : k = key
      · subst hkey
        simp [Wire.lookup?_cons, hrest (.inl he)]
      · simp [Wire.lookup?_cons, hkey, ← he]
    split
    · next hne hlt =>
      by_cases hkey : k = key
      · subst hkey
        simp [Wire.lookup?_cons, hrest (.inr hlt), Ne.symm hne]
      · simp [Wire.lookup?_cons, hkey]
    · next hne _ =>
      rw [Wire.lookup?_cons, ih hl, Wire.lookup?_cons]
      by_cases hkey : k = key
      · simp [hkey]
      · simp [hkey]

theorem sortEntries_snoc (l : List (String × Value)) (e : String × Value) :
    sortEntries (l ++ [e]) = insertEntry e.1 e.2 (sortEntries l) := by
  rw [sortEntries, List.foldl_append]
  rfl

theorem sortEntries_ascending (l : List (String × Value)) : Ascending (sortEntries l) := by
  induction l using List.reverseRecOn with
  | nil => exact .nil
  | append_singleton l e ih =>
    rw [sortEntries_snoc]
    exact ih.insertEntry

/-- **Sorting changes nothing** about what stands under a key. -/
theorem lookup?_sortEntries (key : String) (l : List (String × Value)) :
    lookup? key (sortEntries l) = lookup? key l := by
  induction l using List.reverseRecOn with
  | nil => rfl
  | append_singleton l e ih =>
    rw [sortEntries_snoc, lookup?_insertEntry (sortEntries_ascending l), Wire.lookup?_snoc, ih]

theorem lookup?_canonicalEntries (key : String) (l : List (String × Value)) :
    lookup? key (Value.canonicalEntries l) = (lookup? key l).map Value.canonical := by
  induction l with
  | nil => rfl
  | cons e l ih =>
    obtain ⟨k, v⟩ := e
    rw [Value.canonicalEntries, Wire.lookup?_cons, Wire.lookup?_cons, ih]
    cases lookup? key l with
    | some w => rfl
    | none => by_cases hk : k = key <;> simp [hk]

/-- The text under `type` in an object. -/
def Value.tag? : Value → Option String
  | .object entries =>
    match lookup? "type" entries with
    | some (.string kind) => some kind
    | _ => none
  | _ => none

theorem Value.tag?_eq_some_iff {v : Value} {kind : String} :
    v.tag? = some kind ↔ ∃ entries, v = .object entries ∧ lookup? "type" entries = some (.string kind) := by
  cases v with
  | object entries =>
    simp only [Value.tag?, Value.object.injEq, exists_eq_left']
    cases lookup? "type" entries with
    | none => simp
    | some w => cases w <;> simp
  | _ => simp [Value.tag?]

theorem Value.tag?_canonical (v : Value) : v.canonical.tag? = v.tag? := by
  cases v with
  | object entries =>
    have hl : lookup? "type" (sortEntries (Value.canonicalEntries entries)) =
        (lookup? "type" entries).map Value.canonical := by
      rw [lookup?_sortEntries, lookup?_canonicalEntries]
    simp only [Value.canonical, Value.tag?, hl]
    cases lookup? "type" entries with
    | none => rfl
    | some w => cases w <;> rfl
  | _ => rfl

end Json

/-! ## What the tag decides -/

theorem Wire.get_of_nameIndex? {names : List String} {name : String} {i : Fin names.length}
    (h : nameIndex? names name = some i) : names.get i = name := by
  have hi := List.find?_some h
  simpa using hi

theorem Wire.nameIndex?_eq_none_iff {names : List String} {name : String} :
    nameIndex? names name = none ↔ name ∉ names := by
  constructor
  · intro h hm
    obtain ⟨i, hi⟩ := List.get_of_mem hm
    have hn := List.find?_eq_none.mp h i (List.mem_finRange i)
    exact hn (by simpa using hi)
  · intro h
    cases hn : nameIndex? names name with
    | none => rfl
    | some i => exact absurd (get_of_nameIndex? hn ▸ List.get_mem names i) h

theorem exists_of_map_eq_ok {ε α β : Type} {f : α → β} {x : Except ε α} {y : β} (h : x.map f = .ok y) :
    ∃ a, f a = y := by
  cases x with
  | error e => cases h
  | ok a => exact ⟨a, Except.ok.inj h⟩

/-- A message that is read as one of a kind is of that kind. -/
theorem Wire.kind_of_serverMessageOf {i : Fin serverKinds.length} {es : List (String × Value)} {m : ServerMessage}
    (h : serverMessageOf i es = .ok m) : m.kind = serverKinds.get i := by
  match i with
  | ⟨0, _⟩ | ⟨1, _⟩ | ⟨2, _⟩ | ⟨3, _⟩ =>
    obtain ⟨x, rfl⟩ := exists_of_map_eq_ok h
    rfl

namespace ServerMessage

variable {v : Value} {kind : String}

theorem ofValue_of_untagged (h : v.tag? = none) : ofValue v = .error .missingType := by
  rw [← Json.Value.tag?_canonical] at h
  unfold ofValue
  cases hc : v.canonical with
  | object entries =>
    rw [hc, Value.tag?] at h
    cases hl : lookup? "type" entries with
    | none => simp only [hl]
    | some w =>
      rw [hl] at h
      cases w with
      | string s => cases h
      | _ => simp only [hl]
  | _ => rfl

theorem ofValue_of_unknown (h : v.tag? = some kind) (hk : kind ∉ serverKinds) :
    ofValue v = .error (.unknownType kind) := by
  rw [← Json.Value.tag?_canonical] at h
  obtain ⟨entries, hc, hl⟩ := Json.Value.tag?_eq_some_iff.mp h
  simp only [ofValue, hc, hl, Wire.nameIndex?_eq_none_iff.mpr hk]

end ServerMessage

end FarmClient
