/-
JSON as a grammar: which texts stand for a value, however its blanks, strings
and numbers are spelt (`Spells`). The reader finds the value of every such
text, unless it is nested too deep, and reads no other text
(`Value.read_eq_ok_iff`); what is read from a part of a text does not depend
on what stands before it.
-/
import FarmClient.Proofs.JsonTokens

namespace FarmClient.Json

/-! ## The grammar -/

mutual

/-- A value, with blanks before it. -/
inductive ValueText : List Char → Value → Prop
  | blank {c t v} : isSpace c = true → ValueText t v → ValueText (c :: t) v
  | null : ValueText "null".toList .null
  | isTrue : ValueText "true".toList (.bool true)
  | isFalse : ValueText "false".toList (.bool false)
  | number {t n x} : NumeralText false t n → n.value = .ok x → ValueText t (.number x)
  | negative {t n x} : NumeralText true t n → n.value = .ok x → ValueText ('-' :: t) (.number x)
  | string {t s} : StringText t s → ValueText ('"' :: (t ++ ['"'])) (.string (String.ofList s))
  | array {t vs} : ItemsText true t vs → ValueText ('[' :: t) (.array vs)
  | object {t es} : EntriesText true t es → ValueText ('\x7b' :: t) (.object es)

/-- What follows in an array, `first` if nothing of it stands before. -/
inductive ItemsText : Bool → List Char → List Value → Prop
  | close {first b} : Blank b → ItemsText first (b ++ [']']) []
  | first {t r v vs} : ValueText t v → ItemsText false r vs → ItemsText true (t ++ r) (v :: vs)
  | next {b t r v vs} : Blank b → ValueText t v → ItemsText false r vs →
      ItemsText false (b ++ ',' :: (t ++ r)) (v :: vs)

/-- What follows in an object, `first` if nothing of it stands before. -/
inductive EntriesText : Bool → List Char → List (String × Value) → Prop
  | close {first b} : Blank b → EntriesText first (b ++ ['\x7d']) []
  | first {b t es} : Blank b → EntryText t es → EntriesText true (b ++ '"' :: t) es
  | next {b c t es} : Blank b → Blank c → EntryText t es → EntriesText false (b ++ ',' :: (c ++ '"' :: t)) es

/-- An entry after its opening quote, and what follows it. -/
inductive EntryText : List Char → List (String × Value) → Prop
  | mk {k s b t v r es} : StringText k s → Blank b → ValueText t v → EntriesText false r es →
      EntryText (k ++ '"' :: (b ++ ':' :: (t ++ r))) ((String.ofList s, v) :: es)

end

/-- A whole text for a value. -/
def Spells (text : List Char) (v : Value) : Prop := ∃ t b, text = t ++ b ∧ ValueText t v ∧ Blank b

mutual

/-- How many containers are opened around each other. -/
def Value.depth : Value → Nat
  | .array items => depthItems items + 1
  | .object entries => depthEntries entries + 1
  | _ => 0

def Value.depthItems : List Value → Nat
  | [] => 0
  | v :: vs => max v.depth (depthItems vs)

def Value.depthEntries : List (String × Value) → Nat
  | [] => 0
  | (_, v) :: es => max v.depth (depthEntries es)

end

theorem ValueText.pad {b t : List Char} {v : Value} (hb : Blank b) (h : ValueText t v) : ValueText (b ++ t) v := by
  induction b with
  | nil => exact h
  | cons c b ih => exact .blank (hb c (by simp)) (ih fun d hd => hb d (by simp [hd]))

theorem Blank.append_cons_stops {b rest : List Char} {c : Char} (hb : Blank b) (hc : c = ',' ∨ c = ']' ∨ c = '\x7d') :
    Stops (b ++ c :: rest) := by
  intro d hd
  cases b with
  | nil =>
    cases hd
    exact .inr hc
  | cons e b =>
    cases hd
    exact .inl (hb _ (by simp))

theorem Blank.stops {b : List Char} (hb : Blank b) : Stops b :=
  fun c hc => .inl (hb c (List.mem_of_mem_head? hc))

theorem ItemsText.stops {t : List Char} {vs : List Value} (h : ItemsText false t vs) (rest : List Char) :
    Stops (t ++ rest) := by
  cases h with
  | close hb => simpa using hb.append_cons_stops (.inr (.inl rfl))
  | next hb _ _ => simpa using hb.append_cons_stops (.inl rfl)

theorem EntriesText.stops {t : List Char} {es : List (String × Value)} (h : EntriesText false t es)
    (rest : List Char) : Stops (t ++ rest) := by
  cases h with
  | close hb => simpa using hb.append_cons_stops (.inr (.inr rfl))
  | next hb _ _ => simpa using hb.append_cons_stops (.inl rfl)

/-! ## What a tree means -/

mutual

/-- The value of a tree that is not broken anywhere. -/
inductive Tree.Means : Tree → Value → Prop
  | null {stop} : Tree.Means (.null stop) .null
  | bool {b start stop} : Tree.Means (.bool b start stop) (.bool b)
  | number {x start stop} : Tree.Means (.number (.ok x) start stop) (.number x)
  | string {s stop} : Tree.Means (.string (.ok s) stop) (.string s)
  | array {start items vs} : Items.Means items vs → Tree.Means (.array start items) (.array vs)
  | object {start entries es} : Entries.Means entries es → Tree.Means (.object start entries) (.object es)

inductive Items.Means : Items → List Value → Prop
  | close {stop} : Items.Means (.close stop) []
  | item {start t v items vs} : Tree.Means t v → Items.Means items vs → Items.Means (.item start t items) (v :: vs)

inductive Entries.Means : Entries → List (String × Value) → Prop
  | close {stop} : Entries.Means (.close stop) []
  | entry {start k settled t v entries es} : Tree.Means t v → Entries.Means entries es →
      Entries.Means (.entry start (.ok k) settled t entries) ((k, v) :: es)

end

mutual

theorem Tree.Means.value : ∀ {t v}, Tree.Means t v → ∀ {d}, v.depth < d → t.value d = .ok v
  | _, _, .null, _, _ => rfl
  | _, _, .bool, _, _ => rfl
  | _, _, .number, _, _ => rfl
  | _, _, .string, _, _ => rfl
  | _, _, .array h, d, hd => by
    simp only [Value.depth] at hd
    have hd' : ¬ d ≤ 1 := by omega
    simp [Tree.value, hd', h.values (d := d - 1) (by omega), Except.map]
  | _, _, .object h, d, hd => by
    simp only [Value.depth] at hd
    have hd' : ¬ d ≤ 1 := by omega
    simp [Tree.value, hd', h.values (d := d - 1) (by omega), Except.map]

theorem Items.Means.values : ∀ {items vs}, Items.Means items vs → ∀ {d}, Value.depthItems vs < d →
    items.values d = .ok vs
  | _, _, .close, _, _ => rfl
  | _, _, .item hv hvs, d, hd => by
    simp only [Value.depthItems, Nat.max_lt] at hd
    simp [Items.values, hv.value hd.1, hvs.values hd.2, bind, Except.bind, pure, Except.pure]

theorem Entries.Means.values : ∀ {entries es}, Entries.Means entries es → ∀ {d}, Value.depthEntries es < d →
    entries.values d = .ok es
  | _, _, .close, _, _ => rfl
  | _, _, .entry hv hes, d, hd => by
    simp only [Value.depthEntries, Nat.max_lt] at hd
    simp [Entries.values, hv.value hd.1, hes.values hd.2, bind, Except.bind, pure, Except.pure]

end

mutual

/-- What is whole can be passed over. -/
theorem Tree.Means.skip : ∀ {t v}, Tree.Means t v → t.skip = .ok ()
  | _, _, .null | _, _, .bool | _, _, .number | _, _, .string => rfl
  | _, _, .array h => h.skip
  | _, _, .object h => h.skip

theorem Items.Means.skip : ∀ {items vs}, Items.Means items vs → items.skip = .ok ()
  | _, _, .close => rfl
  | _, _, .item hv hvs => by rw [Items.skip, hv.skip, hvs.skip]; rfl

theorem Entries.Means.skip : ∀ {entries es}, Entries.Means entries es → entries.skip = .ok ()
  | _, _, .close => rfl
  | _, _, .entry hv hes => by rw [Entries.skip, hv.skip, hes.skip]; rfl

end

theorem exists_ok_of_bind {ε α β : Type} {x : Except ε α} {f : α → Except ε β} {b : β} (h : x >>= f = .ok b) :
    ∃ a, x = .ok a ∧ f a = .ok b := by
  cases x with
  | error e => cases h
  | ok a => exact ⟨a, rfl, h⟩

theorem exists_ok_of_map {ε α β : Type} {x : Except ε α} {f : α → β} {b : β} (h : x.map f = .ok b) :
    ∃ a, x = .ok a ∧ f a = b := by
  cases x with
  | error e => cases h
  | ok a => exact ⟨a, rfl, Except.ok.inj h⟩

mutual

theorem Tree.means_of_value : ∀ {t : Tree} {d : Nat} {v : Value}, t.value d = .ok v → 0 < d →
    t.Means v ∧ v.depth < d
  | .null _, _, _, h, hd => by cases h; exact ⟨.null, hd⟩
  | .bool _ _ _, _, _, h, hd => by cases h; exact ⟨.bool, hd⟩
  | .number (.ok _) _ _, _, _, h, hd => by cases h; exact ⟨.number, hd⟩
  | .string (.ok _) _, _, _, h, hd => by cases h; exact ⟨.string, hd⟩
  | .array _ items, d, _, h, _ => by
    rw [Tree.value] at h
    split at h
    · cases h
    · obtain ⟨vs, hvs, rfl⟩ := exists_ok_of_map h
      obtain ⟨hm, hdep⟩ := Items.means_of_values hvs (by omega)
      exact ⟨.array hm, by simp only [Value.depth]; omega⟩
  | .object _ entries, d, _, h, _ => by
    rw [Tree.value] at h
    split at h
    · cases h
    · obtain ⟨es, hes, rfl⟩ := exists_ok_of_map h
      obtain ⟨hm, hdep⟩ := Entries.means_of_values hes (by omega)
      exact ⟨.object hm, by simp only [Value.depth]; omega⟩
  | .number (.error _) _ _, _, _, h, _ | .string (.error _) _, _, _, h, _ | .broken _ _, _, _, h, _ => by cases h

theorem Items.means_of_values : ∀ {items : Items} {d : Nat} {vs : List Value}, items.values d = .ok vs → 0 < d →
    items.Means vs ∧ Value.depthItems vs < d
  | .close _, _, _, h, hd => by cases h; exact ⟨.close, hd⟩
  | .item _ t items, d, _, h, hd => by
    rw [Items.values] at h
    obtain ⟨v, hv, h⟩ := exists_ok_of_bind h
    obtain ⟨vs, hvs, h⟩ := exists_ok_of_bind h
    cases h
    obtain ⟨hv, hdv⟩ := Tree.means_of_value hv hd
    obtain ⟨hvs, hdvs⟩ := Items.means_of_values hvs hd
    exact ⟨.item hv hvs, Nat.max_lt.mpr ⟨hdv, hdvs⟩⟩
  | .broken _, _, _, h, _ => by cases h

theorem Entries.means_of_values : ∀ {entries : Entries} {d : Nat} {es : List (String × Value)},
    entries.values d = .ok es → 0 < d → entries.Means es ∧ Value.depthEntries es < d
  | .close _, _, _, h, hd => by cases h; exact ⟨.close, hd⟩
  | .entry _ (.ok k) _ t entries, d, _, h, hd => by
    rw [Entries.values] at h
    obtain ⟨_, ⟨⟩, h⟩ := exists_ok_of_bind h
    obtain ⟨v, hv, h⟩ := exists_ok_of_bind h
    obtain ⟨es, hes, h⟩ := exists_ok_of_bind h
    cases h
    obtain ⟨hv, hdv⟩ := Tree.means_of_value hv hd
    obtain ⟨hes, hdes⟩ := Entries.means_of_values hes hd
    exact ⟨.entry hv hes, Nat.max_lt.mpr ⟨hdv, hdes⟩⟩
  | .entry _ (.error _) _ _ _, _, _, h, _ | .broken _ _ _, _, _, h, _ => by cases h

end

/-- Keeping a value takes room for its containers, and nothing else. -/
theorem Tree.value_eq_ok_iff {t : Tree} {v : Value} {d : Nat} (hd : 0 < d) :
    t.value d = .ok v ↔ t.Means v ∧ v.depth < d :=
  ⟨fun h => means_of_value h hd, fun h => h.1.value h.2⟩

/-! ## What the reader does at each first character -/

theorem skipSpace_idem {cs rest : List Char} {pos stop : Nat} (h : skipSpace cs pos = (rest, stop)) :
    skipSpace rest stop = (rest, stop) := by
  induction cs generalizing pos with
  | nil => cases h; rfl
  | cons c cs ih =>
    simp only [skipSpace] at h
    split at h
    · exact ih h
    · next hs =>
      cases h
      simp [skipSpace, hs]

theorem readValue_skipSpace {cs rest : List Char} {pos stop n : Nat} (h : skipSpace cs pos = (rest, stop))
    (hn : 0 < n) : readValue n rest stop = readValue n cs pos := by
  obtain ⟨n, rfl⟩ : ∃ m, n = m + 1 := ⟨n - 1, by omega⟩
  rw [readValue.eq_def, readValue.eq_def (n + 1) cs]
  simp only [h, skipSpace_idem h]

theorem isDigit_ne {c : Char} (h : c.isDigit = true) :
    isSpace c = false ∧ c ≠ '"' ∧ c ≠ '[' ∧ c ≠ '\x7b' ∧ c ≠ '-' ∧ c ≠ ']' := by
  refine ⟨?_, ?_, ?_, ?_, ?_, ?_⟩
  · cases hs : isSpace c with
    | false => rfl
    | true =>
      simp only [isSpace, Bool.or_eq_true, decide_eq_true_eq] at hs
      rcases hs with ((rfl | rfl) | rfl) | rfl <;> simp at h
  all_goals
    rintro rfl
    simp at h

theorem NumeralText.exists_cons {negative : Bool} {t : List Char} {n : Numeral} (h : NumeralText negative t n) :
    ∃ d ds, t = d :: ds ∧ d.isDigit = true := by
  obtain @⟨w, f, fs, x, e, hw, -, -⟩ := h
  cases hw with
  | zero => exact ⟨'0', f ++ x, rfl, by decide⟩
  | @digits c ds _ hd => exact ⟨c, ds ++ (f ++ x), rfl, hd.isDigit c (by simp)⟩

section

variable (n : Nat) (cs : List Char) (pos : Nat)

theorem readValue_string {text : Except Fault String} {rest : List Char} {stop : Nat}
    (h : scanString (cs.length + 1) none [] cs (pos + 1) = .closed text rest stop) :
    readValue (n + 1) ('"' :: cs) pos = (.string text stop, rest, stop) := by
  simp [readValue, skipSpace, isSpace, h]

theorem readValue_array : readValue (n + 1) ('[' :: cs) pos =
    let (items, rest, stop) := readItems n true cs (pos + 1)
    (.array pos items, rest, stop) := by
  simp [readValue, skipSpace, isSpace]

theorem readValue_object : readValue (n + 1) ('\x7b' :: cs) pos =
    let (entries, rest, stop) := readEntries n true cs (pos + 1)
    (.object pos entries, rest, stop) := by
  simp [readValue, skipSpace, isSpace]

theorem readValue_minus : readValue (n + 1) ('-' :: cs) pos = readNumber true pos cs (pos + 1) := by
  simp [readValue, skipSpace, isSpace]

theorem readValue_digit {c : Char} (hc : c.isDigit = true) :
    readValue (n + 1) (c :: cs) pos = readNumber false pos (c :: cs) pos := by
  obtain ⟨hs, hq, hl, hb, hm, -⟩ := isDigit_ne hc
  simp [readValue, skipSpace, hs, hq, hl, hb, hm, hc]

end

/-! ## Every text of the grammar is read -/

/-- The first character of a value is a blank before it or its own. -/
theorem ValueText.head {c : Char} {t : List Char} {v : Value} (h : ValueText (c :: t) v) :
    isSpace c = true ∧ ValueText t v ∨ isSpace c = false ∧ c ≠ ']' := by
  generalize hs : c :: t = s at h
  cases h with
  | blank hc h =>
    cases hs
    exact .inl ⟨hc, h⟩
  | number hn _ =>
    obtain ⟨d, ds, rfl, hd⟩ := hn.exists_cons
    obtain ⟨hspace, -, -, -, -, hne⟩ := isDigit_ne hd
    cases hs
    exact .inr ⟨hspace, hne⟩
  | _ =>
    obtain ⟨rfl, -⟩ := List.cons.inj hs
    exact .inr ⟨by decide, by decide⟩

theorem ValueText.length_pos {t : List Char} {v : Value} (h : ValueText t v) : 0 < t.length := by
  cases h with
  | number hn _ =>
    obtain ⟨d, ds, rfl, -⟩ := hn.exists_cons
    simp
  | _ => simp

/-- What stands first after the blanks before a value. -/
theorem ValueText.lead {t : List Char} {v : Value} (h : ValueText t v) (rest : List Char) (pos : Nat) :
    ∃ c cs stop, skipSpace (t ++ rest) pos = (c :: cs, stop) ∧ c ≠ ']' := by
  induction t generalizing pos with
  | nil => cases Nat.lt_irrefl 0 h.length_pos
  | cons c t ih =>
    rcases h.head with ⟨hc, h⟩ | ⟨hc, hne⟩
    · simpa [skipSpace, hc] using ih h (pos + 1)
    · exact ⟨c, t ++ rest, pos, by simp [skipSpace, hc], hne⟩

theorem ItemsText.length_pos {first : Bool} {t : List Char} {vs : List Value} (h : ItemsText first t vs) :
    0 < t.length := by
  cases h with
  | close _ => simp
  | first hv _ =>
    rw [List.length_append]
    exact Nat.add_pos_left hv.length_pos _
  | next _ _ _ => simp only [List.length_append, List.length_cons]; omega

theorem EntriesText.length_pos {first : Bool} {t : List Char} {es : List (String × Value)}
    (h : EntriesText first t es) : 0 < t.length := by
  cases h <;> simp only [List.length_append, List.length_cons] <;> omega

theorem readNumber_complete {negative : Bool} {t rest : List Char} {n : Numeral} {x : Number}
    (h : NumeralText negative t n) (hx : n.value = .ok x) (hr : Stops rest) (start pos : Nat) :
    ∃ tree stop, readNumber negative start (t ++ rest) pos = (tree, rest, stop) ∧ tree.Means (.number x) := by
  obtain ⟨stop, hs⟩ := scanNumeral_complete h hr pos
  exact ⟨.number (.ok x) start stop, stop, by simp [readNumber, hs, hx], .number⟩

theorem readWord_complete (word : String) (value : Nat → Tree) (lead : Option Nat) (rest : List Char) (pos : Nat) :
    ∃ stop, readWord word value lead (word.toList ++ rest) pos = (value stop, rest, stop) := by
  obtain ⟨stop, hs⟩ := scanWord_complete word.toList rest pos
  exact ⟨stop, by simp only [readWord, hs]⟩

mutual

theorem ValueText.complete : ∀ {t v}, ValueText t v → ∀ {n}, t.length ≤ n → ∀ {rest}, Stops rest → ∀ pos,
    ∃ tree stop, readValue n (t ++ rest) pos = (tree, rest, stop) ∧ tree.Means v
  | _, _, h, 0, hn, _, _, _ => absurd h.length_pos (by omega)
  | _, _, .blank (c := c) (t := t) hc h, n + 1, hn, rest, hr, pos => by
    have hs : skipSpace (c :: t ++ rest) pos = skipSpace (t ++ rest) (pos + 1) := by simp [skipSpace, hc]
    rw [← readValue_skipSpace hs (by omega), readValue_skipSpace rfl (by omega)]
    exact h.complete (by simp at hn; omega) hr (pos + 1)
  | _, _, .null, n + 1, hn, rest, _, pos => by
    obtain ⟨stop, hs⟩ := readWord_complete "ull" .null none rest (pos + 1)
    exact ⟨_, stop, by simpa [readValue, skipSpace, isSpace] using hs, .null⟩
  | _, _, .isTrue, n + 1, hn, rest, _, pos => by
    obtain ⟨stop, hs⟩ := readWord_complete "rue" (.bool true pos) (some pos) rest (pos + 1)
    exact ⟨_, stop, by simpa [readValue, skipSpace, isSpace] using hs, .bool⟩
  | _, _, .isFalse, n + 1, hn, rest, _, pos => by
    obtain ⟨stop, hs⟩ := readWord_complete "alse" (.bool false pos) (some pos) rest (pos + 1)
    exact ⟨_, stop, by simpa [readValue, skipSpace, isSpace] using hs, .bool⟩
  | _, _, .number h hx, n + 1, hn, rest, hr, pos => by
    obtain ⟨d, ds, rfl, hd⟩ := h.exists_cons
    rw [List.cons_append, readValue_digit _ _ _ hd]
    exact readNumber_complete h hx hr pos pos
  | _, _, .negative h hx, n + 1, hn, rest, hr, pos => by
    rw [List.cons_append, readValue_minus]
    exact readNumber_complete h hx hr pos (pos + 1)
  | _, _, .string (t := t) (s := s) h, n + 1, hn, rest, _, pos => by
    have hlen : t.length < (t ++ '"' :: rest).length + 1 := by rw [List.length_append]; omega
    obtain ⟨stop, hs⟩ := scanString_complete h rest [] (pos + 1) hlen
    refine ⟨.string (.ok (String.ofList s)) stop, stop, ?_, .string⟩
    simpa using readValue_string n (t ++ '"' :: rest) pos hs
  | _, _, .array h, n + 1, hn, rest, _, pos => by
    obtain ⟨items, stop, hs, hh⟩ := h.complete (n := n) (by simp at hn; omega) rest (pos + 1)
    exact ⟨.array pos items, stop, by simp only [List.cons_append, readValue_array, hs], .array hh⟩
  | _, _, .object h, n + 1, hn, rest, _, pos => by
    obtain ⟨entries, stop, hs, hh⟩ := h.complete (n := n) (by simp at hn; omega) rest (pos + 1)
    exact ⟨.object pos entries, stop, by simp only [List.cons_append, readValue_object, hs], .object hh⟩

theorem ItemsText.complete : ∀ {first t vs}, ItemsText first t vs → ∀ {n}, t.length ≤ n → ∀ rest pos,
    ∃ items stop, readItems n first (t ++ rest) pos = (items, rest, stop) ∧ items.Means vs
  | _, _, _, h, 0, hn, _, _ => absurd h.length_pos (by omega)
  | _, _, _, .close (b := b) hb, n + 1, _, rest, pos => by
    obtain ⟨stop, hs⟩ := skipSpace_complete hb (starts_cons ']' rest rfl) pos
    refine ⟨.close (stop + 1), stop + 1, ?_, .close⟩
    simp [readItems, hs]
  | _, _, _, .first (t := t) (r := r) hv hvs, n + 1, hn, rest, pos => by
    have hr := hvs.length_pos
    have ht := hv.length_pos
    rw [List.length_append] at hn
    obtain ⟨c, cs, stop, hs, hc⟩ := hv.lead (r ++ rest) pos
    obtain ⟨tree, stop₁, h₁, hh₁⟩ := hv.complete (n := n) (by omega) (hvs.stops rest) pos
    obtain ⟨items, stop₂, h₂, hh₂⟩ := hvs.complete (n := n) (by omega) rest stop₁
    -- the array has passed over the blanks already, before the item is read
    rw [← readValue_skipSpace hs (by omega)] at h₁
    refine ⟨.item stop tree items, stop₂, ?_, .item hh₁ hh₂⟩
    simp [readItems, hs, hc, h₁, h₂]
  | _, _, _, .next (b := b) (t := t) (r := r) hb hv hvs, n + 1, hn, rest, pos => by
    have hr := hvs.length_pos
    have ht := hv.length_pos
    simp only [List.length_append, List.length_cons] at hn
    obtain ⟨stop₀, hs₀⟩ := skipSpace_complete hb (starts_cons ',' (t ++ (r ++ rest)) rfl) pos
    obtain ⟨c, cs, stop, hs, hc⟩ := hv.lead (r ++ rest) (stop₀ + 1)
    obtain ⟨tree, stop₁, h₁, hh₁⟩ := hv.complete (n := n) (by omega) (hvs.stops rest) (stop₀ + 1)
    obtain ⟨items, stop₂, h₂, hh₂⟩ := hvs.complete (n := n) (by omega) rest stop₁
    rw [← readValue_skipSpace hs (by omega)] at h₁
    refine ⟨.item stop tree items, stop₂, ?_, .item hh₁ hh₂⟩
    simp [readItems, hs₀, hs, hc, h₁, h₂]

theorem EntriesText.complete : ∀ {first t es}, EntriesText first t es → ∀ {n}, t.length ≤ n → ∀ rest pos,
    ∃ entries stop, readEntries n first (t ++ rest) pos = (entries, rest, stop) ∧ entries.Means es
  | _, _, _, h, 0, hn, _, _ => absurd h.length_pos (by omega)
  | _, _, _, .close hb, n + 1, _, rest, pos => by
    obtain ⟨stop, hs⟩ := skipSpace_complete hb (starts_cons '\x7d' rest rfl) pos
    refine ⟨.close (stop + 1), stop + 1, ?_, .close⟩
    simp [readEntries, hs]
  | _, _, _, .first (t := t) hb h, n + 1, hn, rest, pos => by
    simp only [List.length_append, List.length_cons] at hn
    obtain ⟨stop₀, hs⟩ := skipSpace_complete hb (starts_cons '"' (t ++ rest) rfl) pos
    obtain ⟨entries, stop, h₁, hh⟩ := h.complete (n := n) (by omega) stop₀ rest (stop₀ + 1)
    refine ⟨entries, stop, ?_, hh⟩
    simp [readEntries, hs, h₁]
  | _, _, _, .next (t := t) (c := c) hb hc h, n + 1, hn, rest, pos => by
    simp only [List.length_append, List.length_cons] at hn
    obtain ⟨stop₀, hs₀⟩ := skipSpace_complete hb (starts_cons ',' (c ++ '"' :: (t ++ rest)) rfl) pos
    obtain ⟨stop₁, hs₁⟩ := skipSpace_complete hc (starts_cons '"' (t ++ rest) rfl) (stop₀ + 1)
    obtain ⟨entries, stop, h₁, hh⟩ := h.complete (n := n) (by omega) stop₀ rest (stop₁ + 1)
    refine ⟨entries, stop, ?_, hh⟩
    simp [readEntries, hs₀, hs₁, h₁]

theorem EntryText.complete : ∀ {t es}, EntryText t es → ∀ {n}, t.length ≤ n → ∀ start rest pos,
    ∃ entries stop, readEntry n start (t ++ rest) pos = (entries, rest, stop) ∧ entries.Means es
  | _, _, .mk _ _ _ _, 0, hn, _, _, _ => by
    simp only [List.length_append, List.length_cons] at hn
    omega
  | _, _, .mk (k := k) (s := s) (b := b) (t := t) (r := r) hk hb hv hes, n + 1, hn, start, rest, pos => by
    simp only [List.length_append, List.length_cons] at hn
    have hlen : k.length < (k ++ '"' :: (b ++ ':' :: (t ++ (r ++ rest)))).length + 1 := by
      rw [List.length_append]
      omega
    obtain ⟨stop₀, hs₀⟩ := scanString_complete hk (b ++ ':' :: (t ++ (r ++ rest))) [] pos hlen
    obtain ⟨stop₁, hs₁⟩ := skipSpace_complete hb (starts_cons ':' (t ++ (r ++ rest)) rfl) stop₀
    obtain ⟨tree, stop₂, h₂, hh₂⟩ := hv.complete (n := n) (by omega) (hes.stops rest) (stop₁ + 1)
    obtain ⟨entries, stop₃, h₃, hh₃⟩ := hes.complete (n := n) (by omega) rest stop₂
    refine ⟨.entry start (.ok (String.ofList s)) stop₁ tree entries, stop₃, ?_, .entry hh₂ hh₃⟩
    rw [readEntry]
    simp only [List.append_assoc, List.cons_append, hs₀, hs₁, h₂, h₃, List.reverse_nil, List.nil_append, if_true]

end

/-! ## No other text is read -/

theorem readNumber_sound {negative : Bool} {start pos stop : Nat} {cs rest : List Char} {tree : Tree} {v : Value}
    (h : readNumber negative start cs pos = (tree, rest, stop)) (hv : tree.Means v) :
    ∃ t n x, cs = t ++ rest ∧ NumeralText negative t n ∧ n.value = .ok x ∧ v = .number x := by
  unfold readNumber at h
  split at h
  · cases h
    cases hv
  · next n rest stop hs =>
    obtain ⟨t, rfl, ht⟩ := scanNumeral_sound hs
    split at h
    · next x hx =>
      cases h
      cases hv
      exact ⟨t, n, x, rfl, ht, hx, rfl⟩
    · cases h
      cases hv

theorem readWord_sound {word : String} {value : Nat → Tree} {lead : Option Nat} {cs rest : List Char} {tree : Tree}
    {pos stop : Nat} {v : Value} (h : readWord word value lead cs pos = (tree, rest, stop)) (hv : tree.Means v) :
    cs = word.toList ++ rest ∧ (value stop).Means v := by
  unfold readWord at h
  split at h
  · next hs =>
    cases h
    exact ⟨scanWord_sound hs, hv⟩
  · cases h
    cases hv

/-- What is read as a value stands there as one. -/
def ValueSound (n : Nat) : Prop :=
  ∀ ⦃cs pos tree rest stop v⦄, readValue n cs pos = (tree, rest, stop) → tree.Means v →
    ∃ t, cs = t ++ rest ∧ ValueText t v

def ItemsSound (n : Nat) : Prop :=
  ∀ ⦃first cs pos items rest stop vs⦄, readItems n first cs pos = (items, rest, stop) → items.Means vs →
    ∃ t, cs = t ++ rest ∧ ItemsText first t vs

def EntriesSound (n : Nat) : Prop :=
  ∀ ⦃first cs pos entries rest stop es⦄, readEntries n first cs pos = (entries, rest, stop) → entries.Means es →
    ∃ t, cs = t ++ rest ∧ EntriesText first t es

def EntrySound (n : Nat) : Prop :=
  ∀ ⦃start cs pos entries rest stop es⦄, readEntry n start cs pos = (entries, rest, stop) → entries.Means es →
    ∃ t, cs = t ++ rest ∧ EntryText t es

section

variable {n : Nat}

theorem ValueSound.succ (hi : ItemsSound n) (he : EntriesSound n) : ValueSound (n + 1) := by
  intro cs pos tree rest stop v h hv
  obtain ⟨b, cs', pos', rfl, hb, hs⟩ := exists_skipSpace cs pos
  rw [← readValue_skipSpace hs (Nat.succ_pos n)] at h
  suffices ∃ t, cs' = t ++ rest ∧ ValueText t v by
    obtain ⟨t, rfl, ht⟩ := this
    exact ⟨b ++ t, by simp, ht.pad hb⟩
  rw [readValue, skipSpace_idem hs] at h
  cases cs' with
  | nil => cases h; cases hv
  | cons c cs =>
    simp only at h
    -- the cases are the tests of the first character, in their order
    split at h
    case isTrue hc =>
      subst hc
      split at h
      · next hstr =>
        cases h
        cases hv
        obtain ⟨-, t, s, rfl, ht, rfl⟩ := scanString_sound hstr
        exact ⟨'"' :: (t ++ ['"']), by simp, .string ht⟩
      · cases h; cases hv
    case isFalse =>
    split at h
    case isTrue hc =>
      subst hc
      rcases hitems : readItems n true cs (pos' + 1) with ⟨items, rest', stop'⟩
      rw [hitems] at h
      cases h
      cases hv with
      | array hvs =>
        obtain ⟨t, rfl, ht⟩ := hi hitems hvs
        exact ⟨'[' :: t, rfl, .array ht⟩
    case isFalse =>
    split at h
    case isTrue hc =>
      subst hc
      rcases hentries : readEntries n true cs (pos' + 1) with ⟨entries, rest', stop'⟩
      rw [hentries] at h
      cases h
      cases hv with
      | object hes =>
        obtain ⟨t, rfl, ht⟩ := he hentries hes
        exact ⟨'\x7b' :: t, rfl, .object ht⟩
    case isFalse =>
    split at h
    case isTrue hc =>
      subst hc
      obtain ⟨t, m, x, rfl, ht, hx, rfl⟩ := readNumber_sound h hv
      exact ⟨'-' :: t, rfl, .negative ht hx⟩
    case isFalse =>
    split at h
    case isTrue =>
      obtain ⟨t, m, x, ht', ht, hx, rfl⟩ := readNumber_sound h hv
      exact ⟨t, ht', .number ht hx⟩
    case isFalse =>
    split at h
    case isTrue hc =>
      obtain ⟨rfl, hv⟩ := readWord_sound h hv
      cases hv
      exact ⟨"null".toList, by rw [hc]; rfl, .null⟩
    case isFalse =>
    split at h
    case isTrue hc =>
      obtain ⟨rfl, hv⟩ := readWord_sound h hv
      cases hv
      exact ⟨"true".toList, by rw [hc]; rfl, .isTrue⟩
    case isFalse =>
    split at h
    case isTrue hc =>
      obtain ⟨rfl, hv⟩ := readWord_sound h hv
      cases hv
      exact ⟨"false".toList, by rw [hc]; rfl, .isFalse⟩
    case isFalse => cases h; cases hv

theorem item_sound (hv : ValueSound n) (hi : ItemsSound n) {cs rest : List Char} {pos stop : Nat} {items : Items}
    {vs : List Value}
    (h : (let (value, rest, stop) := readValue n cs pos
          let (items, rest, stop) := readItems n false rest stop
          (Items.item pos value items, rest, stop)) = (items, rest, stop))
    (hvs : items.Means vs) :
    ∃ t r v ws, cs = t ++ (r ++ rest) ∧ ValueText t v ∧ ItemsText false r ws ∧ vs = v :: ws := by
  rcases h₁ : readValue n cs pos with ⟨tree, rest₁, stop₁⟩
  rcases h₂ : readItems n false rest₁ stop₁ with ⟨more, rest₂, stop₂⟩
  simp only [h₁, h₂] at h
  cases h
  cases hvs with
  | item hv' hws =>
    obtain ⟨t, rfl, ht⟩ := hv h₁ hv'
    obtain ⟨r, rfl, hr⟩ := hi h₂ hws
    exact ⟨t, r, _, _, rfl, ht, hr, rfl⟩

theorem ItemsSound.succ (hv : ValueSound n) (hi : ItemsSound n) : ItemsSound (n + 1) := by
  intro first cs pos items rest stop vs h hvs
  obtain ⟨b, cs', pos', rfl, hb, hs⟩ := exists_skipSpace cs pos
  rw [readItems, hs] at h
  cases cs' with
  | nil => cases h; cases hvs
  | cons c cs =>
    simp only at h
    split at h
    case isTrue hc =>
      subst hc
      cases h
      cases hvs
      exact ⟨b ++ [']'], by simp, .close hb⟩
    case isFalse =>
    split at h
    case isTrue hfirst =>
      obtain ⟨t, r, v, ws, hcs, ht, hr, rfl⟩ := item_sound hv hi h hvs
      subst hfirst
      exact ⟨b ++ t ++ r, by simp [hcs], .first (ht.pad hb) hr⟩
    case isFalse hfirst =>
    split at h
    case isTrue hc =>
      obtain ⟨b', cs', pos'', rfl, hb', hs'⟩ := exists_skipSpace cs (pos' + 1)
      rw [hs'] at h
      cases cs' with
      | nil => cases h; cases hvs
      | cons c' cs =>
        simp only at h
        split at h
        · cases h; cases hvs
        · obtain ⟨t, r, v, ws, hcs, ht, hr, rfl⟩ := item_sound hv hi h hvs
          obtain rfl : first = false := by simpa using hfirst
          exact ⟨b ++ ',' :: (b' ++ t ++ r), by simp [hc, hcs], .next hb (ht.pad hb') hr⟩
    case isFalse => cases h; cases hvs

theorem EntriesSound.succ (he : EntrySound n) : EntriesSound (n + 1) := by
  intro first cs pos entries rest stop es h hes
  obtain ⟨b, cs', pos', rfl, hb, hs⟩ := exists_skipSpace cs pos
  rw [readEntries, hs] at h
  cases cs' with
  | nil => cases h; cases hes
  | cons c cs =>
    simp only at h
    split at h
    case isTrue hc =>
      subst hc
      cases h
      cases hes
      exact ⟨b ++ ['\x7d'], by simp, .close hb⟩
    case isFalse =>
    split at h
    case isTrue hfirst =>
      split at h
      · next hc =>
        obtain ⟨t, rfl, ht⟩ := he h hes
        subst hfirst
        exact ⟨b ++ '"' :: t, by simp [hc], .first hb ht⟩
      · cases h; cases hes
    case isFalse hfirst =>
    split at h
    case isTrue hc =>
      obtain ⟨b', cs', pos'', rfl, hb', hs'⟩ := exists_skipSpace cs (pos' + 1)
      rw [hs'] at h
      cases cs' with
      | nil => cases h; cases hes
      | cons c' cs =>
        simp only at h
        split at h
        · next hq =>
          obtain ⟨t, rfl, ht⟩ := he h hes
          obtain rfl : first = false := by simpa using hfirst
          exact ⟨b ++ ',' :: (b' ++ '"' :: t), by simp [hc, hq], .next hb hb' ht⟩
        · cases h; cases hes
    case isFalse => cases h; cases hes

theorem EntrySound.succ (hv : ValueSound n) (he : EntriesSound n) : EntrySound (n + 1) := by
  intro start cs pos entries rest stop es h hes
  rw [readEntry] at h
  split at h
  case h_1 => cases h; cases hes
  case h_2 key rest' stop' hkey =>
    obtain ⟨b, cs', pos', rfl, hb, hs⟩ := exists_skipSpace rest' stop'
    rw [hs] at h
    cases cs' with
    | nil =>
      cases h
      cases hes with
      | entry hv' _ => cases hv'
    | cons c cs =>
      simp only at h
      split at h
      · next hc =>
        rcases h₁ : readValue n cs (pos' + 1) with ⟨tree, rest₁, stop₁⟩
        rcases h₂ : readEntries n false rest₁ stop₁ with ⟨more, rest₂, stop₂⟩
        simp only [h₁, h₂] at h
        cases h
        cases hes with
        | entry hv' hfs =>
          obtain ⟨-, kt, ks, rfl, hk, rfl⟩ := scanString_sound hkey
          obtain ⟨t, rfl, ht⟩ := hv h₁ hv'
          obtain ⟨r, rfl, hr⟩ := he h₂ hfs
          exact ⟨kt ++ '"' :: (b ++ ':' :: (t ++ r)), by simp [hc], .mk hk hb ht hr⟩
      · cases h
        cases hes with
        | entry hv' _ => cases hv'

end

theorem readers_sound (n : Nat) : ValueSound n ∧ ItemsSound n ∧ EntriesSound n ∧ EntrySound n := by
  induction n with
  | zero =>
    -- without fuel all is broken
    refine ⟨?_, ?_, ?_, ?_⟩
    · intro _ _ _ _ _ _ h hv
      rw [readValue] at h
      cases h
      cases hv
    · intro _ _ _ _ _ _ _ h hv
      rw [readItems] at h
      cases h
      cases hv
    · intro _ _ _ _ _ _ _ h hv
      rw [readEntries] at h
      cases h
      cases hv
    · intro _ _ _ _ _ _ _ h hv
      rw [readEntry] at h
      cases h
      cases hv
  | succ n ih =>
    obtain ⟨hv, hi, he, hentry⟩ := ih
    exact ⟨.succ hi he, .succ hv hi, .succ hentry, .succ hv he⟩

/-! ## Whole texts -/

theorem skipSpace_eq_nil_iff {cs : List Char} (pos : Nat) : (skipSpace cs pos).1 = [] ↔ Blank cs := by
  constructor
  · intro h
    obtain ⟨b, rfl, hb⟩ := skipSpace_sound (Prod.ext h rfl : skipSpace cs pos = ([], _))
    simpa using hb
  · intro h
    obtain ⟨stop, hs⟩ := skipSpace_complete h starts_nil pos
    simpa using congrArg Prod.fst hs

theorem Document.trailing_eq_none_iff {text rest : List Char} {tree : Tree} {stop : Nat}
    (h : readValue (3 * text.length + 3) text 0 = (tree, rest, stop)) :
    (Document.read text).tree = tree ∧ ((Document.read text).trailing = none ↔ Blank rest) := by
  rw [← skipSpace_eq_nil_iff stop]
  simp only [Document.read, h]
  split
  · next hs => simp [hs]
  · next hs => simp [hs]

/-- What a text begins with is found, and whether anything follows. -/
theorem Document.read_complete {t rest : List Char} {v : Value} (h : ValueText t v) (hr : Stops rest) :
    (Document.read (t ++ rest)).tree.Means v ∧ ((Document.read (t ++ rest)).trailing = none ↔ Blank rest) := by
  have hlen : t.length ≤ 3 * (t ++ rest).length + 3 := by rw [List.length_append]; omega
  obtain ⟨tree, stop, hread, hv⟩ := h.complete hlen hr 0
  obtain ⟨rfl, htrail⟩ := trailing_eq_none_iff hread
  exact ⟨hv, htrail⟩

theorem Document.read_sound {text : List Char} {v : Value} (hv : (Document.read text).tree.Means v) :
    ∃ t rest, text = t ++ rest ∧ ValueText t v ∧ ((Document.read text).trailing = none → Blank rest) := by
  rcases hread : readValue (3 * text.length + 3) text 0 with ⟨tree, rest, stop⟩
  obtain ⟨htree, htrail⟩ := trailing_eq_none_iff hread
  rw [htree] at hv
  obtain ⟨t, rfl, ht⟩ := (readers_sound _).1 hread hv
  exact ⟨t, rest, rfl, ht, htrail.mp⟩

theorem Document.decode_of_whole {α : Type} {doc : Document} (h : doc.trailing = none) (read : Tree → Except Fault α) :
    doc.decode read = read doc.tree := by
  unfold Document.decode
  rw [h]
  cases read doc.tree <;> rfl

theorem Document.decode_eq_ok_iff {α : Type} {doc : Document} {read : Tree → Except Fault α} {a : α} :
    doc.decode read = .ok a ↔ read doc.tree = .ok a ∧ doc.trailing = none := by
  unfold Document.decode
  cases read doc.tree with
  | error f => simp [bind, Except.bind]
  | ok b => cases doc.trailing <;> simp [bind, Except.bind, pure, Except.pure, throw, throwThe, MonadExceptOf.throw]

/-- A text is spelt as the grammar says exactly if its tree is whole and nothing follows. -/
theorem spells_iff {text : List Char} {v : Value} :
    Spells text v ↔ (Document.read text).tree.Means v ∧ (Document.read text).trailing = none := by
  constructor
  · rintro ⟨t, b, rfl, ht, hb⟩
    obtain ⟨hv, htrail⟩ := Document.read_complete ht hb.stops
    exact ⟨hv, htrail.mpr hb⟩
  · rintro ⟨hv, htrail⟩
    obtain ⟨t, b, rfl, ht, hb⟩ := Document.read_sound hv
    exact ⟨t, b, rfl, ht, hb htrail⟩

theorem Tree.Means.unique {t : Tree} {v w : Value} (hv : t.Means v) (hw : t.Means w) : v = w := by
  have h := hv.value (d := max v.depth w.depth + 1) (by omega)
  rw [hw.value (by omega)] at h
  exact (Except.ok.inj h).symm

/-- A text is spelt for one value only. -/
theorem Spells.unique {text : List Char} {v w : Value} (hv : Spells text v) (hw : Spells text w) : v = w :=
  (spells_iff.mp hv).1.unique (spells_iff.mp hw).1

/-- **A text is read exactly if the grammar has it** and it is not nested too deep. -/
theorem Value.read_eq_ok_iff {text : List Char} {v : Value} :
    Value.read text = .ok v ↔ Spells text v ∧ v.depth < depthLimit := by
  rw [Value.read, Document.decode_eq_ok_iff, Tree.value_eq_ok_iff (by decide), spells_iff, and_right_comm]

end FarmClient.Json
