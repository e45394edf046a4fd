/-
Which entries of an object a record is read from. Each field is read from the
one entry under its keys, or is missing (`Fields.ofEntries_cons_eq_ok_iff`);
entries under other keys are passed over. So a value that is read is read also
with its objects sorted, whatever stands twice beside the fields
(`Shape.ofValue_canonical_of_ok`), and replacing one entry or one item of it
does to the record what it does to the field (`Fields.Turns`).
-/
import FarmClient.Proofs.ShapeRoundTrip

namespace FarmClient

open Json (Value Mismatch exists_ok_of_bind exists_ok_of_map)

/-! ## Sorting some of the entries -/

namespace Json

theorem insertEntry_of_lt {key : String} {v : Value} {l : List (String × Value)} (h : ∀ e ∈ l, key < e.1) :
    insertEntry key v l = (key, v) :: l := by
  cases l with
  | nil => rfl
  | cons e l =>
    obtain ⟨k, w⟩ := e
    have hlt : key < k := h (k, w) List.mem_cons_self
    have hne : key ≠ k := fun he => String.lt_irrefl k (he ▸ hlt)
    rw [insertEntry, if_neg hne, if_pos hlt]

theorem filter_insertEntry (p : String → Bool) (key : String) (v : Value) {l : List (String × Value)}
    (h : Ascending l) : (insertEntry key v l).filter (fun e => p e.1) =
      if p key then insertEntry key v (l.filter fun e => p e.1) else l.filter fun e => p e.1 := by
  induction l with
  | nil => by_cases hp : p key <;> simp [insertEntry, hp]
  | cons e l ih =>
    obtain ⟨k, w⟩ := e
    obtain ⟨hk, hl⟩ := List.pairwise_cons.mp h
    rw [insertEntry]
    split
    · next he =>
      subst he
      by_cases hp : p key <;> simp [hp, insertEntry]
    split
    · next hne hlt =>
      -- what is left of the rest still stands behind the new key
      have hfront : insertEntry key v (List.filter (fun e => p e.1) ((k, w) :: l)) =
          (key, v) :: List.filter (fun e => p e.1) ((k, w) :: l) := by
        refine insertEntry_of_lt fun e he => ?_
        rcases List.mem_cons.mp (List.mem_filter.mp he).1 with rfl | he
        · exact hlt
        · exact String.lt_trans hlt (hk e he)
      rw [hfront]
      by_cases hp : p key <;> simp [hp]
    · next hne hge =>
      by_cases hpk : p k <;> by_cases hp : p key <;> simp [hpk, hp, ih hl, insertEntry, hne, hge]

/-- Entries are sorted alike before and after some keys are left out. -/
theorem filter_sortEntries (p : String → Bool) (l : List (String × Value)) :
    (sortEntries l).filter (fun e => p e.1) = sortEntries (l.filter fun e => p e.1) := by
  induction l using List.reverseRecOn with
  | nil => rfl
  | append_singleton l e ih =>
    rw [sortEntries_snoc, filter_insertEntry p e.1 e.2 (sortEntries_ascending l), ih, List.filter_append]
    by_cases hp : p e.1 <;> simp [hp, sortEntries_snoc]

theorem filter_canonicalEntries (p : String → Bool) (l : List (String × Value)) :
    (Value.canonicalEntries l).filter (fun e => p e.1) = Value.canonicalEntries (l.filter fun e => p e.1) := by
  rw [Value.canonicalEntries_eq, Value.canonicalEntries_eq, List.filter_map]
  rfl

/-- Of entries in order at most one stands under a key. -/
theorem filter_key {key : String} {l : List (String × Value)} (h : Ascending l) :
    l.filter (fun e => e.1 = key) = (Wire.lookup? key l).toList.map fun v => (key, v) := by
  induction l with
  | nil => rfl
  | cons e l ih =>
    obtain ⟨k, w⟩ := e
    obtain ⟨hk, hl⟩ := List.pairwise_cons.mp h
    rw [Wire.lookup?_cons]
    by_cases hkey : k = key
    · subst hkey
      have hnone : Wire.lookup? k l = none := Wire.lookup?_eq_none fun e he heq =>
        String.lt_irrefl k (heq ▸ hk e he)
      simp [ih hl, hnone]
    · simp [ih hl, hkey]

end Json

namespace Wire

/-! ## One field -/

theorem pair_eq_ok_iff {ε α β : Type} {x : Except ε α} {y : Except ε β} {a : α} {b : β} :
    (x >>= fun a => y >>= fun b => pure (a, b)) = .ok (a, b) ↔ x = .ok a ∧ y = .ok b := by
  cases x <;> cases y <;> simp [bind, Except.bind, pure, Except.pure]

/-- Reads a field from all the entries under its keys. -/
def Label.take (l : Label) (s : Shape) : List (String × Value) → Except Mismatch s.Val
  | [] =>
    match l.missing? s with
    | some x => .ok x
    | none => .error (.missingField l.key)
  | [e] => s.ofValue e.2
  | _ :: _ :: _ => .error (.duplicateField l.key)

variable {l : Label} {s : Shape} {fs : Fields}

theorem Fields.ofEntries_perm {es es' : List (String × Value)} (h : es.Perm es') :
    Alike Eq (fs.ofEntries es) (fs.ofEntries es') :=
  (Alike.foldlM_perm (fun slots e e' => fs.putValue_comm slots e e') h fs.noSlots).bind fun _ _ h => h ▸ .refl _

theorem Fields.complete_cons (slot : Option s.Val) (slots : fs.Slots) :
    (Fields.cons l s fs).complete (slot, slots) = (do
      let x ← slot.elim (l.take s []) .ok
      let xs ← fs.complete slots
      return (x, xs)) := by
  cases slot with
  | some x => rfl
  | none =>
    rw [Option.elim_none, Fields.complete, Label.take]
    cases l.missing? s <;> rfl

/-- A record whose first slot is filled, or not, is completed by the other slots. -/
theorem Fields.complete_alike (slot : Option s.Val) (slots : Except Mismatch fs.Slots) :
    Alike Eq (slots.map (fun slots => (slot, slots)) >>= (Fields.cons l s fs).complete) (do
      let x ← slot.elim (l.take s []) .ok
      let xs ← slots >>= fs.complete
      return (x, xs)) := by
  cases slots with
  | error m => cases slot.elim (l.take s []) .ok <;> exact .error
  | ok slots =>
    change Alike Eq ((Fields.cons l s fs).complete (slot, slots)) _
    rw [complete_cons]
    exact .refl _

/-- **Field by field**: a record is read from its entries by reading the first
field from the entries under its keys, and the others from the rest. -/
theorem Fields.ofEntries_cons_alike (es : List (String × Value)) :
    Alike Eq ((Fields.cons l s fs).ofEntries es) (do
      let x ← l.take s (es.filter fun e => l.answersTo e.1)
      let xs ← fs.ofEntries (es.filter fun e => !l.answersTo e.1)
      return (x, xs)) := by
  refine (ofEntries_perm (List.filter_append_perm (fun e => l.answersTo e.1) es).symm).trans ?_
  have hknown : ∀ e ∈ es.filter fun e => l.answersTo e.1, l.answersTo e.1 = true :=
    fun e he => (List.mem_filter.mp he).2
  have hrest : ∀ e ∈ es.filter fun e => !l.answersTo e.1, l.answersTo e.1 = false := by
    intro e he
    simpa using (List.mem_filter.mp he).2
  generalize es.filter (fun e => l.answersTo e.1) = known at hknown
  generalize es.filter (fun e => !l.answersTo e.1) = rest at hrest
  rw [Fields.ofEntries, List.foldlM_append]
  have hput (slots : (Fields.cons l s fs).Slots) (e : String × Value) (he : e ∈ known) :
      (Fields.cons l s fs).putValue slots e.1 e.2 = fillFirst (.duplicateField l.key) (s.ofValue e.2) slots := by
    rw [putValue_cons, if_pos (hknown e he)]
  have hfold (slot : Option s.Val) := foldlM_putValue_rest hrest slot fs.noSlots
  cases known with
  | nil =>
    have hdone := complete_alike (l := l) (none : Option s.Val)
      (rest.foldlM (fun slots e => fs.putValue slots e.1 e.2) fs.noSlots)
    rwa [← hfold none] at hdone
  | cons e known =>
    rw [List.foldlM_cons, hput _ e List.mem_cons_self]
    cases known with
    | nil =>
      change Alike Eq _ (s.ofValue e.2 >>= _)
      cases s.ofValue e.2 with
      | error m => exact .error
      | ok x =>
        have hdone := complete_alike (l := l) (some x)
          (rest.foldlM (fun slots e => fs.putValue slots e.1 e.2) fs.noSlots)
        rwa [← hfold (some x)] at hdone
    | cons e' known =>
      change Alike Eq _ (.error _)
      cases s.ofValue e.2 with
      | error m => exact .error
      | ok x =>
        have htwice : (Fields.cons l s fs).putValue (some x, fs.noSlots) e'.1 e'.2 = .error (.duplicateField l.key) :=
          hput _ e' (by simp)
        change Alike Eq (((Fields.cons l s fs).putValue (some x, fs.noSlots) e'.1 e'.2 >>= _) >>= _ >>= _) _
        rw [htwice]
        exact .error

theorem Fields.ofEntries_cons_eq_ok_iff {es : List (String × Value)} {x : s.Val} {xs : fs.Val} :
    (Fields.cons l s fs).ofEntries es = .ok (x, xs) ↔
      l.take s (es.filter fun e => l.answersTo e.1) = .ok x ∧
        fs.ofEntries (es.filter fun e => !l.answersTo e.1) = .ok xs :=
  (ofEntries_cons_alike es).ok_iff.trans pair_eq_ok_iff

theorem Fields.ofEntries_nil (es : List (String × Value)) : Fields.nil.ofEntries es = .ok () := by
  induction es with
  | nil => rfl
  | cons e es ih => exact ih

/-- A field that is read stands under one key, or is missing. -/
theorem Label.take_eq_ok {es : List (String × Value)} {x : s.Val} (h : l.take s es = .ok x) :
    es = [] ∨ ∃ e, es = [e] ∧ s.ofValue e.2 = .ok x := by
  match es with
  | [] => exact .inl rfl
  | [e] => exact .inr ⟨e, rfl, h⟩
  | _ :: _ :: _ => cases h

/-! ## What is read is read sorted -/

theorem unitOfValue_canonical_of_ok {v : Value} (h : unitOfValue v = .ok ()) : v.canonical = v := by
  cases v with
  | null => rfl
  | object es =>
    cases es with
    | nil => rfl
    | cons e es => cases h
  | _ => cases h

theorem nameOfValue_canonical_of_ok {α : Type} {take : String → Except Mismatch α} {v : Value} {a : α}
    (h : nameOfValue take v = .ok a) : nameOfValue take v.canonical = .ok a := by
  cases v with
  | string name => exact h
  | object es =>
    match es with
    | [(key, w)] =>
      have hunit : unitOfValue w = .ok () := by
        change (take key >>= fun a => unitOfValue w >>= fun _ => pure a) = .ok a at h
        cases hw : unitOfValue w with
        | ok u => rfl
        | error m =>
          rw [hw] at h
          cases htake : take key <;> rw [htake] at h <;> cases h
      have hsame : (Value.object [(key, w)]).canonical = .object [(key, w)] := by
        change Value.object [(key, w.canonical)] = _
        rw [unitOfValue_canonical_of_ok hunit]
      rw [hsame]
      exact h
    | [] | _ :: _ :: _ => cases h
  | _ => cases h

theorem mapM_eq_ok_iff {ε α β : Type} {f : α → Except ε β} {l : List α} {r : List β} :
    l.mapM f = .ok r ↔ List.Forall₂ (fun a b => f a = .ok b) l r := by
  induction l generalizing r with
  | nil => simp [pure, Except.pure, eq_comm]
  | cons a l ih =>
    rw [List.mapM_cons, List.forall₂_cons_left_iff]
    cases hfa : f a with
    | error e => simp [bind, Except.bind]
    | ok b =>
      cases hl : l.mapM f with
      | error e =>
        have hno (r : List β) : ¬ List.Forall₂ (fun a b => f a = .ok b) l r := fun h => by
          rw [ih.mpr h] at hl
          cases hl
        simp [bind, Except.bind, hno]
      | ok bs =>
        have hrest (r : List β) : List.Forall₂ (fun a b => f a = .ok b) l r ↔ bs = r := by
          rw [← ih, hl, Except.ok.injEq]
        simp [bind, Except.bind, pure, Except.pure, hrest, eq_comm]

mutual

/-- **What is read is read sorted**, whatever its objects hold twice beside the fields. -/
theorem Shape.ofValue_canonical_of_ok : ∀ (s : Shape) {v : Value} {x : s.Val}, s.ofValue v = .ok x →
    s.ofValue v.canonical = .ok x
  | .u32, v, _, h | .i64, v, _, h | .u64, v, _, h | .f64, v, _, h | .bool, v, _, h | .text, v, _, h => by
    cases v with
    | array _ | object _ => cases h
    | _ => exact h
  | .name _, _, _, h | .nameOr _ _, _, _, h => nameOfValue_canonical_of_ok h
  | .optional s, v, x, h => by
    by_cases hv : v = .null
    · rw [hv] at h ⊢
      exact h
    · have hcanonical : v.canonical ≠ .null := by
        cases v with
        | null => exact absurd rfl hv
        | _ => rintro ⟨⟩
      change optionOfValue s.ofValue v = .ok x at h
      rw [optionOfValue_some _ hv] at h
      obtain ⟨y, hy, rfl⟩ := exists_ok_of_map h
      change optionOfValue s.ofValue v.canonical = _
      rw [optionOfValue_some _ hcanonical, s.ofValue_canonical_of_ok hy]
      rfl
  | .array s, v, xs, h => by
    cases v with
    | array vs =>
      have hall : List.Forall₂ (fun v x => s.ofValue v = .ok x) vs xs := mapM_eq_ok_iff.mp h
      have hcanonical : List.Forall₂ (fun v x => s.ofValue v = .ok x) (vs.map Value.canonical) xs :=
        List.forall₂_map_left_iff.mpr (hall.imp fun _ _ h => s.ofValue_canonical_of_ok h)
      rw [Value.canonical, Value.canonicalItems_eq]
      exact mapM_eq_ok_iff.mpr hcanonical
    | _ => cases h
  | .pair s, v, x, h => by
    cases v with
    | array vs =>
      match vs with
      | [] => cases h
      | [a] =>
        obtain ⟨_, -, h⟩ := exists_ok_of_bind h
        cases h
      | a :: b :: rest =>
        obtain ⟨x, ha, h⟩ := exists_ok_of_bind h
        obtain ⟨y, hb, h⟩ := exists_ok_of_bind h
        cases rest with
        | nil =>
          change (s.ofValue a.canonical >>= fun x => s.ofValue b.canonical >>= fun y =>
            noMore 2 [] >>= fun _ => pure (x, y)) = _
          rw [s.ofValue_canonical_of_ok ha, s.ofValue_canonical_of_ok hb]
          exact h
        | cons _ _ => cases h
    | _ => cases h
  | .record title fs, v, x, h => by
    cases v with
    | array vs =>
      obtain ⟨⟨y, left⟩, hvs, h⟩ := exists_ok_of_bind h
      cases left with
      | nil =>
        change (fs.ofValues (fs.wanted title) 0 (Value.canonicalItems vs) >>= fun (v, left) =>
          noMore ((Value.canonicalItems vs).length - left.length) left >>= fun _ => pure v) = _
        rw [fs.ofValues_canonical_of_ok _ _ hvs]
        exact h
      | cons _ _ => cases h
    | object es => exact fs.ofEntries_canonical_of_ok h
    | _ => cases h

theorem Fields.ofEntries_canonical_of_ok : ∀ (fs : Fields) {es : List (String × Value)} {x : fs.Val},
    fs.ofEntries es = .ok x → fs.ofEntries (Json.sortEntries (Value.canonicalEntries es)) = .ok x
  | .nil, _, _, _ => Fields.ofEntries_nil _
  | .cons l s fs, es, (x, xs), h => by
    obtain ⟨hx, hxs⟩ := Fields.ofEntries_cons_eq_ok_iff.mp h
    refine Fields.ofEntries_cons_eq_ok_iff.mpr ⟨?_, ?_⟩
    · rw [Json.filter_sortEntries l.answersTo, Json.filter_canonicalEntries l.answersTo]
      obtain hno | ⟨e, he, hread⟩ := Label.take_eq_ok hx
      · rw [hno] at hx ⊢
        exact hx
      · rw [he]
        exact s.ofValue_canonical_of_ok hread
    · rw [Json.filter_sortEntries (!l.answersTo ·), Json.filter_canonicalEntries (!l.answersTo ·)]
      exact fs.ofEntries_canonical_of_ok hxs

theorem Fields.ofValues_canonical_of_ok : ∀ (fs : Fields) (wanted : String) (index : Nat) {vs left : List Value}
    {x : fs.Val}, fs.ofValues wanted index vs = .ok (x, left) →
    fs.ofValues wanted index (Value.canonicalItems vs) = .ok (x, Value.canonicalItems left)
  | .nil, _, _, vs, left, x, h => by
    cases h
    rfl
  | .cons l s fs, wanted, index, vs, left, (x, xs), h => by
    obtain ⟨⟨y, vs'⟩, hnext, h⟩ := exists_ok_of_bind h
    obtain ⟨⟨ys, left'⟩, hrest, h⟩ := exists_ok_of_bind h
    cases h
    have hcanonical : nextFieldValue s.ofValue (l.missing? s) index wanted (Value.canonicalItems vs) =
        .ok (x, Value.canonicalItems vs') := by
      cases vs with
      | nil =>
        cases hm : l.missing? s with
        | none =>
          rw [hm] at hnext
          cases hnext
        | some z =>
          rw [hm] at hnext
          cases hnext
          rfl
      | cons v vs =>
        obtain ⟨z, hz, hpair⟩ := exists_ok_of_map hnext
        cases hpair
        change (s.ofValue v.canonical).map _ = _
        rw [s.ofValue_canonical_of_ok hz]
        rfl
    change (nextFieldValue s.ofValue (l.missing? s) index wanted (Value.canonicalItems vs) >>= fun (v, vs) =>
      fs.ofValues wanted (index + 1) vs >>= fun (rest, vs) => pure ((v, rest), vs)) = _
    rw [hcanonical]
    change (fs.ofValues wanted (index + 1) (Value.canonicalItems vs') >>= fun (rest, vs) => pure ((x, rest), vs)) = _
    rw [fs.ofValues_canonical_of_ok wanted (index + 1) hrest]
    rfl

end

/-! ## Replacing one entry or one item -/

/-- The field that is read from the entries under a key. -/
def Fields.field? : Fields → String → Option (Label × Shape)
  | .nil, _ => none
  | .cons l s fs, key => if l.answersTo key then some (l, s) else fs.field? key

/-- The field that is read from an item of an array. -/
def Fields.item? : Fields → Nat → Option Shape
  | .nil, _ => none
  | .cons _ s _, 0 => some s
  | .cons _ _ fs, i + 1 => fs.item? i

/-- With `v'` in place of `v`, what is read turns into something related. -/
def Shape.Turns (s : Shape) (v v' : Value) (R : s.Val → s.Val → Prop) : Prop :=
  ∀ x, s.ofValue v = .ok x → ∃ x', s.ofValue v' = .ok x' ∧ R x x'

/-- The same of a record with the entry `e'` in place of `e`. -/
def Fields.Turns (fs : Fields) (e e' : String × Value) (R : fs.Val → fs.Val → Prop) : Prop :=
  ∀ (pre post : List (String × Value)) (x : fs.Val), fs.ofEntries (pre ++ e :: post) = .ok x →
    ∃ x', fs.ofEntries (pre ++ e' :: post) = .ok x' ∧ R x x'

/-- The same of a record with the item `v'` in place of `v` at `i`. -/
def Fields.TurnsItem (fs : Fields) (i : Nat) (v v' : Value) (R : fs.Val → fs.Val → Prop) : Prop :=
  ∀ (wanted : String) (index : Nat) (pre post left : List Value) (x : fs.Val), pre.length = i →
    fs.ofValues wanted index (pre ++ v :: post) = .ok (x, left) →
      ∃ x', fs.ofValues wanted index (pre ++ v' :: post) = .ok (x', left) ∧ R x x'

theorem Label.take_append_cons {pre post : List (String × Value)} {e : String × Value} {x : s.Val}
    (h : l.take s (pre ++ e :: post) = .ok x) : pre = [] ∧ post = [] ∧ s.ofValue e.2 = .ok x := by
  obtain hnil | ⟨e', hone, hread⟩ := Label.take_eq_ok h
  · simp at hnil
  · obtain ⟨hpre, hcons⟩ | ⟨-, hcons⟩ := List.append_eq_singleton_iff.mp hone
    · cases hcons
      exact ⟨hpre, rfl, hread⟩
    · cases hcons

section

variable {e e' : String × Value}

theorem Fields.Turns.mono {R R' : fs.Val → fs.Val → Prop} (h : fs.Turns e e' R) (hR : ∀ x x', R x x' → R' x x') :
    fs.Turns e e' R' := by
  intro pre post x hx
  obtain ⟨x', hx', hxx'⟩ := h pre post x hx
  exact ⟨x', hx', hR x x' hxx'⟩

theorem Fields.Turns.first {R : s.Val → s.Val → Prop} (he : l.answersTo e.1 = true) (he' : l.answersTo e'.1 = true)
    (h : s.Turns e.2 e'.2 R) : (Fields.cons l s fs).Turns e e' fun a b => R a.1 b.1 ∧ a.2 = b.2 := by
  intro pre post x hx
  obtain ⟨x, xs⟩ := x
  obtain ⟨hfirst, hrest⟩ := Fields.ofEntries_cons_eq_ok_iff.mp hx
  simp only [List.filter_append, List.filter_cons, he, if_true, Bool.not_true, Bool.false_eq_true, if_false]
    at hfirst hrest
  -- no other entry stands under the keys of the field
  obtain ⟨hpre, hpost, hread⟩ := Label.take_append_cons hfirst
  obtain ⟨x', hread', hR⟩ := h x hread
  refine ⟨(x', xs), Fields.ofEntries_cons_eq_ok_iff.mpr ⟨?_, ?_⟩, hR, rfl⟩
  · simp only [List.filter_append, List.filter_cons, he', if_true, hpre, hpost]
    exact hread'
  · simp only [List.filter_append, List.filter_cons, he', Bool.not_true, Bool.false_eq_true, if_false]
    exact hrest

theorem Fields.Turns.later {R : fs.Val → fs.Val → Prop} (he : l.answersTo e.1 = false) (he' : l.answersTo e'.1 = false)
    (h : fs.Turns e e' R) : (Fields.cons l s fs).Turns e e' fun a b => a.1 = b.1 ∧ R a.2 b.2 := by
  intro pre post x hx
  obtain ⟨x, xs⟩ := x
  obtain ⟨hfirst, hrest⟩ := Fields.ofEntries_cons_eq_ok_iff.mp hx
  simp only [List.filter_append, List.filter_cons, he, Bool.not_false, Bool.false_eq_true, if_false, if_true]
    at hfirst hrest
  obtain ⟨xs', hrest', hR⟩ := h _ _ xs hrest
  refine ⟨(x, xs'), Fields.ofEntries_cons_eq_ok_iff.mpr ⟨?_, ?_⟩, rfl, hR⟩
  · simp only [List.filter_append, List.filter_cons, he', Bool.false_eq_true, if_false]
    exact hfirst
  · simp only [List.filter_append, List.filter_cons, he', Bool.not_false, if_true]
    exact hrest'

theorem Fields.answersTo_of_field? : ∀ {fs : Fields} {key : String}, fs.field? key = some (l, s) →
    l.answersTo key = true
  | .cons l' s' fs, key, h => by
    rw [Fields.field?] at h
    split at h
    · next ha =>
      cases h
      exact ha
    · exact fs.answersTo_of_field? h

/-- **What stands under the keys of a field** may be written differently; under other keys anything may stand. -/
theorem Fields.turns_of_field? : ∀ {fs : Fields}, fs.field? e.1 = fs.field? e'.1 →
    (∀ l s, fs.field? e.1 = some (l, s) → s.Turns e.2 e'.2 Eq) → fs.Turns e e' Eq
  | .nil, _, _ => fun _ _ _ _ => ⟨(), Fields.ofEntries_nil _, rfl⟩
  | .cons l s fs, hkeys, h => by
    rw [Fields.field?, Fields.field?] at hkeys
    by_cases he : l.answersTo e.1 = true
    · rw [if_pos he] at hkeys
      have hfield : (Fields.cons l s fs).field? e'.1 = some (l, s) := hkeys.symm
      have hfirst : s.Turns e.2 e'.2 Eq := h l s (if_pos he)
      exact (Turns.first he (answersTo_of_field? hfield) hfirst).mono fun _ _ h => Prod.ext h.1 h.2
    · rw [if_neg he] at hkeys
      have he' : ¬ l.answersTo e'.1 = true := fun ha => by
        rw [if_pos ha] at hkeys
        exact he (answersTo_of_field? hkeys)
      rw [if_neg he'] at hkeys
      have hrest : fs.Turns e e' Eq := turns_of_field? hkeys fun l' s' hfield => h l' s' ((if_neg he).trans hfield)
      exact (Turns.later (Bool.not_eq_true _ ▸ he) (Bool.not_eq_true _ ▸ he') hrest).mono fun _ _ h =>
        Prod.ext h.1 h.2

theorem Fields.putValue_foreign : ∀ {fs : Fields} (slots : fs.Slots) {key : String} (v : Value),
    fs.field? key = none → fs.putValue slots key v = .ok slots
  | .nil, _, _, _, _ => rfl
  | .cons l s fs, (slot, slots), key, v, h => by
    rw [Fields.field?] at h
    split at h
    · cases h
    · next ha =>
      refine (putValue_cons l s fs (slot, slots) key v).trans ?_
      rw [if_neg ha, fillRest, fs.putValue_foreign slots v h]
      rfl

/-- An entry under a key of no field adds nothing to a record. -/
theorem Fields.ofEntries_foreign (v : Value) (es : List (String × Value)) {key : String} (h : fs.field? key = none) :
    fs.ofEntries ((key, v) :: es) = fs.ofEntries es := by
  rw [Fields.ofEntries, List.foldlM_cons, Fields.putValue_foreign _ v h]
  rfl

end

section

variable {v v' : Value}

theorem Fields.TurnsItem.mono {i : Nat} {R R' : fs.Val → fs.Val → Prop} (h : fs.TurnsItem i v v' R)
    (hR : ∀ x x', R x x' → R' x x') : fs.TurnsItem i v v' R' := by
  intro wanted index pre post left x hpre hx
  obtain ⟨x', hx', hxx'⟩ := h wanted index pre post left x hpre hx
  exact ⟨x', hx', hR x x' hxx'⟩

theorem Fields.TurnsItem.first {R : s.Val → s.Val → Prop} (h : s.Turns v v' R) :
    (Fields.cons l s fs).TurnsItem 0 v v' fun a b => R a.1 b.1 ∧ a.2 = b.2 := by
  intro wanted index pre post left x hpre hx
  obtain rfl := List.eq_nil_of_length_eq_zero hpre
  obtain ⟨⟨y, vs⟩, hnext, hx⟩ := exists_ok_of_bind hx
  obtain ⟨⟨ys, left'⟩, hrest, hx⟩ := exists_ok_of_bind hx
  cases hx
  obtain ⟨_, hy, hpair⟩ := exists_ok_of_map hnext
  cases hpair
  obtain ⟨y', hy', hR⟩ := h y hy
  refine ⟨(y', ys), ?_, hR, rfl⟩
  change ((s.ofValue v').map (·, post) >>= fun (v, vs) =>
    fs.ofValues wanted (index + 1) vs >>= fun (rest, vs) => pure ((v, rest), vs)) = _
  rw [hy']
  change (fs.ofValues wanted (index + 1) post >>= fun (rest, vs) => pure ((y', rest), vs)) = _
  rw [hrest]
  rfl

theorem Fields.TurnsItem.later {i : Nat} {R : fs.Val → fs.Val → Prop} (h : fs.TurnsItem i v v' R) :
    (Fields.cons l s fs).TurnsItem (i + 1) v v' fun a b => a.1 = b.1 ∧ R a.2 b.2 := by
  intro wanted index pre post left x hpre hx
  cases pre with
  | nil => cases hpre
  | cons w pre =>
    obtain ⟨⟨y, vs⟩, hnext, hx⟩ := exists_ok_of_bind hx
    obtain ⟨⟨ys, left'⟩, hrest, hx⟩ := exists_ok_of_bind hx
    cases hx
    obtain ⟨_, hy, hpair⟩ := exists_ok_of_map hnext
    cases hpair
    obtain ⟨ys', hrest', hR⟩ := h wanted (index + 1) pre post _ ys (Nat.succ.inj hpre) hrest
    refine ⟨(y, ys'), ?_, rfl, hR⟩
    change ((s.ofValue w).map (·, pre ++ v' :: post) >>= fun (v, vs) =>
      fs.ofValues wanted (index + 1) vs >>= fun (rest, vs) => pure ((v, rest), vs)) = _
    rw [hy]
    change (fs.ofValues wanted (index + 1) (pre ++ v' :: post) >>= fun (rest, vs) => pure ((y, rest), vs)) = _
    rw [hrest']
    rfl

theorem Fields.turnsItem_of_item? : ∀ {fs : Fields} {i : Nat}, fs.item? i = some s → s.Turns v v' Eq →
    fs.TurnsItem i v v' Eq
  | .cons l s fs, 0, hi, h => by
    cases hi
    exact (TurnsItem.first h).mono fun _ _ h => Prod.ext h.1 h.2
  | .cons l s fs, i + 1, hi, h => by
    have hrest : fs.TurnsItem i v v' Eq := turnsItem_of_item? hi h
    exact hrest.later.mono fun _ _ h => Prod.ext h.1 h.2

/-! ## Replacing a part of a value -/

theorem Fields.Turns.object {title : String} {pre post : List (String × Value)} {e e' : String × Value}
    {R : fs.Val → fs.Val → Prop} (h : fs.Turns e e' R) :
    (Shape.record title fs).Turns (.object (pre ++ e :: post)) (.object (pre ++ e' :: post)) R :=
  h pre post

theorem Fields.TurnsItem.array {title : String} {pre post : List Value} {R : fs.Val → fs.Val → Prop}
    (h : fs.TurnsItem pre.length v v' R) :
    (Shape.record title fs).Turns (.array (pre ++ v :: post)) (.array (pre ++ v' :: post)) R := by
  intro x hx
  obtain ⟨⟨y, left⟩, hvs, hx⟩ := exists_ok_of_bind hx
  cases left with
  | cons _ _ => cases hx
  | nil =>
    obtain rfl : y = x := Except.ok.inj hx
    obtain ⟨y', hvs', hR⟩ := h _ _ pre post [] y rfl hvs
    refine ⟨y', ?_, hR⟩
    change (fs.ofValues (fs.wanted title) 0 (pre ++ v' :: post) >>= fun (v, left) =>
      noMore ((pre ++ v' :: post).length - left.length) left >>= fun _ => pure v) = _
    rw [hvs']
    rfl

theorem exists_of_forall₂_append_cons {α β : Type} {P : α → β → Prop} {a : α} {pre post : List α} {bs : List β}
    (h : List.Forall₂ P (pre ++ a :: post) bs) : ∃ b, bs[pre.length]? = some b ∧ P a b ∧
      ∀ a' b', P a' b' → List.Forall₂ P (pre ++ a' :: post) (bs.set pre.length b') := by
  induction pre generalizing bs with
  | nil =>
    cases h with
    | cons hab hrest => exact ⟨_, rfl, hab, fun a' b' hab' => .cons hab' hrest⟩
  | cons c pre ih =>
    cases h with
    | cons hcb hrest =>
      obtain ⟨b, hget, hab, hset⟩ := ih hrest
      exact ⟨b, hget, hab, fun a' b' hab' => .cons hcb (hset a' b' hab')⟩

theorem Shape.Turns.item {pre post : List Value} {R : s.Val → s.Val → Prop} (h : s.Turns v v' R) :
    (Shape.array s).Turns (.array (pre ++ v :: post)) (.array (pre ++ v' :: post)) fun (xs xs' : List s.Val) =>
      ∃ x x', xs[pre.length]? = some x ∧ xs' = xs.set pre.length x' ∧ R x x' := by
  intro (xs : List s.Val) hxs
  have hall : List.Forall₂ (fun v x => s.ofValue v = .ok x) (pre ++ v :: post) xs := mapM_eq_ok_iff.mp hxs
  obtain ⟨x, hget, hx, hset⟩ := exists_of_forall₂_append_cons hall
  obtain ⟨x', hx', hR⟩ := h x hx
  exact ⟨xs.set pre.length x', mapM_eq_ok_iff.mpr (hset v' x' hx'), x, x', hget, rfl, hR⟩

theorem Shape.Turns.optional {R : s.Val → s.Val → Prop} (hv : v ≠ .null) (hv' : v' ≠ .null) (h : s.Turns v v' R) :
    (Shape.optional s).Turns v v' fun (x x' : Option s.Val) => ∃ y y', x = some y ∧ x' = some y' ∧ R y y' := by
  intro x hx
  change optionOfValue s.ofValue v = .ok x at hx
  rw [optionOfValue_some _ hv] at hx
  obtain ⟨y, hy, rfl⟩ := exists_ok_of_map hx
  obtain ⟨y', hy', hR⟩ := h y hy
  refine ⟨(some y' : Option s.Val), ?_, y, y', rfl, rfl, hR⟩
  change optionOfValue s.ofValue v' = _
  rw [optionOfValue_some _ hv', hy']
  rfl

end

end Wire

end FarmClient
