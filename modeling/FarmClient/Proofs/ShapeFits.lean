/-
Which values a shape has, told from the values alone (`Shape.Fits`), and what
is never wrong with one that it does not have. A record is an object in which
each field stands once, or not at all if it may be missing, or an array of its
fields in order.
-/
import FarmClient.Proofs.RecordReading

namespace FarmClient

open Json (Value Mismatch Number exists_ok_of_bind exists_ok_of_map)

namespace Wire

/-! ## Values of a shape -/

/-- A value names something: as a text, or as the only key of an object with nothing under it. -/
inductive Names (name : String) : Value → Prop
  | text : Names name (.string name)
  | key : Names name (.object [(name, .null)])
  | emptyKey : Names name (.object [(name, .object [])])

/-- An integer within bounds. -/
def Whole (low high : Int) (v : Value) : Prop := ∃ n : Int, v = .number (.integer n) ∧ low ≤ n ∧ n < high

mutual

/-- A value is of a shape. -/
def Shape.Fits : Shape → Value → Prop
  | .u32, v => Whole 0 UInt32.size v
  | .i64, v => Whole (-Nat.pow 2 63) (Nat.pow 2 63) v
  | .u64, v => Whole 0 UInt64.size v
  | .f64, v => ∃ x, v = .number x
  | .bool, v => ∃ b, v = .bool b
  | .text, v => ∃ s, v = .string s
  | .optional s, v => v = .null ∨ s.Fits v
  | .array s, v => ∃ items, v = .array items ∧ ∀ w ∈ items, s.Fits w
  | .pair s, v => ∃ a b, v = .array [a, b] ∧ s.Fits a ∧ s.Fits b
  | .name names, v => ∃ name ∈ names, Names name v
  | .nameOr _ _, v => ∃ name, Names name v
  | .record _ fs, v => (∃ es, v = .object es ∧ fs.Present es) ∨ ∃ items, v = .array items ∧ fs.InOrder items

/-- Each field stands once under its keys, or is missing and may be. -/
def Fields.Present : Fields → List (String × Value) → Prop
  | .nil, _ => True
  | .cons l s fs, es =>
    ((∃ e, (es.filter fun e => l.answersTo e.1) = [e] ∧ s.Fits e.2) ∨
      (∀ e ∈ es, l.answersTo e.1 = false) ∧ (l.missing? s).isSome = true) ∧
    fs.Present (es.filter fun e => !l.answersTo e.1)

/-- The items are the fields in order; those at the end are missing if they may be. -/
def Fields.InOrder : Fields → List Value → Prop
  | .nil, items => items = []
  | .cons l s fs, [] => (l.missing? s).isSome = true ∧ fs.InOrder []
  | .cons _ s fs, v :: items => s.Fits v ∧ fs.InOrder items

end

/-! ## What is read is what fits -/

theorem numberOfValue_whole {α : Type} {wanted : String} {low high : Int} {f : Int → α} {v : Value} :
    (∃ x, numberOfValue wanted (fun n => (inRange low high wanted n).map f) v = .ok x) ↔ Whole low high v := by
  constructor
  · rintro ⟨x, h⟩
    cases v with
    | number n =>
      obtain ⟨i, hi, -⟩ := exists_ok_of_map h
      cases n with
      | integer n =>
        refine ⟨n, rfl, ?_⟩
        by_contra hn
        simp [inRange, hn] at hi
      | double y => cases hi
    | _ => cases h
  · rintro ⟨n, rfl, hn⟩
    exact ⟨f n, by simp [numberOfValue, inRange, hn, Except.map]⟩

theorem nameOfValue_names {α : Type} {take : String → Except Mismatch α} {v : Value} :
    (∃ x, nameOfValue take v = .ok x) ↔ ∃ name, Names name v ∧ ∃ x, take name = .ok x := by
  constructor
  · rintro ⟨x, h⟩
    match v, h with
    | .string name, h => exact ⟨name, .text, x, h⟩
    | .object [(key, w)], h =>
      obtain ⟨a, ha, h⟩ := exists_ok_of_bind h
      obtain ⟨⟨⟩, hw, -⟩ := exists_ok_of_bind h
      match w, hw with
      | .null, _ => exact ⟨key, .key, a, ha⟩
      | .object [], _ => exact ⟨key, .emptyKey, a, ha⟩
  · rintro ⟨name, hn, x, hx⟩
    cases hn with
    | text => exact ⟨x, hx⟩
    | key | emptyKey =>
      refine ⟨x, ?_⟩
      change (take name >>= fun a => _) = _
      rw [hx]
      rfl

theorem exists_map_iff {ε α β : Type} {x : Except ε α} {f : α → β} :
    (∃ b, x.map f = .ok b) ↔ ∃ a, x = .ok a := by
  cases x with
  | error e => exact iff_of_false (by rintro ⟨b, ⟨⟩⟩) (by rintro ⟨a, ⟨⟩⟩)
  | ok a => exact iff_of_true ⟨f a, rfl⟩ ⟨a, rfl⟩

theorem exists_mapM_iff {ε α β : Type} {f : α → Except ε β} {l : List α} :
    (∃ r, l.mapM f = .ok r) ↔ ∀ a ∈ l, ∃ b, f a = .ok b := by
  simp only [mapM_eq_ok_iff]
  induction l with
  | nil => simp
  | cons a l ih =>
    rw [List.forall_mem_cons, ← ih]
    constructor
    · rintro ⟨r, h⟩
      cases h with
      | cons hb hrest => exact ⟨⟨_, hb⟩, _, hrest⟩
    · rintro ⟨⟨b, hb⟩, r, hrest⟩
      exact ⟨b :: r, .cons hb hrest⟩

/-- A field is read from one entry, or from none if it may be missing. -/
theorem Label.exists_take_iff {l : Label} {s : Shape} {es : List (String × Value)} : (∃ x, l.take s es = .ok x) ↔
    (∃ e, es = [e] ∧ ∃ x, s.ofValue e.2 = .ok x) ∨ es = [] ∧ (l.missing? s).isSome = true := by
  match es with
  | [] =>
    rw [take]
    cases l.missing? s with
    | none => exact iff_of_false (by rintro ⟨x, ⟨⟩⟩) (by rintro (⟨e, ⟨⟩, -⟩ | ⟨-, ⟨⟩⟩))
    | some x => exact iff_of_true ⟨x, rfl⟩ (.inr ⟨rfl, rfl⟩)
  | [e] => exact ⟨fun h => .inl ⟨e, rfl, h⟩, by rintro (⟨_, ⟨⟩, h⟩ | ⟨⟨⟩, -⟩); exact h⟩
  | _ :: _ :: _ => exact iff_of_false (by rintro ⟨x, ⟨⟩⟩) (by rintro (⟨e, ⟨⟩, -⟩ | ⟨⟨⟩, -⟩))

theorem Fields.exists_ofValues_cons_iff {l : Label} {s : Shape} {fs : Fields} {wanted : String} {index : Nat}
    {items : List Value} : (∃ x, (Fields.cons l s fs).ofValues wanted index items = .ok (x, [])) ↔
      ∃ y left, nextFieldValue s.ofValue (l.missing? s) index wanted items = .ok (y, left) ∧
        ∃ ys, fs.ofValues wanted (index + 1) left = .ok (ys, []) := by
  constructor
  · rintro ⟨x, h⟩
    obtain ⟨⟨y, left⟩, hy, h⟩ := exists_ok_of_bind h
    obtain ⟨⟨ys, left'⟩, hys, h⟩ := exists_ok_of_bind h
    cases h
    exact ⟨y, left, hy, ys, hys⟩
  · rintro ⟨y, left, hy, ys, hys⟩
    refine ⟨(y, ys), ?_⟩
    simp only [Fields.ofValues, hy, hys, bind, Except.bind, pure, Except.pure]

theorem exists_toName_iff {names : List String} {name : String} : (∃ i, toName names name = .ok i) ↔ name ∈ names := by
  rw [toName]
  cases h : nameIndex? names name with
  | none => simpa using nameIndex?_eq_none_iff.mp h
  | some i => simpa using get_of_nameIndex? h ▸ List.get_mem names i

mutual

/-- **A value can be read as a shape exactly if it is of that shape.** -/
theorem Shape.exists_ofValue_iff : ∀ (s : Shape) {v : Value}, (∃ x, s.ofValue v = .ok x) ↔ s.Fits v
  | .u32, _ | .i64, _ | .u64, _ => numberOfValue_whole
  | .f64, v => by
    cases v with
    | number x => exact iff_of_true ⟨_, rfl⟩ ⟨x, rfl⟩
    | _ => exact iff_of_false (by rintro ⟨x, ⟨⟩⟩) (by rintro ⟨x, ⟨⟩⟩)
  | .bool, v => by
    cases v with
    | bool b => exact iff_of_true ⟨_, rfl⟩ ⟨b, rfl⟩
    | _ => exact iff_of_false (by rintro ⟨x, ⟨⟩⟩) (by rintro ⟨x, ⟨⟩⟩)
  | .text, v => by
    cases v with
    | string t => exact iff_of_true ⟨_, rfl⟩ ⟨t, rfl⟩
    | _ => exact iff_of_false (by rintro ⟨x, ⟨⟩⟩) (by rintro ⟨x, ⟨⟩⟩)
  | .optional s, v => by
    by_cases hv : v = .null
    · rw [hv]
      exact iff_of_true ⟨_, rfl⟩ (.inl rfl)
    · have hread : (∃ x, optionOfValue s.ofValue v = .ok x) ↔ s.Fits v := by
        rw [optionOfValue_some _ hv, exists_map_iff]
        exact s.exists_ofValue_iff
      exact hread.trans (or_iff_right hv).symm
  | .array s, v => by
    cases v with
    | array items =>
      have hread : (∃ xs, items.mapM s.ofValue = .ok xs) ↔ ∀ w ∈ items, s.Fits w :=
        exists_mapM_iff.trans (forall₂_congr fun _ _ => s.exists_ofValue_iff)
      exact hread.trans ⟨fun h => ⟨items, rfl, h⟩, by rintro ⟨_, ⟨⟩, h⟩; exact h⟩
    | _ => exact iff_of_false (by rintro ⟨x, ⟨⟩⟩) (by rintro ⟨x, ⟨⟩, -⟩)
  | .pair s, v => by
    constructor
    · rintro ⟨x, h⟩
      match v, h with
      | .array [], h => cases h
      | .array [a], h =>
        obtain ⟨_, -, h⟩ := exists_ok_of_bind h
        cases h
      | .array [a, b], h =>
        obtain ⟨x, ha, h⟩ := exists_ok_of_bind h
        obtain ⟨y, hb, -⟩ := exists_ok_of_bind h
        exact ⟨a, b, rfl, s.exists_ofValue_iff.mp ⟨x, ha⟩, s.exists_ofValue_iff.mp ⟨y, hb⟩⟩
      | .array (_ :: _ :: _ :: _), h =>
        obtain ⟨_, -, h⟩ := exists_ok_of_bind h
        obtain ⟨_, -, h⟩ := exists_ok_of_bind h
        cases h
    · rintro ⟨a, b, rfl, ha, hb⟩
      obtain ⟨x, hx⟩ := s.exists_ofValue_iff.mpr ha
      obtain ⟨y, hy⟩ := s.exists_ofValue_iff.mpr hb
      refine ⟨(x, y), ?_⟩
      change (s.ofValue a >>= fun x => s.ofValue b >>= fun y => noMore 2 [] >>= fun _ => pure (x, y)) = _
      rw [hx, hy]
      rfl
  | .name names, v => nameOfValue_names.trans (exists_congr fun _ => and_comm.trans (and_congr_left' exists_toName_iff))
  | .nameOr _ names, v => nameOfValue_names.trans (exists_congr fun _ => and_iff_left ⟨_, rfl⟩)
  | .record title fs, v => by
    cases v with
    | object es =>
      have hread : (∃ x, fs.ofEntries es = .ok x) ↔ fs.Present es := fs.exists_ofEntries_iff
      exact hread.trans ⟨fun h => .inl ⟨es, rfl, h⟩, by rintro (⟨_, ⟨⟩, h⟩ | ⟨_, ⟨⟩, -⟩); exact h⟩
    | array items =>
      have hread : (∃ x, fs.ofValues (fs.wanted title) 0 items = .ok (x, [])) ↔ fs.InOrder items :=
        fs.exists_ofValues_iff _ 0
      constructor
      · rintro ⟨x, h⟩
        obtain ⟨⟨y, left⟩, hvs, h⟩ := exists_ok_of_bind h
        cases left with
        | nil => exact .inr ⟨items, rfl, hread.mp ⟨y, hvs⟩⟩
        | cons _ _ => cases h
      · rintro (⟨_, ⟨⟩, -⟩ | ⟨_, ⟨⟩, h⟩)
        obtain ⟨x, hx⟩ := hread.mpr h
        refine ⟨x, ?_⟩
        change (fs.ofValues (fs.wanted title) 0 items >>= fun (v, left) =>
          noMore (items.length - left.length) left >>= fun _ => pure v) = _
        rw [hx]
        rfl
    | _ => exact iff_of_false (by rintro ⟨x, ⟨⟩⟩) (by rintro (⟨x, ⟨⟩, -⟩ | ⟨x, ⟨⟩, -⟩))

theorem Fields.exists_ofEntries_iff : ∀ (fs : Fields) {es : List (String × Value)},
    (∃ x, fs.ofEntries es = .ok x) ↔ fs.Present es
  | .nil, es => iff_of_true ⟨(), Fields.ofEntries_nil es⟩ trivial
  | .cons l s fs, es => by
    have hfirst : (∃ x, l.take s (es.filter fun e => l.answersTo e.1) = .ok x) ↔
        (∃ e, (es.filter fun e => l.answersTo e.1) = [e] ∧ s.Fits e.2) ∨
          (∀ e ∈ es, l.answersTo e.1 = false) ∧ (l.missing? s).isSome = true := by
      rw [Label.exists_take_iff, List.filter_eq_nil_iff]
      simp only [s.exists_ofValue_iff, Bool.not_eq_true]
    have hpair : (∃ x, (Fields.cons l s fs).ofEntries es = .ok x) ↔
        (∃ x, l.take s (es.filter fun e => l.answersTo e.1) = .ok x) ∧
          ∃ xs, fs.ofEntries (es.filter fun e => !l.answersTo e.1) = .ok xs := by
      constructor
      · rintro ⟨⟨x, xs⟩, h⟩
        obtain ⟨hx, hxs⟩ := Fields.ofEntries_cons_eq_ok_iff.mp h
        exact ⟨⟨x, hx⟩, xs, hxs⟩
      · rintro ⟨⟨x, hx⟩, xs, hxs⟩
        exact ⟨(x, xs), Fields.ofEntries_cons_eq_ok_iff.mpr ⟨hx, hxs⟩⟩
    exact hpair.trans (and_congr hfirst fs.exists_ofEntries_iff)

theorem Fields.exists_ofValues_iff : ∀ (fs : Fields) (wanted : String) (index : Nat) {items : List Value},
    (∃ x, fs.ofValues wanted index items = .ok (x, [])) ↔ fs.InOrder items
  | .nil, wanted, index, items => by
    cases items with
    | nil => exact iff_of_true ⟨(), rfl⟩ rfl
    | cons v items => exact iff_of_false (by rintro ⟨x, ⟨⟩⟩) (by rintro ⟨⟩)
  | .cons l s fs, wanted, index, items => by
    have hrest (items : List Value) : (∃ x, fs.ofValues wanted (index + 1) items = .ok (x, [])) ↔ fs.InOrder items :=
      fs.exists_ofValues_iff wanted (index + 1)
    rw [Fields.exists_ofValues_cons_iff]
    cases items with
    | nil =>
      rw [Fields.InOrder, ← hrest]
      cases l.missing? s with
      | none => exact iff_of_false (by rintro ⟨y, left, ⟨⟩, -⟩) (by rintro ⟨⟨⟩, -⟩)
      | some y => exact ⟨by rintro ⟨_, _, ⟨⟩, h⟩; exact ⟨rfl, h⟩, fun h => ⟨y, [], rfl, h.2⟩⟩
    | cons v items =>
      rw [Fields.InOrder, ← hrest, ← s.exists_ofValue_iff]
      constructor
      · rintro ⟨y, left, hy, h⟩
        obtain ⟨y, hv, hpair⟩ := exists_ok_of_map hy
        cases hpair
        exact ⟨⟨y, hv⟩, h⟩
      · rintro ⟨⟨y, hv⟩, h⟩
        exact ⟨y, items, congrArg (Except.map (·, items)) hv, h⟩

end

/-! ## What is never wrong -/

/-- Something is wrong with a kind: it is missing, or its name is not known. -/
def OfKind : Mismatch → Prop
  | .missingField key => key = "type"
  | .unknownVariant _ _ => True
  | _ => False

/-- Nothing is wrong with a kind. -/
def KindSound {α : Type} (x : Except Mismatch α) : Prop := ∀ e, x = .error e → ¬ OfKind e

namespace KindSound

variable {α β : Type}

theorem ok (a : α) : KindSound (.ok a : Except Mismatch α) := by
  rintro e ⟨⟩

theorem error {e : Mismatch} (h : ¬ OfKind e) : KindSound (.error e : Except Mismatch α) := by
  rintro _ ⟨⟩
  exact h

theorem bind {x : Except Mismatch α} {f : α → Except Mismatch β} (hx : KindSound x) (hf : ∀ a, KindSound (f a)) :
    KindSound (x >>= f) := by
  cases x with
  | error e => exact error (hx e rfl)
  | ok a => exact hf a

theorem map {x : Except Mismatch α} {f : α → β} (hx : KindSound x) : KindSound (x.map f) := by
  cases x with
  | error e => exact error (hx e rfl)
  | ok a => exact ok _

theorem mapM {f : α → Except Mismatch β} (h : ∀ a, KindSound (f a)) (l : List α) : KindSound (l.mapM f) := by
  induction l with
  | nil => exact ok []
  | cons a l ih =>
    rw [List.mapM_cons]
    exact (h a).bind fun b => ih.bind fun bs => ok (b :: bs)

theorem foldlM {f : β → α → Except Mismatch β} (h : ∀ b a, KindSound (f b a)) (b : β) (l : List α) :
    KindSound (l.foldlM f b) := by
  induction l generalizing b with
  | nil => exact ok b
  | cons a l ih =>
    rw [List.foldlM_cons]
    exact (h b a).bind fun b => ih b

end KindSound

mutual

/-- Nothing in a shape is one of some names alone, and no field under `type` has to be there. -/
def Shape.Kindless : Shape → Prop
  | .name _ => False
  | .optional s | .array s | .pair s => s.Kindless
  | .record _ fs => fs.Kindless
  | _ => True

def Fields.Kindless : Fields → Prop
  | .nil => True
  | .cons l s fs => (l.key = "type" → (l.missing? s).isSome = true) ∧ s.Kindless ∧ fs.Kindless

end

theorem Fields.complete_kindSound : ∀ {fs : Fields}, fs.Kindless → ∀ slots : fs.Slots, KindSound (fs.complete slots)
  | .nil, _, _ => .ok ()
  | .cons l s fs, ⟨hl, _, hfs⟩, (slot, slots) => by
    have hrest : KindSound (fs.complete slots) := complete_kindSound hfs slots
    rw [complete]
    cases hs : slot <|> l.missing? s with
    | none =>
      refine .error fun hkey => ?_
      have hnone : l.missing? s = none := by
        cases slot with
        | none => exact hs
        | some x => cases hs
      rw [hnone] at hl
      exact absurd (hl hkey) (by simp)
    | some x => exact hrest.bind fun xs => .ok _

theorem numberOfValue_kindSound {α : Type} {wanted : String} {low high : Int} {f : Int → α} (v : Value) :
    KindSound (numberOfValue wanted (fun n => (inRange low high wanted n).map f) v) := by
  cases v with
  | number n =>
    refine .map ?_
    cases n with
    | integer n =>
      rw [inRange]
      split
      · exact .ok n
      · exact .error id
    | double x => exact .error id
  | _ => exact .error id

theorem noMore_kindSound (taken : Nat) (left : List Value) : KindSound (noMore taken left) := by
  cases left with
  | nil => exact .ok ()
  | cons v left => exact .error id

theorem unitOfValue_kindSound (v : Value) : KindSound (unitOfValue v) := by
  match v with
  | .null | .object [] => exact .ok ()
  | .object (_ :: _) | .bool _ | .number _ | .string _ | .array _ => exact .error id

mutual

/-- **A value of the wrong shape** is not blamed for a kind. -/
theorem Shape.ofValue_kindSound : ∀ (s : Shape), s.Kindless → ∀ v, KindSound (s.ofValue v)
  | .u32, _, v | .i64, _, v | .u64, _, v => numberOfValue_kindSound v
  | .f64, _, v => by
    cases v with
    | number n => exact .ok _
    | _ => exact .error id
  | .bool, _, v => by
    cases v with
    | bool b => exact .ok _
    | _ => exact .error id
  | .text, _, v => by
    cases v with
    | string t => exact .ok _
    | _ => exact .error id
  | .optional s, h, v => by
    cases v with
    | null => exact .ok _
    | _ => exact (s.ofValue_kindSound h _).map
  | .array s, h, v => by
    cases v with
    | array items => exact .mapM (s.ofValue_kindSound h) items
    | _ => exact .error id
  | .pair s, h, v => by
    match v with
    | .array [] => exact .error id
    | .array [a] => exact (s.ofValue_kindSound h a).bind fun _ => .error id
    | .array (a :: b :: rest) =>
      exact (s.ofValue_kindSound h a).bind fun x => (s.ofValue_kindSound h b).bind fun y =>
        (noMore_kindSound 2 rest).bind fun _ => .ok (x, y)
    | .null | .bool _ | .number _ | .string _ | .object _ => exact .error id
  | .nameOr _ names, _, v => by
    match v with
    | .string name => exact .ok _
    | .object [(key, w)] => exact .bind (.ok _) fun x => (unitOfValue_kindSound w).bind fun _ => .ok x
    | .object [] | .object (_ :: _ :: _) | .null | .bool _ | .number _ | .array _ => exact .error id
  | .record title fs, h, v => by
    cases v with
    | object es =>
      refine .bind (.foldlM (fun slots e => fs.putValue_kindSound h slots e.1 e.2) fs.noSlots es) fun slots => ?_
      exact Fields.complete_kindSound h slots
    | array items =>
      exact (fs.ofValues_kindSound h _ 0 items).bind fun (x, left) => (noMore_kindSound _ left).bind fun _ => .ok x
    | _ => exact .error id

theorem Fields.putValue_kindSound : ∀ (fs : Fields), fs.Kindless → ∀ (slots : fs.Slots) (key : String) (v : Value),
    KindSound (fs.putValue slots key v)
  | .nil, _, _, _, _ => .ok ()
  | .cons l s fs, ⟨_, hs, hfs⟩, slots, key, v => by
    rw [Fields.putValue_cons]
    split
    · match slots with
      | (none, _) => exact (s.ofValue_kindSound hs v).map
      | (some _, _) => exact .error id
    · exact (fs.putValue_kindSound hfs slots.2 key v).map

theorem Fields.ofValues_kindSound : ∀ (fs : Fields), fs.Kindless → ∀ (wanted : String) (index : Nat)
    (items : List Value), KindSound (fs.ofValues wanted index items)
  | .nil, _, _, _, items => .ok _
  | .cons l s fs, ⟨_, hs, hfs⟩, wanted, index, items => by
    have hnext : KindSound (nextFieldValue s.ofValue (l.missing? s) index wanted items) := by
      cases items with
      | nil =>
        cases l.missing? s with
        | none => exact .error id
        | some x => exact .ok _
      | cons v items => exact (s.ofValue_kindSound hs v).map
    exact hnext.bind fun (x, left) => (fs.ofValues_kindSound hfs wanted (index + 1) left).bind fun _ => .ok _

end

end Wire

end FarmClient
