/-
Reading undoes writing for every shape that is lawful: no optional holds
another, names are told apart, no two fields of a record answer to the same
key, and only what may be missing is left out (`Shape.Lawful`).
-/
import Mathlib.Data.List.Nodup
import FarmClient.Wire.ToValue
import FarmClient.Proofs.JsonWriting
import FarmClient.Proofs.ShapeReading

namespace FarmClient.Wire

open Json (Value Mismatch Number InRange)

/-! ## Lawful shapes -/

/-- The shape may be written as `null`. -/
def Shape.nullable : Shape → Bool
  | .optional _ => true
  | _ => false

def Fields.labels : Fields → List Label
  | .nil => []
  | .cons l _ fs => l :: fs.labels

/-- Neither label answers to the key of the other. -/
def Label.Apart (l l' : Label) : Prop := l.answersTo l'.key = false ∧ l'.answersTo l.key = false

mutual

def Shape.Lawful : Shape → Prop
  | .optional s => s.nullable = false ∧ s.Lawful
  | .array s | .pair s => s.Lawful
  | .name names => names.Nodup
  | .nameOr other names => names.Nodup ∧ other ∉ names
  | .record _ fs => fs.Lawful
  | _ => True

def Fields.Lawful : Fields → Prop
  | .nil => True
  | .cons l s fs =>
    s.Lawful ∧ (∀ l' ∈ fs.labels, l.Apart l') ∧ (l.omitNull = true → l.lenient = true) ∧ fs.Lawful

end

/-! ## One value -/

theorem inRange_of {low high n : Int} (wanted : String) (h : low ≤ n ∧ n < high) :
    inRange low high wanted (.integer n) = .ok n := by
  simp [inRange, h]

theorem toU32_toNat (n : UInt32) : toU32 (.integer n.toNat) = .ok n := by
  have hn := n.toNat_lt
  rw [toU32, inRange_of "u32" ⟨Int.natCast_nonneg _, Int.ofNat_lt.mpr hn⟩]
  simp [Except.map]

theorem toI64_toInt (n : Int64) : toI64 (.integer n.toInt) = .ok n := by
  have hn : -(Nat.pow 2 63 : Int) ≤ n.toInt ∧ n.toInt < Nat.pow 2 63 := ⟨n.le_toInt, n.toInt_lt⟩
  rw [toI64, inRange_of "i64" hn]
  simp [Except.map]

theorem toU64_toNat (n : UInt64) : toU64 (.integer n.toNat) = .ok n := by
  have hn := n.toNat_lt
  rw [toU64, inRange_of "u64" ⟨Int.natCast_nonneg _, Int.ofNat_lt.mpr hn⟩]
  simp [Except.map]

theorem nameIndex?_get {names : List String} (h : names.Nodup) (i : Fin names.length) :
    nameIndex? names (names.get i) = some i := by
  cases hn : nameIndex? names (names.get i) with
  | none => exact absurd (List.get_mem names i) (nameIndex?_eq_none_iff.mp hn)
  | some j => rw [h.get_inj_iff.mp (get_of_nameIndex? hn)]

theorem toName_get {names : List String} (h : names.Nodup) (i : Fin names.length) :
    toName names (names.get i) = .ok i := by
  rw [toName, nameIndex?_get h]

theorem Shape.toValue_ne_null {s : Shape} (h : s.nullable = false) (x : s.Val) : s.toValue x ≠ .null := by
  cases s with
  | optional s => cases h
  | nameOr other names =>
    cases x <;> rintro ⟨⟩
  | pair s => rintro ⟨⟩
  | _ => rintro ⟨⟩

/-- Only the empty value is written as `null`. -/
theorem Shape.empty?_of_toValue_null {s : Shape} (h : s.Lawful) {x : s.Val} (hx : s.toValue x = .null) :
    s.empty? = some x := by
  cases s with
  | optional s =>
    cases x with
    | none => rfl
    | some x => exact absurd hx (s.toValue_ne_null h.1 x)
  | _ => exact absurd hx (Shape.toValue_ne_null rfl x)

theorem optionOfValue_some {α : Type} (f : Value → Except Mismatch α) {v : Value} (h : v ≠ .null) :
    optionOfValue f v = (f v).map some := by
  cases v with
  | null => exact absurd rfl h
  | _ => rfl

theorem mapM_ok {α β ε : Type} {f : α → Except ε β} {g : β → α} (h : ∀ b, f (g b) = .ok b) (l : List β) :
    (l.map g).mapM f = .ok l := by
  induction l with
  | nil => rfl
  | cons b l ih =>
    rw [List.map_cons, List.mapM_cons, h, ih]
    rfl

/-! ## One record -/

/-- What holds of the entry of the first field and of all others holds of all. -/
theorem Fields.forall_mem_toEntries {l : Label} {s : Shape} {fs : Fields} {v : s.Val} {vs : fs.Val}
    {P : String × Value → Prop} (hfirst : P (l.key, s.toValue v)) (hrest : ∀ e ∈ fs.toEntries vs, P e) :
    ∀ e ∈ (Fields.cons l s fs).toEntries (v, vs), P e := by
  rw [Fields.toEntries]
  split
  · exact hrest
  · exact List.forall_mem_cons.mpr ⟨hfirst, hrest⟩

theorem Fields.keys_toEntries : ∀ (fs : Fields) (x : fs.Val), ∀ e ∈ fs.toEntries x, ∃ l ∈ fs.labels, l.key = e.1
  | .nil, _, _, he => by cases he
  | .cons l s fs, (v, vs), e, he => by
    refine Fields.forall_mem_toEntries (P := fun e => ∃ l' ∈ l :: fs.labels, l'.key = e.1)
      ⟨l, List.mem_cons_self, rfl⟩ (fun e he => ?_) e he
    obtain ⟨l', hl', hkey⟩ := Fields.keys_toEntries fs vs e he
    exact ⟨l', List.mem_cons_of_mem _ hl', hkey⟩

theorem Label.answersTo_key (l : Label) : l.answersTo l.key = true := by
  simp [Label.answersTo]

theorem Label.omits_eq_true {l : Label} {v : Value} (h : l.omits v = true) : v = .null ∧ l.omitNull = true := by
  cases v with
  | null => exact ⟨rfl, h⟩
  | _ => cases h

theorem Fields.keys_nodup : ∀ (fs : Fields), fs.Lawful → ∀ x : fs.Val, ((fs.toEntries x).map (·.1)).Nodup
  | .nil, _, _ => List.nodup_nil
  | .cons l s fs, h, (v, vs) => by
    obtain ⟨-, hapart, -, hfs⟩ := h
    rw [Fields.toEntries]
    split
    · exact fs.keys_nodup hfs vs
    · refine List.nodup_cons.mpr ⟨fun hm => ?_, fs.keys_nodup hfs vs⟩
      obtain ⟨e, he, hkey⟩ := List.mem_map.mp hm
      obtain ⟨l', hl', hkey'⟩ := fs.keys_toEntries vs e he
      have hno := (hapart l' hl').1
      rw [hkey'.trans hkey, l.answersTo_key] at hno
      cases hno

/-- No field of others answers, so nothing is asked of the value. -/
theorem Fields.plainAt_of_apart : ∀ (fs : Fields) {key : String} {v : Value},
    (∀ l ∈ fs.labels, l.answersTo key = false) → fs.PlainAt key v
  | .nil, _, _, _ => trivial
  | .cons l s fs, key, v, h =>
    ⟨fun ha => absurd ha (by simp [h l List.mem_cons_self]),
      fs.plainAt_of_apart fun l' hl' => h l' (List.mem_cons_of_mem _ hl')⟩

/-- Entries for the later fields leave the first slot alone. -/
theorem Fields.foldlM_putValue_rest {l : Label} {s : Shape} {fs : Fields} {es : List (String × Value)}
    (h : ∀ e ∈ es, l.answersTo e.1 = false) (slot : Option s.Val) (slots : fs.Slots) :
    es.foldlM (fun slots e => (Fields.cons l s fs).putValue slots e.1 e.2) (slot, slots) =
      (es.foldlM (fun slots e => fs.putValue slots e.1 e.2) slots).map fun slots => (slot, slots) := by
  induction es generalizing slots with
  | nil => rfl
  | cons e es ih =>
    have hput : (Fields.cons l s fs).putValue (slot, slots) e.1 e.2 =
        (fs.putValue slots e.1 e.2).map fun slots => (slot, slots) := by
      simp only [Fields.putValue, h e List.mem_cons_self, Bool.false_eq_true, if_false]
      rfl
    change ((Fields.cons l s fs).putValue (slot, slots) e.1 e.2 >>= fun slots =>
      es.foldlM (fun slots e => (Fields.cons l s fs).putValue slots e.1 e.2) slots) = _
    rw [List.foldlM_cons, hput]
    cases fs.putValue slots e.1 e.2 with
    | error m => rfl
    | ok slots' => exact ih (fun e he => h e (List.mem_cons_of_mem _ he)) slots'

mutual

/-- **Reading undoes writing.** -/
theorem Shape.ofValue_toValue : ∀ (s : Shape), s.Lawful → ∀ x : s.Val, s.ofValue (s.toValue x) = .ok x
  | .u32, _, n => toU32_toNat n
  | .i64, _, n => toI64_toInt n
  | .u64, _, n => toU64_toNat n
  | .f64, _, _ => rfl
  | .bool, _, _ => rfl
  | .text, _, _ => rfl
  | .optional s, h, none => rfl
  | .optional s, h, some x => by
    change optionOfValue s.ofValue (s.toValue x) = _
    rw [optionOfValue_some _ (s.toValue_ne_null h.1 x), s.ofValue_toValue h.2 x]
    rfl
  | .array s, h, xs => mapM_ok (Shape.ofValue_toValue s h) xs
  | .pair s, h, (a, b) => by
    change pairOfValue s.ofValue (.array [s.toValue a, s.toValue b]) = _
    simp only [pairOfValue, s.ofValue_toValue h]
    rfl
  | .name names, h, i => toName_get h i
  | .nameOr other names, h, none => congrArg Except.ok (nameIndex?_eq_none_iff.mpr h.2)
  | .nameOr other names, h, some i => congrArg Except.ok (nameIndex?_get h.1 i)
  | .record _ fs, h, x => by
    obtain ⟨slots, hslots, hx⟩ := Fields.foldlM_toEntries fs h x
    change (fs.toEntries x).foldlM (fun slots e => fs.putValue slots e.1 e.2) fs.noSlots >>= fs.complete = _
    rw [hslots]
    exact hx

/-- The entries of a record fill its slots. -/
theorem Fields.foldlM_toEntries : ∀ (fs : Fields), fs.Lawful → ∀ x : fs.Val, ∃ slots,
    (fs.toEntries x).foldlM (fun slots e => fs.putValue slots e.1 e.2) fs.noSlots = .ok slots ∧
      fs.complete slots = .ok x
  | .nil, _, _ => ⟨(), rfl, rfl⟩
  | .cons l s fs, h, (v, vs) => by
    obtain ⟨hs, hapart, homit, hfs⟩ := h
    obtain ⟨slots, hslots, hvs⟩ := Fields.foldlM_toEntries fs hfs vs
    -- the entries of the later fields go past the first slot, whatever it holds
    have hrest (e : String × Value) (he : e ∈ fs.toEntries vs) : l.answersTo e.1 = false := by
      obtain ⟨l', hl', hkey⟩ := fs.keys_toEntries vs e he
      exact hkey ▸ (hapart l' hl').1
    have hfold (slot : Option s.Val) :
        (fs.toEntries vs).foldlM (fun slots e => (Fields.cons l s fs).putValue slots e.1 e.2) (slot, fs.noSlots) =
          .ok (slot, slots) := by
      rw [Fields.foldlM_putValue_rest hrest, hslots]
      rfl
    rw [Fields.toEntries]
    split
    · -- a field that is left out is empty, and what is missing is read as empty
      next ho =>
      obtain ⟨hnull, hnone⟩ := Label.omits_eq_true ho
      have hmissing : l.missing? s = some v := by
        rw [Label.missing?, if_pos (homit hnone)]
        exact Shape.empty?_of_toValue_null hs hnull
      refine ⟨(none, slots), hfold none, ?_⟩
      simp only [Fields.complete, hmissing, hvs]
      rfl
    · refine ⟨(some v, slots), ?_, ?_⟩
      · have hput : (Fields.cons l s fs).putValue (none, fs.noSlots) l.key (s.toValue v) =
            .ok (some v, fs.noSlots) := by
          simp only [Fields.putValue, l.answersTo_key, if_true, s.ofValue_toValue hs v]
          rfl
        change ((Fields.cons l s fs).putValue (none, fs.noSlots) l.key (s.toValue v) >>= fun slots =>
          (fs.toEntries vs).foldlM (fun slots e => (Fields.cons l s fs).putValue slots e.1 e.2) slots) = _
        rw [hput]
        exact hfold (some v)
      · simp only [Fields.complete, hvs]
        rfl

end

theorem Fields.ofEntries_toEntries {fs : Fields} (h : fs.Lawful) (x : fs.Val) :
    fs.ofEntries (fs.toEntries x) = .ok x := by
  obtain ⟨slots, hslots, hx⟩ := fs.foldlM_toEntries h x
  rw [Fields.ofEntries, hslots]
  exact hx

/-! ## What is written -/

mutual

/-- Names are written as strings. -/
theorem Shape.toValue_plain : ∀ (s : Shape), s.Lawful → ∀ x : s.Val, s.Plain (s.toValue x)
  | .u32, _, _ | .i64, _, _ | .u64, _, _ | .f64, _, _ | .bool, _, _ | .text, _, _ | .name _, _, _ => trivial
  | .nameOr _ _, _, none | .nameOr _ _, _, some _ => trivial
  | .optional s, h, none => by
    change s.Plain .null
    cases s with
    | optional s => cases h.1
    | _ => trivial
  | .optional s, h, some x => s.toValue_plain h.2 x
  | .array s, h, xs => by
    intro v hv
    obtain ⟨x, -, rfl⟩ := List.mem_map.mp hv
    exact s.toValue_plain h x
  | .pair s, h, (a, b) => by
    intro v hv
    rcases List.mem_cons.mp hv with rfl | hv
    · exact s.toValue_plain h a
    · rw [List.mem_singleton.mp hv]
      exact s.toValue_plain h b
  | .record _ fs, h, x => fun e he => fs.plainAt_toEntries h x e he

theorem Fields.plainAt_toEntries : ∀ (fs : Fields), fs.Lawful → ∀ x : fs.Val, ∀ e ∈ fs.toEntries x,
    fs.PlainAt e.1 e.2
  | .nil, _, _, _, _ => trivial
  | .cons l s fs, h, (v, vs), e, he => by
    obtain ⟨hs, hapart, -, hfs⟩ := h
    have hfirst : (Fields.cons l s fs).PlainAt l.key (s.toValue v) :=
      ⟨fun _ => s.toValue_plain hs v, fs.plainAt_of_apart fun l' hl' => (hapart l' hl').2⟩
    refine Fields.forall_mem_toEntries (P := fun e => (Fields.cons l s fs).PlainAt e.1 e.2) hfirst (fun e he => ?_) e he
    obtain ⟨l', hl', hkey⟩ := fs.keys_toEntries vs e he
    have hno : ¬ l.answersTo e.1 = true := by simp [← hkey, (hapart l' hl').1]
    exact ⟨fun h => absurd h hno, fs.plainAt_toEntries hfs vs e he⟩

end

theorem depthItems_le_iff {vs : List Value} {n : Nat} : Value.depthItems vs ≤ n ↔ ∀ v ∈ vs, v.depth ≤ n := by
  induction vs with
  | nil => simp [Value.depthItems]
  | cons v vs ih => rw [Value.depthItems, Nat.max_le, ih, List.forall_mem_cons]

theorem depthEntries_le_iff {es : List (String × Value)} {n : Nat} :
    Value.depthEntries es ≤ n ↔ ∀ e ∈ es, e.2.depth ≤ n := by
  induction es with
  | nil => simp [Value.depthEntries]
  | cons e es ih => rw [Value.depthEntries, Nat.max_le, ih, List.forall_mem_cons]

mutual

/-- How many containers a value of the shape opens around each other, at most. -/
def Shape.depth : Shape → Nat
  | .optional s => s.depth
  | .array s | .pair s => s.depth + 1
  | .record _ fs => fs.depth + 1
  | _ => 0

def Fields.depth : Fields → Nat
  | .nil => 0
  | .cons _ s fs => max s.depth fs.depth

end

mutual

theorem Shape.toValue_depth : ∀ (s : Shape) (x : s.Val), (s.toValue x).depth ≤ s.depth
  | .u32, _ | .i64, _ | .u64, _ | .f64, _ | .bool, _ | .text, _ | .name _, _ => Nat.le_refl 0
  | .nameOr _ _, none | .nameOr _ _, some _ => Nat.le_refl 0
  | .optional s, none => Nat.zero_le _
  | .optional s, some x => s.toValue_depth x
  | .array s, xs => by
    refine Nat.succ_le_succ (depthItems_le_iff.mpr fun v hv => ?_)
    obtain ⟨x, -, rfl⟩ := List.mem_map.mp hv
    exact s.toValue_depth x
  | .pair s, (a, b) =>
    Nat.succ_le_succ (Nat.max_le.mpr ⟨s.toValue_depth a, Nat.max_le.mpr ⟨s.toValue_depth b, Nat.zero_le _⟩⟩)
  | .record _ fs, x => Nat.succ_le_succ (depthEntries_le_iff.mpr (fs.toEntries_depth x))

theorem Fields.toEntries_depth : ∀ (fs : Fields) (x : fs.Val), ∀ e ∈ fs.toEntries x, e.2.depth ≤ fs.depth
  | .nil, _, _, he => by cases he
  | .cons l s fs, (v, vs), e, he =>
    Fields.forall_mem_toEntries (P := fun e => e.2.depth ≤ max s.depth fs.depth)
      (Nat.le_trans (s.toValue_depth v) (Nat.le_max_left _ _))
      (fun e he => Nat.le_trans (fs.toEntries_depth vs e he) (Nat.le_max_right _ _)) e he

end

theorem mem_numbersOfItems {x : Number} {vs : List Value} : x ∈ Value.numbersOfItems vs ↔ ∃ v ∈ vs, x ∈ v.numbers := by
  induction vs with
  | nil => simp [Value.numbersOfItems]
  | cons v vs ih => simp [Value.numbersOfItems, ih]

theorem mem_numbersOfEntries {x : Number} {es : List (String × Value)} :
    x ∈ Value.numbersOfEntries es ↔ ∃ e ∈ es, x ∈ e.2.numbers := by
  induction es with
  | nil => simp [Value.numbersOfEntries]
  | cons e es ih => simp [Value.numbersOfEntries, ih]

theorem inRange_of_bounds {n : Int} (hlow : -9223372036854775808 ≤ n) (hhigh : n < 18446744073709551616) : InRange n :=
  ⟨hlow, hhigh⟩

mutual

/-- Integers on the wire have 64 bits. -/
theorem Shape.toValue_inRange : ∀ (s : Shape) (x : s.Val) {n : Int}, .integer n ∈ (s.toValue x).numbers → InRange n
  | .u32, m, _, h => by
    cases List.mem_singleton.mp h
    have hm := m.toNat_lt
    exact inRange_of_bounds (by omega) (by omega)
  | .i64, m, _, h => by
    cases List.mem_singleton.mp h
    have hlow := m.le_toInt
    have hhigh := m.toInt_lt
    exact inRange_of_bounds (by omega) (by omega)
  | .u64, m, _, h => by
    cases List.mem_singleton.mp h
    have hm := m.toNat_lt
    exact inRange_of_bounds (by omega) (by omega)
  | .f64, _, _, h => by cases List.mem_singleton.mp h
  | .bool, _, _, h | .text, _, _, h | .name _, _, _, h => by cases h
  | .nameOr _ _, none, _, h | .nameOr _ _, some _, _, h | .optional _, none, _, h => by cases h
  | .optional s, some x, _, h => s.toValue_inRange x h
  | .array s, xs, _, h => by
    obtain ⟨v, hv, h⟩ := mem_numbersOfItems.mp h
    obtain ⟨x, -, rfl⟩ := List.mem_map.mp hv
    exact s.toValue_inRange x h
  | .pair s, (a, b), _, h => by
    obtain ⟨v, hv, h⟩ := mem_numbersOfItems.mp h
    rcases List.mem_cons.mp hv with rfl | hv
    · exact s.toValue_inRange a h
    · rw [List.mem_singleton.mp hv] at h
      exact s.toValue_inRange b h
  | .record _ fs, x, _, h => by
    obtain ⟨e, he, h⟩ := mem_numbersOfEntries.mp h
    exact fs.toEntries_inRange x e he h

theorem Fields.toEntries_inRange : ∀ (fs : Fields) (x : fs.Val), ∀ e ∈ fs.toEntries x, ∀ {n : Int},
    .integer n ∈ e.2.numbers → InRange n
  | .nil, _, _, he, _, _ => by cases he
  | .cons l s fs, (v, vs), e, he, n, h =>
    Fields.forall_mem_toEntries (P := fun e => .integer n ∈ e.2.numbers → InRange n) (s.toValue_inRange v)
      (fun e he => fs.toEntries_inRange vs e he) e he h

end

/-! ## Texts -/

/-- The doubles in a value are read back from their texts. -/
def DoublesReadBack (v : Value) : Prop := ∀ x : Float, Number.double x ∈ v.numbers → (Number.double x).ReadsBack

theorem Shape.text_spelt (s : Shape) (x : s.Val) (h : DoublesReadBack (s.toValue x)) :
    Json.Spells (s.toValue x).text.toList (s.toValue x) := by
  rw [Value.text, String.toList_ofList]
  refine Value.write_spelt _ fun y hy => ?_
  cases y with
  | integer n => exact Number.readsBack_integer (s.toValue_inRange x hy)
  | double y => exact h y hy

/-- **A text that has been written is read back.** -/
theorem Shape.read_text {s : Shape} (hl : s.Lawful) (x : s.Val) (h : DoublesReadBack (s.toValue x)) :
    s.read (s.toValue x).text.toList = .ok x :=
  (s.read_alike (s.text_spelt x h) (s.toValue_plain hl x)).ok_iff.mpr (s.ofValue_toValue hl x)

end FarmClient.Wire
