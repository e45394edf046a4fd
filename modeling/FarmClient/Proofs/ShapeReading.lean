/-
A value of a shape is read in two ways: from the tree of a text, and from a
value that has been taken apart from its text before and whose objects have
been sorted. Both succeed with the same result or both fail (`Alike`): tree
and value if no name is spelt as an object (`Shape.Plain`), sorted and
unsorted if no object has a key twice (`Value.Distinct`). Why they fail is not
always the same: faults are met in the order in which things stand.
-/
import FarmClient.Proofs.JsonGrammar
import FarmClient.Proofs.MessageTags

namespace FarmClient

/-! ## Two computations that succeed together -/

section

variable {ε δ ζ α β α' β' : Type} {R : α → β → Prop} {S : α' → β' → Prop} {x : Except ε α} {y : Except δ β}

/-- Both give something, and what they give is related, or both fail. -/
inductive Alike (R : α → β → Prop) : Except ε α → Except δ β → Prop
  | ok {a b} : R a b → Alike R (.ok a) (.ok b)
  | error {e d} : Alike R (.error e) (.error d)

namespace Alike

theorem refl (x : Except ε α) : Alike Eq x x := by
  cases x with
  | ok a => exact .ok rfl
  | error e => exact .error

theorem trans {z : Except ζ β} (h : Alike R x y) (h' : Alike Eq y z) : Alike R x z := by
  cases h with
  | ok h =>
    cases h' with
    | ok h' => exact .ok (h' ▸ h)
  | error =>
    cases h' with
    | error => exact .error

theorem symm {x : Except ε α} {y : Except δ α} (h : Alike Eq x y) : Alike Eq y x := by
  cases h with
  | ok h => exact .ok h.symm
  | error => exact .error

theorem bind {f : α → Except ε α'} {g : β → Except δ β'} (h : Alike R x y)
    (hfg : ∀ a b, R a b → Alike S (f a) (g b)) : Alike S (x >>= f) (y >>= g) := by
  cases h with
  | ok h => exact hfg _ _ h
  | error => exact .error

theorem map {f : α → α'} {g : β → β'} (h : Alike R x y) (hfg : ∀ a b, R a b → S (f a) (g b)) :
    Alike S (x.map f) (y.map g) := by
  cases h with
  | ok h => exact .ok (hfg _ _ h)
  | error => exact .error

theorem map_left {f : α → α'} {S : α' → β → Prop} (h : Alike R x y) (hf : ∀ a b, R a b → S (f a) b) :
    Alike S (x.map f) y := by
  cases h with
  | ok h => exact .ok (hf _ _ h)
  | error => exact .error

theorem ok_iff {x : Except ε α} {y : Except δ α} (h : Alike Eq x y) {a : α} : x = .ok a ↔ y = .ok a := by
  cases h with
  | ok h => subst h; simp
  | error => simp

theorem exists_of_ok {a : α} (h : Alike R (.ok a : Except ε α) y) : ∃ b, y = .ok b ∧ R a b := by
  cases h with
  | ok h => exact ⟨_, rfl, h⟩

theorem ok_iff_of_injective {g : β → α} (hg : Function.Injective g) (h : Alike (fun a b => a = g b) x y) {b : β} :
    x = .ok (g b) ↔ y = .ok b := by
  cases h with
  | ok h => subst h; simp [hg.eq_iff]
  | error => simp

theorem error_iff (h : Alike R x y) : (∃ e, x = .error e) ↔ ∃ d, y = .error d := by
  cases h <;> simp

theorem mapM {f : β → Except ε α} {g : β → Except δ α} {l : List β} (h : ∀ b ∈ l, Alike Eq (f b) (g b)) :
    Alike Eq (l.mapM f) (l.mapM g) := by
  induction l with
  | nil => exact .ok rfl
  | cons b l ih =>
    rw [List.mapM_cons, List.mapM_cons]
    refine (h b (by simp)).bind fun a a' ha => ?_
    exact (ih fun b hb => h b (by simp [hb])).bind fun as as' has => .ok (by rw [ha, has])

theorem foldlM {f : β → α → Except ε β} {g : β → α → Except δ β} {l : List α}
    (h : ∀ a ∈ l, ∀ b, Alike Eq (f b a) (g b a)) (b : β) : Alike Eq (l.foldlM f b) (l.foldlM g b) := by
  induction l generalizing b with
  | nil => exact .ok rfl
  | cons a l ih =>
    rw [List.foldlM_cons, List.foldlM_cons]
    exact (h a (by simp) b).bind fun b b' hb => hb ▸ ih (fun a ha => h a (by simp [ha])) b

/-- Steps that may be taken in any order give the same in any order. -/
theorem foldlM_perm {f : β → α → Except ε β} (hf : ∀ b a a', Alike Eq (f b a >>= (f · a')) (f b a' >>= (f · a)))
    {l l' : List α} (h : l.Perm l') (b : β) : Alike Eq (l.foldlM f b) (l'.foldlM f b) := by
  induction h generalizing b with
  | nil => exact refl _
  | cons a _ ih =>
    rw [List.foldlM_cons, List.foldlM_cons]
    exact (refl _).bind fun b b' hb => hb ▸ ih b
  | swap a a' l =>
    simp only [List.foldlM_cons, ← bind_assoc]
    exact (hf b a' a).bind fun b b' hb => hb ▸ refl _
  | trans _ _ ih ih' => exact (ih b).trans (ih' b)

end Alike

end

namespace Wire

open Json (Value Tree Items Entries Fault Mismatch)

/-! ## From the tree and from the value -/

mutual

/-- The value spells no name as an object where the shape wants one. -/
def Shape.Plain : Shape → Value → Prop
  | .name _, .object _ => False
  | .nameOr _ _, .object _ => False
  | .optional s, v => Shape.Plain s v
  | .array s, .array vs => ∀ v ∈ vs, Shape.Plain s v
  | .pair s, .array vs => ∀ v ∈ vs, Shape.Plain s v
  | .record _ fs, .object es => ∀ e ∈ es, Fields.PlainAt fs e.1 e.2
  | .record _ fs, .array vs => Fields.PlainItems fs vs
  | _, _ => True

def Fields.PlainAt : Fields → String → Value → Prop
  | .nil, _, _ => True
  | .cons l s fs, key, v => (l.answersTo key = true → Shape.Plain s v) ∧ Fields.PlainAt fs key v

def Fields.PlainItems : Fields → List Value → Prop
  | .cons _ s fs, v :: vs => Shape.Plain s v ∧ Fields.PlainItems fs vs
  | _, _ => True

end

theorem complain_alike {α : Type} (stop : Nat) (x : Except Mismatch α) : Alike Eq (complain stop x) x := by
  cases x with
  | ok a => exact .ok rfl
  | error m => exact .error

section

variable {t : Tree} {v : Value}

theorem numberOf_alike {α : Type} (wanted : String) (take : Json.Number → Except Mismatch α) (h : t.Means v) :
    Alike Eq (numberOf wanted take t) (numberOfValue wanted take v) := by
  cases h with
  | number => exact complain_alike _ _
  | _ => exact .error

theorem boolOf_alike (h : t.Means v) : Alike Eq (boolOf t) (boolOfValue v) := by
  cases h with
  | bool => exact .ok rfl
  | _ => exact .error

theorem textOf_alike (h : t.Means v) : Alike Eq (stringOf "a string" .ok t) (textOfValue v) := by
  cases h with
  | string => exact .ok rfl
  | _ => exact .error

theorem nameOf_alike {α : Type} (take : String → Except Mismatch α) (h : t.Means v) (hv : ∀ es, v ≠ .object es) :
    Alike Eq (nameOf take t) (nameOfValue take v) := by
  cases h with
  | string => exact complain_alike _ _
  | object _ => exact absurd rfl (hv _)
  | _ => exact .error

variable {α : Type} {f : Tree → Except Fault α} {g : Value → Except Mismatch α} {P : Value → Prop}

theorem optionOf_alike (hfg : ∀ {t v}, t.Means v → P v → Alike Eq (f t) (g v)) (h : t.Means v) (hv : P v) :
    Alike Eq (optionOf f t) (optionOfValue g v) := by
  cases h with
  | null => exact .ok rfl
  | bool | number | string => exact (hfg (by constructor) hv).map fun _ _ h => congrArg some h
  | array h => exact (hfg (.array h) hv).map fun _ _ h => congrArg some h
  | object h => exact (hfg (.object h) hv).map fun _ _ h => congrArg some h

theorem mapM_alike (hfg : ∀ {t v}, t.Means v → P v → Alike Eq (f t) (g v)) :
    ∀ {items : Items} {vs : List Value}, items.Means vs → (∀ v ∈ vs, P v) → Alike Eq (items.mapM f) (vs.mapM g)
  | _, _, .close, _ => .ok rfl
  | _, _, .item ht hi, hp => by
    rw [List.mapM_cons]
    refine (hfg ht (hp _ (by simp))).bind fun a a' ha => ?_
    refine (mapM_alike hfg hi fun v hv => hp v (by simp [hv])).bind fun as as' has => ?_
    exact .ok (by rw [ha, has])

theorem finish_alike {items : Items} {vs : List Value} (h : items.Means vs) (taken : Nat) :
    Alike (fun _ _ => True) items.finish (noMore taken vs) := by
  cases h with
  | close => exact .ok trivial
  | item _ _ => exact .error

theorem pairOf_alike (hfg : ∀ {t v}, t.Means v → P v → Alike Eq (f t) (g v)) (h : t.Means v)
    (hp : ∀ vs, v = .array vs → ∀ w ∈ vs, P w) : Alike Eq (pairOf f t) (pairOfValue g v) := by
  cases h with
  | array h =>
    replace hp := hp _ rfl
    cases h with
    | close => exact .error
    | @item _ _ a items _ ha h =>
      have hfirst : Alike (fun p b => p = (b, items)) _ (g a) :=
        (hfg ha (hp _ (by simp))).map_left (f := (·, items)) fun _ _ h => by rw [h]
      cases h with
      | close =>
        refine hfirst.bind fun p b hp => ?_
        subst hp
        exact .error
      | @item _ _ b items' vs hb h =>
        refine hfirst.bind fun p a' hp' => ?_
        subst hp'
        have hsecond : Alike (fun p b => p = (b, items')) _ (g b) :=
          (hfg hb (hp _ (by simp))).map_left (f := (·, items')) fun _ _ h => by rw [h]
        refine hsecond.bind fun p b' hp' => ?_
        subst hp'
        exact (finish_alike h 2).bind fun _ _ _ => .ok rfl
  | _ => exact .error

/-- What has been read, with what is left of the array. -/
def SameRest {α : Type} (a : α × Items) (b : α × List Value) : Prop := a.1 = b.1 ∧ a.2.Means b.2

theorem nextField_alike (hfg : ∀ {t v}, t.Means v → P v → Alike Eq (f t) (g v)) (missing : Option α) (index : Nat)
    (wanted : String) {items : Items} {vs : List Value} (h : items.Means vs) (hp : ∀ v, vs.head? = some v → P v) :
    Alike (fun a b => SameRest a b ∧ b.2 = vs.tail) (nextField f missing index wanted items)
      (nextFieldValue g missing index wanted vs) := by
  cases h with
  | close =>
    cases missing with
    | some a => exact .ok ⟨⟨rfl, .close⟩, rfl⟩
    | none => exact .error
  | item ht h => exact (hfg ht (hp _ rfl)).map fun a b hab => ⟨⟨hab, h⟩, rfl⟩

end

theorem fold_alike {σ : Type} {f : σ → String → Nat → Tree → Except Fault σ}
    {g : σ → String → Value → Except Mismatch σ} {P : String → Value → Prop}
    (hstep : ∀ s key settled t v, t.Means v → P key v → Alike Eq (f s key settled t) (g s key v)) :
    ∀ {entries : Entries} {es : List (String × Value)}, entries.Means es → (∀ e ∈ es, P e.1 e.2) → ∀ s,
      Alike (fun a b => a.1 = b) (entries.fold f s) (es.foldlM (fun s e => g s e.1 e.2) s)
  | _, _, .close, _, s => .ok rfl
  | _, _, .entry (k := k) ht he, hp, s => by
    rw [List.foldlM_cons]
    refine (hstep s k _ _ _ ht (hp (k, _) List.mem_cons_self)).bind fun s s' hs => ?_
    subst hs
    exact fold_alike hstep he (fun e h => hp e (List.mem_cons_of_mem _ h)) s

mutual

/-- **Reading alike**: a shape is read from a tree as from the value the tree has. -/
theorem Shape.ofTree_alike : ∀ (s : Shape) {t : Tree} {v : Value}, t.Means v → s.Plain v →
    Alike Eq (s.ofTree t) (s.ofValue v)
  | .u32, _, _, h, _ => numberOf_alike _ _ h
  | .i64, _, _, h, _ => numberOf_alike _ _ h
  | .u64, _, _, h, _ => numberOf_alike _ _ h
  | .f64, _, _, h, _ => numberOf_alike _ _ h
  | .bool, _, _, h, _ => boolOf_alike h
  | .text, _, _, h, _ => textOf_alike h
  | .optional s, _, v, h, hp => by
    rw [Shape.Plain] at hp
    exact optionOf_alike (Shape.ofTree_alike s) h hp
  | .array s, _, v, h, hp => by
    cases h with
    | array h =>
      exact mapM_alike (Shape.ofTree_alike s) h hp
    | _ => exact .error
  | .pair s, _, v, h, hp => by
    refine pairOf_alike (Shape.ofTree_alike s) h ?_
    rintro vs rfl
    exact hp
  | .name names, _, v, h, hp => by
    refine nameOf_alike _ h ?_
    rintro es rfl
    exact hp
  | .nameOr other names, _, v, h, hp => by
    refine nameOf_alike _ h ?_
    rintro es rfl
    exact hp
  | .record title fs, _, v, h, hp => by
    cases h with
    | object h =>
      have hfold := fold_alike (f := fun slots key settled t => fs.putTree slots key settled t)
        (g := fun slots key v => fs.putValue slots key v) (fun _ _ _ _ _ => Fields.putTree_alike fs) h hp fs.noSlots
      refine hfold.bind fun a b hab => ?_
      obtain ⟨slots, stop⟩ := a
      cases hab
      exact complain_alike _ _
    | array h =>
      refine (Fields.ofItems_alike fs (fs.wanted title) 0 h hp).bind fun a b hab => ?_
      obtain ⟨hab, hrest⟩ := hab
      refine (finish_alike hrest _).bind fun _ _ _ => .ok hab
    | _ => exact .error

theorem Fields.putTree_alike : ∀ (fs : Fields) {slots : fs.Slots} {key : String} {settled : Nat} {t : Tree} {v : Value},
    t.Means v → fs.PlainAt key v → Alike Eq (fs.putTree slots key settled t) (fs.putValue slots key v)
  | .nil, _, _, _, t, _, h, _ => by
    change Alike Eq t.skip (.ok ())
    rw [h.skip]
    exact .ok rfl
  | .cons l s fs, (slot, slots), key, settled, _, v, h, hp => by
    obtain ⟨hs, hfs⟩ := hp
    simp only [Fields.putTree, Fields.putValue]
    split
    · next ha =>
      cases slot with
      | some _ => exact .error
      | none => exact (Shape.ofTree_alike s h (hs ha)).map fun _ _ h => by rw [h]
    · exact (Fields.putTree_alike fs h hfs).map fun _ _ h => by rw [h]

theorem Fields.ofItems_alike : ∀ (fs : Fields) (wanted : String) (index : Nat) {items : Items} {vs : List Value},
    items.Means vs → fs.PlainItems vs → Alike SameRest (fs.ofItems wanted index items) (fs.ofValues wanted index vs)
  | .nil, _, _, _, _, h, _ => .ok ⟨rfl, h⟩
  | .cons l s fs, wanted, index, items, vs, h, hp => by
    have hhead (v : Value) (hv : vs.head? = some v) : s.Plain v := by
      cases vs with
      | nil => cases hv
      | cons w vs => cases hv; exact hp.1
    have htail : fs.PlainItems vs.tail := by
      cases vs with
      | nil => cases fs <;> trivial
      | cons w vs => exact hp.2
    refine (nextField_alike (Shape.ofTree_alike s) (l.missing? s) index wanted h hhead).bind fun a b hab => ?_
    obtain ⟨⟨hfst, hrest⟩, htl⟩ := hab
    refine (Fields.ofItems_alike fs wanted (index + 1) hrest (htl ▸ htail)).bind fun a' b' hab' => ?_
    exact .ok ⟨by rw [hfst, hab'.1], hab'.2⟩

end

mutual

/-- The shape wants no name anywhere. -/
def Shape.Nameless : Shape → Prop
  | .name _ | .nameOr _ _ => False
  | .optional s | .array s | .pair s => s.Nameless
  | .record _ fs => fs.Nameless
  | _ => True

def Fields.Nameless : Fields → Prop
  | .nil => True
  | .cons _ s fs => s.Nameless ∧ fs.Nameless

end

mutual

theorem Shape.Nameless.plain : ∀ {s : Shape}, s.Nameless → ∀ v, s.Plain v
  | .u32, _, _ | .i64, _, _ | .u64, _, _ | .f64, _, _ | .bool, _, _ | .text, _, _ => trivial
  | .optional s, h, v => by
    rw [Shape.Plain]
    exact Shape.Nameless.plain (s := s) h v
  | .array s, h, v | .pair s, h, v => by
    cases v with
    | array vs => exact fun v _ => Shape.Nameless.plain (s := s) h v
    | _ => trivial
  | .record _ fs, h, v => by
    cases v with
    | array vs => exact (show fs.Nameless from h).plainItems vs
    | object es => exact fun e _ => (show fs.Nameless from h).plainAt e.1 e.2
    | _ => trivial

theorem Fields.Nameless.plainAt : ∀ {fs : Fields}, fs.Nameless → ∀ key v, fs.PlainAt key v
  | .nil, _, _, _ => trivial
  | .cons _ _ _, h, key, v => ⟨fun _ => h.1.plain v, h.2.plainAt key v⟩

theorem Fields.Nameless.plainItems : ∀ {fs : Fields}, fs.Nameless → ∀ vs, fs.PlainItems vs
  | .nil, _, _ => trivial
  | .cons _ _ _, _, [] => trivial
  | .cons _ _ _, h, v :: vs => ⟨h.1.plain v, h.2.plainItems vs⟩

end

/-- A whole text of a value is read as the value is. -/
theorem Shape.read_alike {text : List Char} {v : Value} (s : Shape) (h : Json.Spells text v) (hp : s.Plain v) :
    Alike Eq (s.read text) (s.ofValue v) := by
  obtain ⟨hv, htrail⟩ := Json.spells_iff.mp h
  rw [Shape.read, Json.Document.decode_of_whole htrail]
  exact s.ofTree_alike hv hp

end Wire

/-! ## The same value with its objects sorted -/

namespace Json

mutual

/-- No object repeats a key. -/
def Value.Distinct : Value → Prop
  | .array vs => Value.DistinctItems vs
  | .object es => (es.map (·.1)).Nodup ∧ Value.DistinctEntries es
  | _ => True

def Value.DistinctItems : List Value → Prop
  | [] => True
  | v :: vs => v.Distinct ∧ Value.DistinctItems vs

def Value.DistinctEntries : List (String × Value) → Prop
  | [] => True
  | (_, v) :: es => v.Distinct ∧ Value.DistinctEntries es

end

theorem insertEntry_perm {key : String} {v : Value} {l : List (String × Value)} (h : key ∉ l.map (·.1)) :
    (insertEntry key v l).Perm ((key, v) :: l) := by
  induction l with
  | nil => exact .refl _
  | cons e l ih =>
    obtain ⟨k, w⟩ := e
    simp only [List.map_cons, List.mem_cons, not_or] at h
    rw [insertEntry, if_neg h.1]
    split
    · exact .refl _
    · exact ((ih h.2).cons _).trans (.swap _ _ _)

/-- Sorting entries without repeated keys only changes their order. -/
theorem sortEntries_perm {l : List (String × Value)} (h : (l.map (·.1)).Nodup) : (sortEntries l).Perm l := by
  induction l using List.reverseRecOn with
  | nil => exact .refl _
  | append_singleton l e ih =>
    rw [List.map_append, List.nodup_append] at h
    obtain ⟨hl, -, hne⟩ := h
    have hperm := ih hl
    rw [sortEntries_snoc]
    refine (insertEntry_perm ?_).trans ((hperm.cons e).trans (List.perm_append_singleton e l).symm)
    intro hm
    exact hne _ ((hperm.map _).mem_iff.mp hm) _ (by simp) rfl

theorem Value.canonicalItems_eq (vs : List Value) : canonicalItems vs = vs.map Value.canonical := by
  induction vs with
  | nil => rfl
  | cons v vs ih => rw [canonicalItems, ih, List.map_cons]

theorem Value.canonicalEntries_eq (es : List (String × Value)) :
    canonicalEntries es = es.map fun e => (e.1, e.2.canonical) := by
  induction es with
  | nil => rfl
  | cons e es ih => rw [canonicalEntries, ih, List.map_cons]

/-- Entries in canonical form only change their order when they are sorted. -/
theorem sortEntries_canonicalEntries_perm {es : List (String × Value)} (h : (es.map (·.1)).Nodup) :
    (sortEntries (Value.canonicalEntries es)).Perm (Value.canonicalEntries es) := by
  refine sortEntries_perm ?_
  rw [Value.canonicalEntries_eq, List.map_map]
  exact h

theorem Value.distinctItems_iff {vs : List Value} : DistinctItems vs ↔ ∀ v ∈ vs, v.Distinct := by
  induction vs with
  | nil => simp [DistinctItems]
  | cons v vs ih => simp [DistinctItems, ih]

theorem Value.distinctEntries_iff {es : List (String × Value)} : DistinctEntries es ↔ ∀ e ∈ es, e.2.Distinct := by
  induction es with
  | nil => simp [DistinctEntries]
  | cons e es ih => simp [DistinctEntries, ih]

end Json

namespace Wire

open Json (Value Tree Items Entries Fault Mismatch)

section

variable {ε α β : Type}

/-- Puts what is read into the first slot, unless something is there. -/
def fillFirst (twice : ε) (read : Except ε α) : Option α × β → Except ε (Option α × β)
  | (some _, _) => .error twice
  | (none, rest) => read.map fun a => (some a, rest)

/-- Puts something into the slots after the first. -/
def fillRest (put : β → Except ε β) (slots : Option α × β) : Except ε (Option α × β) :=
  (put slots.2).map (slots.1, ·)

theorem fillFirst_comm (twice : ε) (x y : Except ε α) (slots : Option α × β) :
    Alike Eq (fillFirst twice x slots >>= fillFirst twice y) (fillFirst twice y slots >>= fillFirst twice x) := by
  -- one of the two comes too late in any order
  obtain ⟨_ | _, rest⟩ := slots
  · cases x <;> cases y <;> exact .error
  · exact .error

theorem fillFirst_fillRest (twice : ε) (x : Except ε α) (put : β → Except ε β) (slots : Option α × β) :
    Alike Eq (fillFirst twice x slots >>= fillRest put) (fillRest put slots >>= fillFirst twice x) := by
  obtain ⟨slot, rest⟩ := slots
  have hrest (slot : Option α) : fillRest put (slot, rest) = (put rest).map (slot, ·) := rfl
  rw [hrest]
  cases slot with
  | some a => cases put rest <;> exact .error
  | none =>
    cases x with
    | error e => cases put rest <;> exact .error
    | ok a =>
      change Alike Eq (fillRest put (some a, rest)) _
      rw [hrest]
      cases put rest with
      | error e => exact .error
      | ok rest' => exact .ok rfl

theorem fillRest_comm {f g : β → Except ε β} (slots : Option α × β)
    (h : Alike Eq (f slots.2 >>= g) (g slots.2 >>= f)) :
    Alike Eq (fillRest f slots >>= fillRest g) (fillRest g slots >>= fillRest f) := by
  have hbind (f g : β → Except ε β) : fillRest f slots >>= fillRest g = (f slots.2 >>= g).map (slots.1, ·) := by
    rw [fillRest]
    cases f slots.2 <;> rfl
  rw [hbind, hbind]
  exact h.map fun _ _ h => by rw [h]

end

theorem Fields.putValue_cons (l : Label) (s : Shape) (fs : Fields) (slots : (Fields.cons l s fs).Slots) (key : String)
    (v : Value) : (Fields.cons l s fs).putValue slots key v =
      if l.answersTo key then fillFirst (.duplicateField l.key) (s.ofValue v) slots
      else fillRest (fs.putValue · key v) slots := by
  obtain ⟨slot, slots⟩ := slots
  simp only [Fields.putValue]
  cases slot <;> rfl

/-- Entries may be put into a record in any order. -/
theorem Fields.putValue_comm : ∀ (fs : Fields) (slots : fs.Slots) (e e' : String × Value),
    Alike Eq (fs.putValue slots e.1 e.2 >>= fun slots => fs.putValue slots e'.1 e'.2)
      (fs.putValue slots e'.1 e'.2 >>= fun slots => fs.putValue slots e.1 e.2)
  | .nil, _, _, _ => .refl _
  | .cons l s fs, slots, e, e' => by
    simp only [putValue_cons]
    cases l.answersTo e.1 <;> cases l.answersTo e'.1 <;> simp only [Bool.false_eq_true, if_true, if_false]
    · exact fillRest_comm (f := (fs.putValue · e.1 e.2)) (g := (fs.putValue · e'.1 e'.2)) slots
        (putValue_comm fs slots.2 e e')
    · exact (fillFirst_fillRest (.duplicateField l.key) (s.ofValue e'.2) (fs.putValue · e.1 e.2) slots).symm
    · exact fillFirst_fillRest (.duplicateField l.key) (s.ofValue e.2) (fs.putValue · e'.1 e'.2) slots
    · exact fillFirst_comm (.duplicateField l.key) (s.ofValue e.2) (s.ofValue e'.2) slots

/-- A record is read alike from its entries in canonical form, in any order. -/
theorem Fields.ofEntries_perm_canonical {fs : Fields} {es es' : List (String × Value)}
    (h : es'.Perm (Value.canonicalEntries es))
    (hput : ∀ e ∈ es, ∀ slots, Alike Eq (fs.putValue slots e.1 e.2.canonical) (fs.putValue slots e.1 e.2)) :
    Alike Eq (fs.ofEntries es') (fs.ofEntries es) := by
  -- first the order is changed back, then the values one by one
  have hsort := Alike.foldlM_perm (fun slots e e' => fs.putValue_comm slots e e') h fs.noSlots
  have hentries : Alike Eq ((Value.canonicalEntries es).foldlM (fun slots e => fs.putValue slots e.1 e.2) fs.noSlots)
      (es.foldlM (fun slots e => fs.putValue slots e.1 e.2) fs.noSlots) := by
    rw [Value.canonicalEntries_eq, List.foldlM_map]
    exact .foldlM hput fs.noSlots
  exact (hsort.trans hentries).bind fun slots slots' h => h ▸ .refl _

theorem noMore_canonical (taken taken' : Nat) (vs : List Value) :
    Alike Eq (noMore taken (vs.map Value.canonical)) (noMore taken' vs) := by
  cases vs with
  | nil => exact .ok rfl
  | cons v vs => exact .error

theorem unitOfValue_canonical {v : Value} (hd : v.Distinct) :
    Alike Eq (unitOfValue v.canonical) (unitOfValue v) := by
  cases v with
  | object es =>
    have hlen := (Json.sortEntries_canonicalEntries_perm hd.1).length_eq
    cases es with
    | nil => exact .ok rfl
    | cons e es =>
      rw [Value.canonical]
      generalize Json.sortEntries (Value.canonicalEntries (e :: es)) = sorted at hlen
      cases sorted with
      | nil => cases hlen
      | cons e' sorted => exact .error
  | array _ => exact .error
  | _ => exact .refl _

theorem nameOfValue_canonical {α : Type} (take : String → Except Mismatch α) {v : Value} (hd : v.Distinct) :
    Alike Eq (nameOfValue take v.canonical) (nameOfValue take v) := by
  cases v with
  | object es =>
    obtain ⟨hkeys, hes⟩ := hd
    have hlen := (Json.sortEntries_canonicalEntries_perm hkeys).length_eq
    cases es with
    | nil => exact .error
    | cons e es =>
      cases es with
      | nil =>
        obtain ⟨key, w⟩ := e
        -- the one entry keeps its place
        change Alike Eq (take key >>= fun a => unitOfValue w.canonical >>= fun _ => pure a)
          (take key >>= fun a => unitOfValue w >>= fun _ => pure a)
        exact (Alike.refl _).bind fun a a' ha => (unitOfValue_canonical hes.1).bind fun _ _ _ => .ok ha
      | cons e' es =>
        rw [Value.canonical]
        generalize Json.sortEntries (Value.canonicalEntries (e :: e' :: es)) = sorted at hlen
        obtain _ | ⟨_, _ | ⟨_, _⟩⟩ := sorted
        · simp [Value.canonicalEntries_eq] at hlen
        · simp [Value.canonicalEntries_eq] at hlen
        · exact .error
  | array _ => exact .error
  | _ => exact .refl _

mutual

/-- **Sorting does no harm**: a value is read alike with its objects sorted. -/
theorem Shape.ofValue_canonical : ∀ (s : Shape) {v : Value}, v.Distinct →
    Alike Eq (s.ofValue v.canonical) (s.ofValue v)
  | .u32, v, _ | .i64, v, _ | .u64, v, _ | .f64, v, _ | .bool, v, _ | .text, v, _ => by
    cases v with
    | array _ | object _ => exact .error
    | _ => exact .refl _
  | .name _, _, hd | .nameOr _ _, _, hd => nameOfValue_canonical _ hd
  | .optional s, v, hd => by
    have h := Shape.ofValue_canonical s hd
    cases v with
    | null => exact .refl _
    | _ => exact h.map fun _ _ h => congrArg some h
  | .array s, v, hd => by
    cases v with
    | array vs =>
      have hall (v : Value) (hv : v ∈ vs) : Alike Eq (s.ofValue v.canonical) (s.ofValue v) :=
        Shape.ofValue_canonical s (Value.distinctItems_iff.mp hd v hv)
      have hmap : (Value.canonicalItems vs).mapM s.ofValue = vs.mapM fun v => s.ofValue v.canonical := by
        rw [Value.canonicalItems_eq, List.mapM_map]
        rfl
      change Alike Eq ((Value.canonicalItems vs).mapM s.ofValue) (vs.mapM s.ofValue)
      rw [hmap]
      exact .mapM hall
    | object _ => exact .error
    | _ => exact .refl _
  | .pair s, v, hd => by
    cases v with
    | array vs =>
      have hall (v : Value) (hv : v ∈ vs) : Alike Eq (s.ofValue v.canonical) (s.ofValue v) :=
        Shape.ofValue_canonical s (Value.distinctItems_iff.mp hd v hv)
      match vs with
      | [] => exact .error
      | [a] => exact (hall a (by simp)).bind fun _ _ _ => .error
      | a :: b :: rest =>
        refine (hall a (by simp)).bind fun x x' hx => (hall b (by simp)).bind fun y y' hy => ?_
        rw [Value.canonicalItems_eq]
        exact (noMore_canonical 2 2 rest).bind fun _ _ _ => .ok (by rw [hx, hy])
    | object _ => exact .error
    | _ => exact .refl _
  | .record title fs, v, hd => by
    cases v with
    | array vs =>
      refine (Fields.ofValues_canonical fs (fs.wanted title) 0 hd).bind ?_
      rintro ⟨a, _⟩ ⟨b, left⟩ ⟨hfst, rfl⟩
      exact (noMore_canonical _ _ left).bind fun _ _ _ => .ok hfst
    | object es =>
      obtain ⟨hkeys, hes⟩ := hd
      exact Fields.ofEntries_perm_canonical (Json.sortEntries_canonicalEntries_perm hkeys) fun e he _ =>
        Fields.putValue_canonical fs (Value.distinctEntries_iff.mp hes e he)
    | _ => exact .refl _

theorem Fields.putValue_canonical : ∀ (fs : Fields) {slots : fs.Slots} {key : String} {v : Value}, v.Distinct →
    Alike Eq (fs.putValue slots key v.canonical) (fs.putValue slots key v)
  | .nil, _, _, _, _ => .refl _
  | .cons l s fs, (slot, slots), key, v, hd => by
    simp only [Fields.putValue]
    split
    · cases slot with
      | some _ => exact .error
      | none => exact (Shape.ofValue_canonical s hd).map fun _ _ h => by rw [h]
    · exact (Fields.putValue_canonical fs hd).map fun _ _ h => by rw [h]

theorem Fields.ofValues_canonical : ∀ (fs : Fields) (wanted : String) (index : Nat) {vs : List Value},
    Value.DistinctItems vs →
    Alike (fun a b => a.1 = b.1 ∧ a.2 = b.2.map Value.canonical)
      (fs.ofValues wanted index (Value.canonicalItems vs)) (fs.ofValues wanted index vs)
  | .nil, _, _, vs, _ => .ok ⟨rfl, Value.canonicalItems_eq vs⟩
  | .cons l s fs, wanted, index, vs, hd => by
    have hnext : Alike (fun a b => a.1 = b.1 ∧ a.2 = Value.canonicalItems vs.tail ∧ b.2 = vs.tail)
        (nextFieldValue s.ofValue (l.missing? s) index wanted (Value.canonicalItems vs))
        (nextFieldValue s.ofValue (l.missing? s) index wanted vs) := by
      cases vs with
      | nil =>
        cases hm : l.missing? s with
        | none => exact .error
        | some a => exact .ok ⟨rfl, rfl, rfl⟩
      | cons v vs => exact (Shape.ofValue_canonical s hd.1).map fun _ _ h => ⟨h, rfl, rfl⟩
    refine hnext.bind ?_
    rintro ⟨a, _⟩ ⟨b, _⟩ ⟨hfst, rfl, rfl⟩
    refine (Fields.ofValues_canonical fs wanted (index + 1) ?_).bind fun a' b' hab' => ?_
    · cases vs with
      | nil => trivial
      | cons v vs => exact hd.2
    · exact .ok ⟨congrArg₂ Prod.mk hfst hab'.1, hab'.2⟩

end

end Wire

end FarmClient
