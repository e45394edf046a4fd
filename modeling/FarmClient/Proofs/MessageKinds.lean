/-
What comes of every text. A message's kind is looked at twice: first by hand,
in the value that the text holds, then by the decoder of the message, which
takes the kind and the payload apart by itself (`Wire.unionOfValue`). Both know
the same kinds, so the decoder never meets one that is missing or unknown, and
what it can still find wrong is the payload (`ServerMessage.read_classified`).

The texts are those of the grammar that are not nested too deep. A text that
is nested deeper is malformed, whatever stands at its top.
-/
import FarmClient.Wire.ClientMessage
import FarmClient.Proofs.ShapeFits
import FarmClient.Proofs.TextEffects

namespace FarmClient

open Json (Value Mismatch Spells)
open Wire (lookup? serverKinds)

/-! ## The kinds as the decoder knows them -/

namespace Wire

/-- The variants of a message as they are declared. -/
def variantNames : List String := ["Event", "FarmState", "Done", "Error"]

/-- A name in small letters, with an underscore before each capital but the first letter. -/
def snakeCase (name : String) : String :=
  String.ofList <| name.toList.zipIdx.flatMap fun (c, i) =>
    (if 0 < i && c.isUpper then ['_'] else []) ++ [c.toLower]

/-- The names of the variants on the wire. -/
def variants : List String := variantNames.map snakeCase

/-- Both lists of kinds are the same. -/
theorem variants_eq : variants = serverKinds := by decide

/-- The variant that a value names. -/
def variantOfValue : Value → Except Mismatch (Fin variants.length)
  | .string name => toName variants name
  | v => refuse "variant identifier" v

/-- What has been read of the entries of a message: its variant, and the others in reverse. -/
def putVariant : Option (Fin variants.length) × List (String × Value) → String × Value →
    Except Mismatch (Option (Fin variants.length) × List (String × Value))
  | (variant, others), (key, v) =>
    if key = "type" then
      match variant with
      | some _ => .error (.duplicateField "type")
      | none => (variantOfValue v).map fun i => (some i, others)
    else .ok (variant, (key, v) :: others)

/-- Takes a message apart: its variant and its payload. -/
def unionOfValue : Value → Except Mismatch (Fin variants.length × Payload)
  | .object es => do
    let (variant, others) ← es.foldlM putVariant (none, [])
    match variant with
    | none => throw (.missingField "type")
    | some i => return (i, .entries others.reverse)
  | .array [] => .error (.missingField "type")
  | .array (v :: items) => (variantOfValue v).map (·, .items items)
  | v => refuse "internally tagged enum ServerMessage" v

/-- The message of a variant, from its payload. -/
def variantMessage (title : String) (fs : Fields) (message : fs.Val → ServerMessage) :
    Payload → Except Mismatch ServerMessage
  | .entries es => (fs.ofEntries es).map message
  | .items items => do
    let (x, left) ← fs.ofValues (fs.wanted title) 0 items
    noMore (items.length - left.length) left
    return message x

def messageOfVariant : Fin variants.length → Payload → Except Mismatch ServerMessage
  | ⟨0, _⟩ => variantMessage "struct variant ServerMessage::Event" eventPayload fun (e, ()) => .event (eventOf e)
  | ⟨1, _⟩ => variantMessage "struct variant ServerMessage::FarmState" farmPayload fun (f, ()) => .farmState (farmOf f)
  | ⟨2, _⟩ =>
    variantMessage "struct variant ServerMessage::Done" donePayload fun (r, ()) => .done (Option.map resultOf r)
  | ⟨_, _⟩ =>
    variantMessage "struct variant ServerMessage::Error" errorPayload fun (message, line, ()) => .error message line

end Wire

namespace ServerMessage

/-- The decoder of messages. -/
def ofUnion (v : Value) : Except Mismatch ServerMessage := do
  let (i, payload) ← Wire.unionOfValue v
  Wire.messageOfVariant i payload

/-- What the decoder finds wrong is reported as malformed. -/
def report (x : Except Mismatch ServerMessage) : Except MessageError ServerMessage :=
  x.mapError fun cause => .malformed ⟨.mismatch cause, none⟩

/-- The kind is looked at by hand, and what has a known one is decoded. -/
def ofChecked (v : Value) : Except MessageError ServerMessage :=
  match v.tag? with
  | none => .error .missingType
  | some kind => if kind ∈ serverKinds then report (ofUnion v.canonical) else .error (.unknownType kind)

end ServerMessage

/-- The entries of an object beside its kind; of equal keys the last counts. -/
def Json.Value.payload (v : Value) : List (String × Value) :=
  match v.canonical with
  | .object es => es.filter fun e => e.1 ≠ "type"
  | _ => []

namespace Wire

/-! ## Taking a message apart -/

theorem foldlM_putVariant_others {es : List (String × Value)} (h : ∀ e ∈ es, e.1 ≠ "type")
    (variant : Option (Fin variants.length)) (others : List (String × Value)) :
    es.foldlM putVariant (variant, others) = .ok (variant, es.reverse ++ others) := by
  induction es generalizing others with
  | nil => rfl
  | cons e es ih =>
    obtain ⟨key, v⟩ := e
    rw [List.forall_mem_cons] at h
    have hput : putVariant (variant, others) (key, v) = .ok (variant, (key, v) :: others) := if_neg h.1
    rw [List.foldlM_cons, hput, List.reverse_cons, List.append_assoc]
    exact ih h.2 _

/-- In an object in order the kind is found once, and nothing is lost beside it. -/
theorem foldlM_putVariant {kind : String} {i : Fin variants.length} (hi : nameIndex? variants kind = some i)
    {es : List (String × Value)} (h : Json.Ascending es) (hl : lookup? "type" es = some (.string kind))
    (others : List (String × Value)) :
    es.foldlM putVariant (none, others) = .ok (some i, (es.filter fun e => e.1 ≠ "type").reverse ++ others) := by
  induction es generalizing others with
  | nil => cases hl
  | cons e es ih =>
    obtain ⟨key, v⟩ := e
    obtain ⟨hk, hes⟩ := List.pairwise_cons.mp h
    rw [lookup?_cons] at hl
    rw [List.foldlM_cons]
    by_cases hkey : key = "type"
    · subst hkey
      have hothers : ∀ e ∈ es, e.1 ≠ "type" := fun e he heq => String.lt_irrefl _ (heq ▸ hk e he)
      rw [lookup?_eq_none hothers, Option.none_or, if_pos rfl] at hl
      obtain rfl : v = .string kind := Option.some.inj hl
      have hput : putVariant (none, others) ("type", .string kind) = .ok (some i, others) := by
        simp [putVariant, variantOfValue, toName, hi, Except.map]
      have hfilter : (("type", Value.string kind) :: es).filter (fun e => e.1 ≠ "type") = es := by
        simpa using hothers
      rw [hput, hfilter]
      exact foldlM_putVariant_others hothers _ _
    · rw [if_neg hkey, Option.or_none] at hl
      have hput : putVariant (none, others) (key, v) = .ok (none, (key, v) :: others) := if_neg hkey
      rw [hput, List.filter_cons_of_pos (by simpa using hkey), List.reverse_cons, List.append_assoc]
      exact ih hes hl _

/-- A value with a kind is an object in order once its entries are sorted. -/
theorem canonical_of_tag {v : Value} {kind : String} (ht : v.tag? = some kind) :
    ∃ es, v.canonical = .object es ∧ Json.Ascending es ∧ lookup? "type" es = some (.string kind) ∧
      v.payload = es.filter fun e => e.1 ≠ "type" := by
  rw [← Json.Value.tag?_canonical] at ht
  obtain ⟨es, hes, hl⟩ := Json.Value.tag?_eq_some_iff.mp ht
  refine ⟨es, hes, ?_, hl, by rw [Json.Value.payload, hes]⟩
  cases v with
  | object es₀ =>
    cases hes
    exact Json.sortEntries_ascending _
  | _ => cases hes

/-- **The decoder agrees with the hand** about the kind of a message. -/
theorem unionOfValue_of_tag {v : Value} {kind : String} {i : Fin variants.length} (ht : v.tag? = some kind)
    (hi : nameIndex? variants kind = some i) : unionOfValue v.canonical = .ok (i, .entries v.payload) := by
  obtain ⟨es, hes, hasc, hl, hp⟩ := canonical_of_tag ht
  rw [hes, hp, unionOfValue, foldlM_putVariant hi hasc hl, List.append_nil]
  change Except.ok (i, Payload.entries _) = _
  rw [List.reverse_reverse]

theorem exists_nameIndex?_of_mem {names : List String} {name : String} (h : name ∈ names) :
    ∃ i, nameIndex? names name = some i ∧ names.get i = name := by
  cases hi : nameIndex? names name with
  | none => exact absurd h (nameIndex?_eq_none_iff.mp hi)
  | some i => exact ⟨i, rfl, get_of_nameIndex? hi⟩

/-- A message is made of the payload of its kind alike, whichever list the kind was found in. -/
theorem messageOfVariant_entries {i : Fin serverKinds.length} {j : Fin variants.length}
    (h : serverKinds.get i = variants.get j) (es : List (String × Value)) :
    messageOfVariant j (.entries es) = serverMessageOf i es := by
  have hsame : ∀ (i : Fin serverKinds.length) (j : Fin variants.length),
      serverKinds.get i = variants.get j → i.1 = j.1 := by decide
  obtain ⟨n, hn⟩ := i
  obtain ⟨m, hm⟩ := j
  obtain rfl : n = m := hsame _ _ h
  match n with
  | 0 | 1 | 2 | _ + 3 => rfl

/-! ## The payload of a kind -/

/-- What a message of a kind carries. -/
def payloadOf : Fin serverKinds.length → Fields
  | ⟨0, _⟩ => eventPayload
  | ⟨1, _⟩ => farmPayload
  | ⟨2, _⟩ => donePayload
  | ⟨_, _⟩ => errorPayload

theorem exists_serverMessageOf_iff (i : Fin serverKinds.length) (es : List (String × Value)) :
    (∃ m, serverMessageOf i es = .ok m) ↔ (payloadOf i).Present es := by
  match i with
  | ⟨0, _⟩ | ⟨1, _⟩ | ⟨2, _⟩ | ⟨3, _⟩ => exact exists_map_iff.trans (Fields.exists_ofEntries_iff _)

theorem payloadOf_kindless (i : Fin serverKinds.length) : (payloadOf i).Kindless := by
  match i with
  | ⟨0, _⟩ | ⟨1, _⟩ | ⟨2, _⟩ | ⟨3, _⟩ =>
    simp [payloadOf, eventPayload, eventFields, farmPayload, farmShape, farmFields, cellShape, cellFields, leave,
      donePayload, resultFields, errorPayload, Fields.Kindless, Shape.Kindless, Label.missing?, Shape.empty?] <;> rfl

/-- What is wrong with a payload is not wrong with a kind. -/
theorem serverMessageOf_kindSound (i : Fin serverKinds.length) (es : List (String × Value)) :
    KindSound (serverMessageOf i es) := by
  have hread : KindSound ((payloadOf i).ofEntries es) := by
    refine .bind (.foldlM (fun slots e => ?_) _ es) fun slots => ?_
    · exact Fields.putValue_kindSound _ (payloadOf_kindless i) slots e.1 e.2
    · exact Fields.complete_kindSound (payloadOf_kindless i) slots
  match i with
  | ⟨0, _⟩ | ⟨1, _⟩ | ⟨2, _⟩ | ⟨3, _⟩ => exact hread.map

end Wire

open Wire

/-- An object has the payload of a kind: its fields, with values of their shapes. -/
def Json.Value.Carries (v : Value) (kind : String) : Prop :=
  ∃ i, serverKinds.get i = kind ∧ (payloadOf i).Present v.payload

/-- A text of the grammar that is not nested too deep. -/
def Json.Legible (text : List Char) (v : Value) : Prop := Spells text v ∧ v.depth < Json.depthLimit

namespace ServerMessage

variable {v : Value} {kind : String} {text : List Char}

/-- A known kind is decoded by the payload alone. -/
theorem ofValue_of_kind {i : Fin serverKinds.length} (ht : v.tag? = some kind)
    (hi : nameIndex? serverKinds kind = some i) :
    ofValue v = report (serverMessageOf i v.payload) := by
  obtain ⟨es, hes, -, hl, hp⟩ := canonical_of_tag ht
  simp only [ofValue, hes, hl, hi, hp]
  cases serverMessageOf i (es.filter fun e => e.1 ≠ "type") <;> rfl

theorem ofUnion_of_kind {i : Fin serverKinds.length} (ht : v.tag? = some kind)
    (hi : nameIndex? serverKinds kind = some i) : ofUnion v.canonical = serverMessageOf i v.payload := by
  have hk : kind ∈ variants := by
    rw [variants_eq, ← get_of_nameIndex? hi]
    exact List.get_mem _ _
  obtain ⟨j, hj, hget⟩ := exists_nameIndex?_of_mem hk
  rw [ofUnion, unionOfValue_of_tag ht hj]
  exact messageOfVariant_entries ((get_of_nameIndex? hi).trans hget.symm) _

/-- **The two looks at the kind** are one. -/
theorem ofValue_eq_ofChecked (v : Value) : ofValue v = ofChecked v := by
  unfold ofChecked
  cases ht : v.tag? with
  | none => exact ofValue_of_untagged ht
  | some kind =>
    by_cases hk : kind ∈ serverKinds
    · obtain ⟨i, hi, -⟩ := exists_nameIndex?_of_mem hk
      simp only [hk, if_true, ofValue_of_kind ht hi, ofUnion_of_kind ht hi]
    · simp only [hk, if_false, ofValue_of_unknown ht hk]

theorem ofValue_ok_iff_carries (ht : v.tag? = some kind) : (∃ m, ofValue v = .ok m) ↔ v.Carries kind := by
  by_cases hk : kind ∈ serverKinds
  · obtain ⟨i, hi, hget⟩ := exists_nameIndex?_of_mem hk
    have hcarries : v.Carries kind ↔ (payloadOf i).Present v.payload := by
      refine ⟨?_, fun h => ⟨i, hget, h⟩⟩
      rintro ⟨j, hj, h⟩
      obtain rfl : i = j := by
        have hinj : ∀ i j : Fin serverKinds.length, serverKinds.get i = serverKinds.get j → i = j := by decide
        exact hinj i j (hget.trans hj.symm)
      exact h
    rw [hcarries, ← exists_serverMessageOf_iff, ofValue_of_kind ht hi]
    cases serverMessageOf i v.payload <;> simp [report, Except.mapError]
  · refine iff_of_false ?_ ?_
    · rw [ofValue_of_unknown ht hk]
      rintro ⟨m, ⟨⟩⟩
    · rintro ⟨i, rfl, -⟩
      exact hk (List.get_mem _ _)

theorem read_of_legible (h : Json.Legible text v) : read text = ofValue v :=
  read_of_value (Json.Value.read_eq_ok_iff.mpr h)

theorem read_of_illegible (h : ∀ v, ¬ Json.Legible text v) : ∃ report, read text = .error (.malformed report) := by
  cases hr : Json.Value.read text with
  | error f => exact ⟨f.report text, by simp only [read, hr]⟩
  | ok v => exact absurd (Json.Value.read_eq_ok_iff.mp hr) (h v)

/-! ## What comes of a value -/

/-- What comes of a value, and what it has for that. -/
theorem ofValue_cases (v : Value) :
    (v.tag? = none ∧ ofValue v = .error .missingType) ∨
    (∃ kind, v.tag? = some kind ∧ kind ∉ serverKinds ∧ ofValue v = .error (.unknownType kind)) ∨
    (∃ m : ServerMessage, v.tag? = some m.kind ∧ v.Carries m.kind ∧ ofValue v = .ok m) ∨
    ∃ kind cause, v.tag? = some kind ∧ kind ∈ serverKinds ∧ ¬ v.Carries kind ∧ ¬ OfKind cause ∧
      ofValue v = .error (.malformed ⟨.mismatch cause, none⟩) := by
  cases ht : v.tag? with
  | none => exact .inl ⟨rfl, ofValue_of_untagged ht⟩
  | some kind =>
    by_cases hk : kind ∈ serverKinds
    · obtain ⟨i, hi, hget⟩ := exists_nameIndex?_of_mem hk
      have hof := ofValue_of_kind ht hi
      have hcarries := ofValue_ok_iff_carries ht
      cases hm : serverMessageOf i v.payload with
      | ok m =>
        rw [hm] at hof
        obtain rfl : m.kind = kind := (kind_of_serverMessageOf hm).trans hget
        exact .inr (.inr (.inl ⟨m, rfl, hcarries.mp ⟨m, hof⟩, hof⟩))
      | error cause =>
        rw [hm] at hof
        have hno : ¬ v.Carries kind := fun hc => by
          obtain ⟨m, hok⟩ := hcarries.mpr hc
          rw [hof] at hok
          cases hok
        exact .inr (.inr (.inr ⟨kind, cause, rfl, hk, hno, serverMessageOf_kindSound i _ cause hm, hof⟩))
    · exact .inr (.inl ⟨kind, rfl, hk, ofValue_of_unknown ht hk⟩)

theorem ofValue_missing_iff : ofValue v = .error .missingType ↔ v.tag? = none := by
  obtain ⟨ht, h⟩ | ⟨k, ht, -, h⟩ | ⟨m, ht, -, h⟩ | ⟨k, cause, ht, -, -, -, h⟩ := ofValue_cases v <;> simp [ht, h]

theorem ofValue_unknown_iff : ofValue v = .error (.unknownType kind) ↔ v.tag? = some kind ∧ kind ∉ serverKinds := by
  obtain ⟨ht, h⟩ | ⟨k, ht, hk, h⟩ | ⟨m, ht, hc, h⟩ | ⟨k, cause, ht, hk, -, -, h⟩ := ofValue_cases v
  · simp [ht, h]
  · simp only [ht, h, Except.error.injEq, MessageError.unknownType.injEq, Option.some.injEq]
    exact ⟨fun he => ⟨he, he ▸ hk⟩, And.left⟩
  · obtain ⟨i, hi, -⟩ := hc
    have hm : m.kind ∈ serverKinds := hi ▸ List.get_mem _ _
    simp only [ht, h, reduceCtorEq, Option.some.injEq, false_iff, not_and, not_not]
    rintro rfl
    exact hm
  · simp only [ht, h, Except.error.injEq, reduceCtorEq, Option.some.injEq, false_iff, not_and, not_not]
    rintro rfl
    exact hk

theorem ofValue_kind_iff : (∃ m, ofValue v = .ok m ∧ m.kind = kind) ↔ v.tag? = some kind ∧ v.Carries kind := by
  constructor
  · rintro ⟨m, hm, rfl⟩
    obtain ⟨-, h⟩ | ⟨k, -, -, h⟩ | ⟨m', ht, hc, h⟩ | ⟨k, cause, -, -, -, -, h⟩ := ofValue_cases v <;>
      cases hm.symm.trans h
    exact ⟨ht, hc⟩
  · rintro ⟨ht, hc⟩
    obtain ⟨m, hm⟩ := (ofValue_ok_iff_carries ht).mpr hc
    obtain ⟨-, h⟩ | ⟨k, -, -, h⟩ | ⟨m', ht', -, h⟩ | ⟨k, cause, -, -, -, -, h⟩ := ofValue_cases v <;>
      cases hm.symm.trans h
    exact ⟨m, hm, Option.some.inj (ht'.symm.trans ht)⟩

theorem ofValue_malformed_iff : (∃ report, ofValue v = .error (.malformed report)) ↔
    ∃ kind, v.tag? = some kind ∧ kind ∈ serverKinds ∧ ¬ v.Carries kind := by
  obtain ⟨ht, h⟩ | ⟨k, ht, hk, h⟩ | ⟨m, ht, hc, h⟩ | ⟨k, cause, ht, hk, hc, -, h⟩ := ofValue_cases v
  · simp [ht, h]
  · simp [ht, h, hk]
  · simp [ht, h, hc]
  · simp [ht, h, hk, hc]

/-! ## What comes of a text -/

theorem exists_legible_iff (h : Json.Legible text v) {p : Value → Prop} :
    (∃ w, Json.Legible text w ∧ p w) ↔ p v := by
  constructor
  · rintro ⟨w, hw, hp⟩
    exact hw.1.unique h.1 ▸ hp
  · exact fun hp => ⟨v, h, hp⟩

/-- **What comes of every text.** It lacks a kind, has one that is not known, is
a message of its kind, or is malformed, and each exactly if the text says so. The
decoder knows the kinds that are known by hand, takes every value with one of
them apart, and blames the kind of none. -/
theorem read_classified (text : List Char) :
    (read text = .error .missingType ↔ ∃ v, Json.Legible text v ∧ v.tag? = none) ∧
    (∀ kind, read text = .error (.unknownType kind) ↔
      ∃ v, Json.Legible text v ∧ v.tag? = some kind ∧ kind ∉ serverKinds) ∧
    (∀ kind, (∃ m, read text = .ok m ∧ m.kind = kind) ↔
      ∃ v, Json.Legible text v ∧ v.tag? = some kind ∧ v.Carries kind) ∧
    ((∃ report, read text = .error (.malformed report)) ↔ (∀ v, ¬ Json.Legible text v) ∨
      ∃ v, Json.Legible text v ∧ ∃ kind, v.tag? = some kind ∧ kind ∈ serverKinds ∧ ¬ v.Carries kind) ∧
    (∀ kind, kind ∈ serverKinds ↔ ∃ i, variantOfValue (.string kind) = .ok i) ∧
    ∀ v, Json.Legible text v → read text = ofChecked v ∧
      (∀ kind, v.tag? = some kind → kind ∈ serverKinds →
        ∃ i, unionOfValue v.canonical = .ok (i, .entries v.payload) ∧ variants.get i = kind) ∧
      ∀ cause place, read text = .error (.malformed ⟨.mismatch cause, place⟩) → ¬ OfKind cause := by
  have hkinds (kind : String) : kind ∈ serverKinds ↔ ∃ i, variantOfValue (.string kind) = .ok i := by
    rw [← variants_eq]
    exact exists_toName_iff.symm
  have hunion {v : Value} (h : Json.Legible text v) : read text = ofChecked v ∧
      (∀ kind, v.tag? = some kind → kind ∈ serverKinds →
        ∃ i, unionOfValue v.canonical = .ok (i, .entries v.payload) ∧ variants.get i = kind) ∧
      ∀ cause place, read text = .error (.malformed ⟨.mismatch cause, place⟩) → ¬ OfKind cause := by
    refine ⟨(read_of_legible h).trans (ofValue_eq_ofChecked v), fun kind ht hk => ?_, fun cause place hr => ?_⟩
    · rw [← variants_eq] at hk
      obtain ⟨i, hi, hget⟩ := exists_nameIndex?_of_mem hk
      exact ⟨i, unionOfValue_of_tag ht hi, hget⟩
    · rw [read_of_legible h] at hr
      obtain ⟨-, h⟩ | ⟨k, -, -, h⟩ | ⟨m, -, -, h⟩ | ⟨k, cause, -, -, -, hs, h⟩ := ofValue_cases v <;>
        cases hr.symm.trans h
      exact hs
  by_cases hv : ∃ v, Json.Legible text v
  · obtain ⟨v, h⟩ := hv
    have hsome : ¬ ∀ v, ¬ Json.Legible text v := fun hno => hno v h
    rw [read_of_legible h]
    refine ⟨?_, fun kind => ?_, fun kind => ?_, ?_, hkinds, fun w hw => read_of_legible h ▸ hunion hw⟩
    · rw [exists_legible_iff h, ofValue_missing_iff]
    · rw [exists_legible_iff h, ofValue_unknown_iff]
    · rw [exists_legible_iff h, ofValue_kind_iff]
    · rw [exists_legible_iff h, ofValue_malformed_iff, or_iff_right hsome]
  · have hno : ∀ v, ¬ Json.Legible text v := not_exists.mp hv
    obtain ⟨report, hr⟩ := read_of_illegible hno
    simp [hr, hno, hkinds]

/-! ### Texts that are nested too deep -/

/-- Arrays in arrays. -/
def nested : ℕ → Value
  | 0 => .array []
  | n + 1 => .array [nested n]

theorem nested_depth (n : ℕ) : (nested n).depth = n + 1 := by
  induction n with
  | zero => rfl
  | succ n ih => simp [nested, Json.Value.depth, Json.Value.depthItems, ih]

def nestedText : ℕ → List Char
  | 0 => ['[', ']']
  | n + 1 => '[' :: (nestedText n ++ [']'])

theorem nested_spelt (n : ℕ) : Json.ValueText (nestedText n) (nested n) := by
  have hclose (first : Bool) : Json.ItemsText first [']'] [] := .close .nil
  induction n with
  | zero => exact .array (hclose true)
  | succ n ih => exact .array (.first ih (hclose false))

/-- A text without a kind that is not said to lack one: 128 arrays in each other. -/
theorem not_forall_missing : ¬ ∀ (text : List Char) (v : Value), Spells text v → v.tag? = none →
    read text = .error .missingType := by
  intro h
  have hs : Spells (nestedText 127) (nested 127) := ⟨_, [], (List.append_nil _).symm, nested_spelt _, .nil⟩
  have hno (v : Value) : ¬ Json.Legible (nestedText 127) v := by
    rintro ⟨hv, hd⟩
    rw [hv.unique hs, nested_depth] at hd
    exact Nat.lt_irrefl _ hd
  obtain ⟨report, hr⟩ := read_of_illegible hno
  cases (h _ _ hs rfl).symm.trans hr

end ServerMessage

end FarmClient
