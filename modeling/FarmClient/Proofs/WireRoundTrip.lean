/-
What goes over the wire is read back from the text it is written as: a message
of the client by the server, and a message of the server, a farm and a bootstrap
payload by the client. A message stands in an object with its kind, which is
told apart from its fields by the key (`tagged`).
-/
import FarmClient.Wire.Bootstrap
import FarmClient.Wire.ClientMessage
import FarmClient.Wire.ServerMessage
import FarmClient.Proofs.RecordReading

namespace FarmClient

open Json (Value Tree Entries Number)

/-! ## Objects that name their kind -/

namespace Wire

/-- The fields of an object that names its kind beside others. -/
def tagged (fs : Fields) : Fields := .cons { key := "type" } .text fs

section

variable {fs : Fields} (kind : String) (x : fs.Val)

/-- The object of a kind. -/
def taggedValue : Value := .object (("type", .string kind) :: fs.toEntries x)

/-- It is what a record with one field more is written as. -/
theorem taggedValue_eq : taggedValue kind x = (Shape.record "" (tagged fs)).toValue (kind, x) := rfl

theorem taggedValue_spelt (hx : DoublesReadBack (taggedValue kind x)) :
    Json.Spells (taggedValue kind x).text.toList (taggedValue kind x) :=
  (Shape.record "" (tagged fs)).text_spelt (kind, x) hx

theorem taggedValue_depth : (taggedValue kind x).depth ≤ fs.depth + 1 := by
  have hle := (Shape.record "" (tagged fs)).toValue_depth (kind, x)
  have hmax : (Shape.record "" (tagged fs)).depth = max 0 fs.depth + 1 := rfl
  rwa [← taggedValue_eq, hmax, Nat.zero_max] at hle

variable (h : (tagged fs).Lawful)

include h

theorem tagged_keys : ((("type", Value.string kind) :: fs.toEntries x).map (·.1)).Nodup :=
  (tagged fs).keys_nodup h (kind, x)

theorem toEntries_untagged : ∀ e ∈ fs.toEntries x, e.1 ≠ "type" := by
  intro e he htype
  have hnot := (List.nodup_cons.mp (tagged_keys "" x h)).1
  exact hnot (List.mem_map.mpr ⟨e, he, htype⟩)

end

/-- The label of an object's kind. -/
def kindLabel : Label := { key := "type" }

theorem kindLabel_answersTo (key : String) : kindLabel.answersTo key = decide (key = "type") :=
  Bool.or_false _

theorem kindLabel_take {v : Option Value} {kind : String} :
    kindLabel.take .text (v.toList.map fun v => ("type", v)) = .ok kind ↔ v = some (.string kind) := by
  match v with
  | none => exact iff_of_false (by rintro ⟨⟩) (by rintro ⟨⟩)
  | some (.string s) =>
    change Except.ok s = .ok kind ↔ _
    simp
  | some .null | some (.bool _) | some (.number _) | some (.array _) | some (.object _) =>
    exact iff_of_false (by rintro ⟨⟩) (by rintro ⟨⟩)

/-- An object that names its kind is read as a record with one field more. -/
theorem ofEntries_tagged_iff {fs : Fields} {es : List (String × Value)} {kind : String} {x : fs.Val}
    (h : Json.Ascending es) : (tagged fs).ofEntries es = .ok (kind, x) ↔
      lookup? "type" es = some (.string kind) ∧ fs.ofEntries (es.filter fun e => e.1 ≠ "type") = .ok x := by
  have hsplit : (tagged fs).ofEntries es = .ok (kind, x) ↔ _ :=
    Fields.ofEntries_cons_eq_ok_iff (l := kindLabel) (s := .text)
  simp only [kindLabel_answersTo, Json.filter_key h, kindLabel_take, ← decide_not] at hsplit
  exact hsplit

theorem cellVal_cellOf (x : cellShape.Val) : cellVal (cellOf x) = x := by
  obtain ⟨crop, maturity, water, nutrition, ⟨⟩⟩ := x
  cases crop with
  | none => rfl
  | some i => exact congrArg (fun i => (some i, maturity, water, nutrition, ())) (Crop.index?_ofIndex? i)

theorem gridVal_gridOf (grid : List (List (Option cellShape.Val))) : gridVal (gridOf grid) = grid := by
  have cell : Option.map cellVal ∘ Option.map cellOf = id := by
    funext c
    cases c <;> simp [cellVal_cellOf]
  have row : List.map (Option.map cellVal) ∘ List.map (Option.map cellOf) = id := by
    funext r
    rw [Function.comp_apply, List.map_map, cell, List.map_id, id]
  rw [gridVal, gridOf, List.map_map, row, List.map_id]

theorem farmVal_farmOf (x : farmShape.Val) : farmVal (farmOf x) = x := by
  obtain ⟨gold, time, grid, ⟨⟩⟩ := x
  exact congrArg (fun grid => (gold, time, grid, ())) (gridVal_gridOf grid)

end Wire

open Wire

/-! ## Messages of the server -/

namespace ServerMessage

/-- The payload of a message. -/
def payload : ServerMessage → (fs : Fields) × fs.Val
  | .event e => ⟨eventPayload, eventVal e, ()⟩
  | .farmState f => ⟨farmPayload, farmVal f, ()⟩
  | .done r => ⟨donePayload, r.map resultVal, ()⟩
  | .error message line => ⟨errorPayload, message, line, ()⟩

theorem toValue_eq (m : ServerMessage) : m.toValue = taggedValue m.kind m.payload.2 := by
  cases m <;> rfl

theorem payload_lawful (m : ServerMessage) : (tagged m.payload.1).Lawful := by
  cases m <;>
    simp [payload, tagged, eventPayload, eventFields, farmPayload, farmShape, farmFields, cellShape, cellFields, leave,
      donePayload, resultFields, errorPayload, Fields.Lawful, Shape.Lawful, Fields.labels, Label.Apart, Label.answersTo,
      Shape.nullable, Crop.names]

theorem payload_depth (m : ServerMessage) : m.payload.1.depth ≤ 4 := by
  cases m <;> exact of_decide_eq_true rfl

theorem exists_serverMessageOf (m : ServerMessage) : ∃ i, serverKinds.get i = m.kind ∧
    ∀ es, m.payload.1.ofEntries es = .ok m.payload.2 → serverMessageOf i es = .ok m := by
  cases m with
  | event e => exact ⟨⟨0, by decide⟩, rfl, fun es h => congrArg (Except.map _) h⟩
  | farmState f =>
    refine ⟨⟨1, by decide⟩, rfl, fun es h => (congrArg (Except.map _) h).trans ?_⟩
    exact congrArg (fun f => Except.ok (farmState f)) (farmOf_farmVal f)
  | done r =>
    refine ⟨⟨2, by decide⟩, rfl, fun es h => (congrArg (Except.map _) h).trans ?_⟩
    cases r <;> rfl
  | error message line => exact ⟨⟨3, by decide⟩, rfl, fun es h => congrArg (Except.map _) h⟩

theorem payload_of_serverMessageOf {i : Fin serverKinds.length} {es : List (String × Value)} {m : ServerMessage}
    (h : serverMessageOf i es = .ok m) : m.payload.1.ofEntries es = .ok m.payload.2 := by
  match i with
  | ⟨0, _⟩ =>
    obtain ⟨x, hx, rfl⟩ := Json.exists_ok_of_map h
    exact hx
  | ⟨1, _⟩ =>
    obtain ⟨⟨f, ⟨⟩⟩, hx, rfl⟩ := Json.exists_ok_of_map h
    exact hx.trans (congrArg (fun f => Except.ok (f, ())) (farmVal_farmOf f).symm)
  | ⟨2, _⟩ =>
    obtain ⟨⟨r, ⟨⟩⟩, hx, rfl⟩ := Json.exists_ok_of_map h
    cases r <;> exact hx
  | ⟨3, _⟩ =>
    obtain ⟨x, hx, rfl⟩ := Json.exists_ok_of_map h
    exact hx

/-- **What is read as a message** is an object with its kind and its payload. -/
theorem ofValue_eq_ok_iff {v : Value} {m : ServerMessage} : ofValue v = .ok m ↔
    ∃ es, v = .object es ∧
      (tagged m.payload.1).ofEntries (Json.sortEntries (Value.canonicalEntries es)) = .ok (m.kind, m.payload.2) := by
  constructor
  · intro h
    cases v with
    | object es =>
      refine ⟨es, rfl, (ofEntries_tagged_iff (Json.sortEntries_ascending _)).mpr ?_⟩
      simp only [ofValue, Value.canonical] at h
      split at h
      · next kind hl =>
        split at h
        · cases h
        · next i hi =>
          split at h
          · next m' hm =>
            cases h
            rw [kind_of_serverMessageOf hm, get_of_nameIndex? hi]
            exact ⟨hl, payload_of_serverMessageOf hm⟩
          · cases h
      · cases h
    | _ => cases h
  · rintro ⟨es, rfl, h⟩
    obtain ⟨hl, hread⟩ := (ofEntries_tagged_iff (Json.sortEntries_ascending _)).mp h
    obtain ⟨i, hi, hm⟩ := m.exists_serverMessageOf
    have hkind : nameIndex? serverKinds m.kind = some i := hi ▸ nameIndex?_get (by decide) i
    simp only [ofValue, Value.canonical, hl, hkind, hm _ hread]

theorem ofValue_toValue (m : ServerMessage) : ofValue m.toValue = .ok m := by
  have hread : (tagged m.payload.1).ofEntries ((tagged m.payload.1).toEntries (m.kind, m.payload.2)) = _ :=
    Fields.ofEntries_toEntries m.payload_lawful _
  exact ofValue_eq_ok_iff.mpr ⟨_, m.toValue_eq, Fields.ofEntries_canonical_of_ok _ hread⟩

/-- **A message of the server is read back.** -/
theorem read_text (m : ServerMessage) (h : DoublesReadBack m.toValue) : read m.toValue.text.toList = .ok m := by
  have hv : Value.read m.toValue.text.toList = .ok m.toValue := by
    rw [toValue_eq] at h ⊢
    have hle := taggedValue_depth m.kind m.payload.2
    have hdepth := m.payload_depth
    exact Json.Value.read_eq_ok_iff.mpr ⟨taggedValue_spelt _ _ h, by simp only [Json.depthLimit]; omega⟩
  rw [read, hv]
  exact m.ofValue_toValue

end ServerMessage

/-! ## Messages of the client -/

namespace Wire

/-- Entries beside the kind are gathered in reverse. -/
theorem fold_envelope : ∀ {entries : Entries} {es : List (String × Value)}, entries.Means es →
    (∀ e ∈ es, e.1 ≠ "type") → Value.depthEntries es < Json.depthLimit - 1 → ∀ e : Envelope,
    ∃ stop, entries.fold Envelope.put e = .ok ({ e with others := es.reverse ++ e.others }, stop)
  | _, _, .close, _, _, _ => ⟨_, rfl⟩
  | _, _, @Entries.Means.entry _ k settled t v entries es ht he, hkeys, hd, e => by
    have hv : t.value (Json.depthLimit - 1) = .ok v := ht.value (Nat.lt_of_le_of_lt (Nat.le_max_left _ _) hd)
    have hput : e.put k settled t = .ok { e with others := (k, v) :: e.others } := by
      rw [Envelope.put, if_neg (hkeys (k, v) List.mem_cons_self), hv]
      rfl
    obtain ⟨stop, hstop⟩ := fold_envelope he (fun e he => hkeys e (List.mem_cons_of_mem _ he))
      (Nat.lt_of_le_of_lt (Nat.le_max_right _ _) hd) { e with others := (k, v) :: e.others }
    refine ⟨stop, ?_⟩
    change (e.put k settled t >>= fun e => entries.fold Envelope.put e) = _
    rw [hput, List.reverse_cons, List.append_assoc]
    exact hstop

/-- The entries of a message give its kind, and the others in reverse. -/
theorem fold_tagged {entries : Entries} {es : List (String × Value)} (i : Fin clientKinds.length)
    (h : entries.Means (("type", .string (clientKinds.get i)) :: es)) (hkeys : ∀ e ∈ es, e.1 ≠ "type")
    (hd : Value.depthEntries es < Json.depthLimit - 1) :
    ∃ stop, entries.fold Envelope.put ⟨none, []⟩ = .ok (⟨some i, es.reverse⟩, stop) := by
  cases h with
  | @entry _ _ settled _ _ entries _ ht he =>
    cases ht with
    | @string _ last =>
      have hkind : kindOf (.string (.ok (clientKinds.get i)) last) = .ok i := by
        rw [kindOf, stringOf, toName_get (by decide)]
        rfl
      obtain ⟨stop, hstop⟩ := fold_envelope he hkeys hd ⟨some i, []⟩
      refine ⟨stop, ?_⟩
      change (Envelope.put ⟨none, []⟩ "type" settled (.string (.ok (clientKinds.get i)) last) >>= fun e =>
        entries.fold Envelope.put e) = _
      rw [Envelope.put, if_pos rfl]
      simp only [hkind]
      rw [List.append_nil] at hstop
      exact hstop

end Wire

namespace ClientMessage

/-- The payload of a message. -/
def payload : ClientMessage → (fs : Fields) × fs.Val
  | .start mode code => ⟨startFields, modeVal mode, code, ()⟩
  | _ => ⟨.nil, ()⟩

theorem toValue_eq (m : ClientMessage) : m.toValue = taggedValue m.kind m.payload.2 := by
  cases m <;> rfl

theorem payload_lawful (m : ClientMessage) : (tagged m.payload.1).Lawful := by
  cases m <;>
    simp [payload, tagged, startFields, modeNames, Fields.Lawful, Shape.Lawful, Fields.labels, Label.Apart,
      Label.answersTo]

/-- Nothing a client sends has numbers in it. -/
theorem toValue_numbers (m : ClientMessage) : m.toValue.numbers = [] := by
  cases m <;> rfl

theorem exists_clientMessageOf (m : ClientMessage) : ∃ i, clientKinds.get i = m.kind ∧
    clientMessageOf i (.entries (m.payload.1.toEntries m.payload.2)) = .ok m := by
  cases m with
  | start mode code =>
    refine ⟨⟨0, by decide⟩, rfl, ?_⟩
    have hfs : startFields.Lawful := (payload_lawful (.start mode code)).2.2.2
    have hread := Fields.ofEntries_toEntries hfs (modeVal mode, code, ())
    exact (congrArg (Except.map startOf) hread).trans
      (congrArg (fun mode => Except.ok (start mode code)) (modeOf_modeVal mode))
  | ack => exact ⟨⟨1, by decide⟩, rfl, rfl⟩
  | step => exact ⟨⟨2, by decide⟩, rfl, rfl⟩
  | abort => exact ⟨⟨3, by decide⟩, rfl, rfl⟩

theorem clientMessageOfTree_ok (m : ClientMessage) {t : Tree} (h : t.Means m.toValue) :
    clientMessageOfTree t = .ok m := by
  obtain ⟨i, hi, hm⟩ := m.exists_clientMessageOf
  have hdepth : Value.depthEntries (m.payload.1.toEntries m.payload.2) < Json.depthLimit - 1 := by
    cases m <;> exact of_decide_eq_true rfl
  rw [toValue_eq, ← hi] at h
  cases h with
  | object h =>
    obtain ⟨stop, hfold⟩ := fold_tagged i h (toEntries_untagged _ m.payload_lawful) hdepth
    rw [clientMessageOfTree, hfold]
    change complain stop (clientMessageOf i (.entries (m.payload.1.toEntries m.payload.2).reverse.reverse)) = _
    rw [List.reverse_reverse, hm]
    rfl

/-- **A message of the client is read back.** -/
theorem read_toJson (m : ClientMessage) : read m.toJson.toList = .ok m := by
  have hno : DoublesReadBack m.toValue := by
    intro x hx
    rw [toValue_numbers] at hx
    cases hx
  have hspelt : Json.Spells m.toJson.toList m.toValue := by
    rw [toJson, toValue_eq] at *
    exact taggedValue_spelt _ _ hno
  obtain ⟨hm, htrail⟩ := Json.spells_iff.mp hspelt
  rw [read, Json.Document.decode_of_whole htrail]
  exact m.clientMessageOfTree_ok hm

end ClientMessage

/-! ## Farms and bootstrap payloads -/

namespace Wire

theorem bootstrapShape_lawful : bootstrapShape.Lawful := by
  simp [bootstrapShape, bootstrapFields, configFields, ratioFields, farmShape, farmFields, cellShape, cellFields, leave,
    Fields.Lawful, Shape.Lawful, Fields.labels, Label.Apart, Label.answersTo, Shape.nullable, Crop.names]

theorem farmShape_lawful : farmShape.Lawful := bootstrapShape_lawful.2.2.2.1

end Wire

theorem Farm.read_text (f : Farm) (h : DoublesReadBack f.toValue) : Farm.read f.toValue.text.toList = .ok f := by
  rw [Farm.read, toValue, Shape.read_text farmShape_lawful (farmVal f) h]
  exact congrArg Except.ok (farmOf_farmVal f)

theorem Bootstrap.read_text (b : Bootstrap) (h : DoublesReadBack b.toValue) :
    Bootstrap.read b.toValue.text.toList = .ok b := by
  rw [Bootstrap.read, toValue, Shape.read_text bootstrapShape_lawful (bootstrapVal b) h]
  exact congrArg Except.ok (bootstrapOf_bootstrapVal b)

/-- **Reading undoes writing on the whole wire**, if each double is read back from its text. -/
theorem wire_read_text :
    (∀ m : ClientMessage, ClientMessage.read m.toJson.toList = .ok m) ∧
      (∀ m : ServerMessage, DoublesReadBack m.toValue → ServerMessage.read m.toValue.text.toList = .ok m) ∧
      (∀ f : Farm, DoublesReadBack f.toValue → Farm.read f.toValue.text.toList = .ok f) ∧
      ∀ b : Bootstrap, DoublesReadBack b.toValue → Bootstrap.read b.toValue.text.toList = .ok b :=
  ⟨ClientMessage.read_toJson, ServerMessage.read_text, Farm.read_text, Bootstrap.read_text⟩

/-- The double a value is. -/
def Json.Value.double? : Value → Option Float
  | .number (.double x) => some x
  | _ => none

theorem Wire.doublesReadBack_of_all {v : Value}
    (h : ∀ x ∈ v.numbers.filterMap (Value.double? ∘ .number),
      (Value.read (Json.writeNumber (.double x))).toOption.bind Value.double? = some x) : DoublesReadBack v := by
  intro x hx
  have hsome := h x (List.mem_filterMap.mpr ⟨_, hx, rfl⟩)
  rw [Number.ReadsBack]
  cases hr : Value.read (Json.writeNumber (.double x)) with
  | error e =>
    rw [hr] at hsome
    cases hsome
  | ok w =>
    rw [hr] at hsome
    cases w with
    | number y =>
      cases y with
      | double y => rw [Option.some.inj hsome]
      | integer n => cases hsome
    | _ => cases hsome

/-- A bare row, an empty plot and a plot with a crop that has no sprite. -/
def raggedFarm : Farm := ⟨none, some 0.5, [[], [none, some ⟨some .unknown, 1, 0.1, -0.0⟩]]⟩

def raggedBootstrap : Bootstrap := ⟨⟨2, ⟨(0, 0), (1, 0), (0, 1), (1, 1)⟩, "/b", 9⟩, raggedFarm⟩

/-- A script with a quotation mark, a backslash, a control character and more than ASCII. -/
def quotedStart : ClientMessage := .start .manualStep "say(\"\\é\x01\")\n"

def goldenDone : ServerMessage := .done (some ⟨0.1, 1e300, -2.5, 3, true⟩)

theorem wire_read_text_ragged :
    ClientMessage.read quotedStart.toJson.toList = .ok quotedStart ∧
      (DoublesReadBack goldenDone.toValue ∧ ServerMessage.read goldenDone.toValue.text.toList = .ok goldenDone) ∧
      (DoublesReadBack raggedFarm.toValue ∧ Farm.read raggedFarm.toValue.text.toList = .ok raggedFarm) ∧
      DoublesReadBack raggedBootstrap.toValue ∧
        Bootstrap.read raggedBootstrap.toValue.text.toList = .ok raggedBootstrap := by
  obtain ⟨hclient, hserver, hfarm, hbootstrap⟩ := wire_read_text
  have hdone : DoublesReadBack goldenDone.toValue := doublesReadBack_of_all (by decide +kernel)
  have hragged : DoublesReadBack raggedFarm.toValue := doublesReadBack_of_all (by decide +kernel)
  have hboth : DoublesReadBack raggedBootstrap.toValue := doublesReadBack_of_all (by decide +kernel)
  exact ⟨hclient _, ⟨hdone, hserver _ hdone⟩, ⟨hragged, hfarm _ hragged⟩, hboth, hbootstrap _ hboth⟩

end FarmClient
