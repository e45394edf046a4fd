/-
What a server may write differently without a client reading anything else:
the order of the entries of an object, entries that are no fields of the record
they stand in, and the key of a field that has two (`Shape.Edit`). A crop of a
name without a sprite takes nothing from the rest of the farm (`Recropped`).
-/
import Mathlib.Logic.Relation
import FarmClient.Proofs.WireRoundTrip

namespace FarmClient

open Json (Value)

namespace Wire

/-! ## The same, written differently -/

/-- One change to a value that does not show in what is read as the shape. -/
inductive Shape.Edit : Shape → Value → Value → Prop where
  /-- The entries of a record in another order. -/
  | reorder {title fs es es'} (h : es.Perm es') : Edit (.record title fs) (.object es) (.object es')
  /-- One more entry, of no field. -/
  | add {title fs es key} (v : Value) (h : fs.field? key = none) :
      Edit (.record title fs) (.object es) (.object ((key, v) :: es))
  /-- Anything else in an entry of no field. -/
  | foreign {title fs key v v'} (pre post) (h : fs.field? key = none) :
      Edit (.record title fs) (.object (pre ++ (key, v) :: post)) (.object (pre ++ (key, v') :: post))
  /-- A field under another of its keys. -/
  | respell {title fs key key' v f} (pre post) (h : fs.field? key = some f) (h' : fs.field? key' = some f) :
      Edit (.record title fs) (.object (pre ++ (key, v) :: post)) (.object (pre ++ (key', v) :: post))
  /-- A change inside a field. -/
  | field {title fs key l s v v'} (pre post) (h : fs.field? key = some (l, s)) (hv : Edit s v v') :
      Edit (.record title fs) (.object (pre ++ (key, v) :: post)) (.object (pre ++ (key, v') :: post))
  /-- A change inside a field of a record that is written as an array. -/
  | element {title fs s v v'} (pre post) (h : fs.item? pre.length = some s) (hv : Edit s v v') :
      Edit (.record title fs) (.array (pre ++ v :: post)) (.array (pre ++ v' :: post))
  | item {s v v'} (pre post) (hv : Edit s v v') :
      Edit (.array s) (.array (pre ++ v :: post)) (.array (pre ++ v' :: post))
  | optional {s v v'} (hv : Edit s v v') : Edit (.optional s) v v'

namespace Shape.Edit

variable {s : Shape} {v v' : Value}

theorem ne_null (h : s.Edit v v') : v ≠ .null ∧ v' ≠ .null := by
  induction h with
  | optional _ ih => exact ih
  | _ => constructor <;> rintro ⟨⟩

/-- An object stays one. -/
theorem object {title : String} {fs : Fields} {es : List (String × Value)}
    (h : (Shape.record title fs).Edit (.object es) v') : ∃ es', v' = .object es' := by
  cases h <;> exact ⟨_, rfl⟩

/-- **A change that does not show**: what was read is still read. -/
theorem turns (h : s.Edit v v') : s.Turns v v' Eq := by
  induction h with
  | reorder h => exact fun x hx => ⟨x, (Fields.ofEntries_perm h).ok_iff.mp hx, rfl⟩
  | add v h => exact fun x hx => ⟨x, (Fields.ofEntries_foreign v _ h).trans hx, rfl⟩
  | @foreign _ fs key v v' _ _ h =>
    have hturns : fs.Turns (key, v) (key, v') Eq := Fields.turns_of_field? rfl fun l s hfield => by
      rw [h] at hfield
      cases hfield
    exact hturns.object
  | @respell _ fs key key' v f _ _ h h' =>
    have hturns : fs.Turns (key, v) (key', v) Eq :=
      Fields.turns_of_field? (h.trans h'.symm) fun l s _ x hx => ⟨x, hx, rfl⟩
    exact hturns.object
  | @field _ fs key l s v v' _ _ h _ ih =>
    have hturns : fs.Turns (key, v) (key, v') Eq := Fields.turns_of_field? rfl fun l' s' hfield => by
      cases h.symm.trans hfield
      exact ih
    exact hturns.object
  | element _ _ h _ ih => exact (Fields.turnsItem_of_item? h ih).array
  | item _ _ _ ih =>
    intro xs hxs
    obtain ⟨xs', hxs', x, x', hget, hset, rfl⟩ := ih.item xs hxs
    obtain ⟨hlt, rfl⟩ := List.getElem?_eq_some_iff.mp hget
    exact ⟨xs', hxs', (hset.trans (List.set_getElem_self hlt)).symm⟩
  | optional hv ih =>
    intro x hx
    obtain ⟨hnull, hnull'⟩ := hv.ne_null
    obtain ⟨x', hx', y, y', rfl, rfl, rfl⟩ := ih.optional hnull hnull' x hx
    exact ⟨_, hx', rfl⟩

end Shape.Edit

example : cellFields.field? "nutrient" = cellFields.field? "nutrition" := rfl

/-- A kind inside an event or a farm is no field of theirs. -/
example : eventFields.field? "type" = none ∧ farmFields.field? "type" = none := ⟨rfl, rfl⟩

/-! ## A crop by another name -/

/-- The value under one key of an object is changed. -/
def EntryAt (key : String) (Change : Value → Value → Prop) (v v' : Value) : Prop :=
  ∃ pre w w' post, v = .object (pre ++ (key, w) :: post) ∧ v' = .object (pre ++ (key, w') :: post) ∧ Change w w'

/-- One item of an array is changed. -/
def ItemAt (i : Nat) (Change : Value → Value → Prop) (v v' : Value) : Prop :=
  ∃ pre w w' post, pre.length = i ∧ v = .array (pre ++ w :: post) ∧ v' = .array (pre ++ w' :: post) ∧ Change w w'

/-- One field of a record is changed, which stands under a key of an object or in a place of an array. -/
def FieldAt (key : String) (i : Nat) (Change : Value → Value → Prop) (v v' : Value) : Prop :=
  EntryAt key Change v v' ∨ ItemAt i Change v v'

/-- One name in place of another, as a string or as the only key of an object. -/
inductive Renamed (name : String) : Value → Value → Prop where
  | string (old : String) : Renamed name (.string old) (.string name)
  | object (old : String) (w : Value) : Renamed name (.object [(old, w)]) (.object [(name, w)])

/-- In a message with a farm, the crop in column `x` of row `y` is given a name. -/
def Recropped (name : String) (x y : Nat) : Value → Value → Prop :=
  EntryAt "farm" (FieldAt "grid" 2 (ItemAt y (ItemAt x (FieldAt "type" 0 (Renamed name)))))

section

variable {Change : Value → Value → Prop} {v v' : Value}

theorem ItemAt.ne_null {i : Nat} (h : ItemAt i Change v v') : v ≠ .null ∧ v' ≠ .null := by
  obtain ⟨_, _, _, _, -, rfl, rfl, -⟩ := h
  constructor <;> rintro ⟨⟩

theorem FieldAt.ne_null {key : String} {i : Nat} (h : FieldAt key i Change v v') : v ≠ .null ∧ v' ≠ .null := by
  obtain ⟨_, _, _, _, rfl, rfl, -⟩ | h := h
  · constructor <;> rintro ⟨⟩
  · exact h.ne_null

theorem Renamed.ne_null {name : String} (h : Renamed name v v') : v ≠ .null ∧ v' ≠ .null := by
  cases h <;> constructor <;> rintro ⟨⟩

theorem ItemAt.turns {s : Shape} {i : Nat} {R : s.Val → s.Val → Prop} (h : ItemAt i Change v v')
    (hR : ∀ {w w'}, Change w w' → s.Turns w w' R) :
    (Shape.array s).Turns v v' fun (xs xs' : List s.Val) =>
      ∃ x x', xs[i]? = some x ∧ xs' = xs.set i x' ∧ R x x' := by
  obtain ⟨pre, w, w', post, rfl, rfl, rfl, hw⟩ := h
  exact (hR hw).item

theorem FieldAt.turns {title : String} {fs : Fields} {key : String} {i : Nat} {R : fs.Val → fs.Val → Prop}
    (h : FieldAt key i Change v v') (hentry : ∀ {w w'}, Change w w' → fs.Turns (key, w) (key, w') R)
    (hitem : ∀ {w w'}, Change w w' → fs.TurnsItem i w w' R) : (Shape.record title fs).Turns v v' R := by
  obtain ⟨pre, w, w', post, rfl, rfl, hw⟩ | ⟨pre, w, w', post, rfl, rfl, rfl, hw⟩ := h
  · exact (hentry hw).object
  · exact (hitem hw).array

/-- Any other name is read as no name of the list. -/
theorem Renamed.turns {name other : String} {names : List String} (h : Renamed name v v') (hname : name ∉ names) :
    (Shape.nameOr other names).Turns v v' fun _ (i' : Option (Fin names.length)) => i' = none := by
  have hnone : nameIndex? names name = none := nameIndex?_eq_none_iff.mpr hname
  cases h with
  | string old => exact fun _ _ => ⟨none, congrArg Except.ok hnone, rfl⟩
  | object old w =>
    intro i hi
    obtain ⟨_, -, hi⟩ := Json.exists_ok_of_bind hi
    obtain ⟨⟨⟩, hw, -⟩ := Json.exists_ok_of_bind hi
    refine ⟨none, ?_, rfl⟩
    change (unitOfValue w >>= fun _ => pure (nameIndex? names name)) = _
    rw [hw, hnone]
    rfl

theorem gridOf_getElem? {grid : List (List (Option cellShape.Val))} {y : Nat} {row : List (Option cellShape.Val)}
    (h : grid[y]? = some row) : (gridOf grid)[y]? = some (row.map (Option.map cellOf)) := by
  rw [gridOf, List.getElem?_map, h, Option.map_some]

theorem gridOf_set (grid : List (List (Option cellShape.Val))) (x y : Nat) (row : List (Option cellShape.Val))
    (c : Option cellShape.Val) : gridOf (grid.set y (row.set x c)) =
      (gridOf grid).set y ((row.map (Option.map cellOf)).set x (c.map cellOf)) := by
  rw [gridOf, List.map_set, List.map_set, gridOf]

section

variable {name : String} (hname : name ∉ Crop.names)

include hname

/-- A plot whose crop is renamed had one, and has one without a sprite. -/
theorem cell_turns (h : FieldAt "type" 0 (Renamed name) v v') : cellShape.Turns v v' fun c c' =>
    (cellOf c).crop.isSome ∧ cellOf c' = { cellOf c with crop := some .unknown } := by
  have hcrop {w w' : Value} (hw : Renamed name w w') :
      (Shape.optional (.nameOr "unknown" Crop.names)).Turns w w' _ :=
    (hw.turns hname).optional hw.ne_null.1 hw.ne_null.2
  have hturns : cellShape.Turns v v' _ := h.turns (fun hw => .first rfl rfl (hcrop hw)) fun hw => .first (hcrop hw)
  intro ⟨crop, rest⟩ hc
  obtain ⟨⟨crop', rest'⟩, hc', ⟨i, i', rfl, rfl, rfl⟩, rfl⟩ := hturns _ hc
  exact ⟨_, hc', rfl, rfl⟩

/-- A farm with a crop renamed keeps all but that crop. -/
theorem farm_turns {x y : Nat} (h : FieldAt "grid" 2 (ItemAt y (ItemAt x (FieldAt "type" 0 (Renamed name)))) v v') :
    farmShape.Turns v v' fun f f' => ∃ row c, (farmOf f).grid[y]? = some row ∧ row[x]? = some (some c) ∧
      c.crop.isSome ∧ farmOf f' = { farmOf f with
        grid := (farmOf f).grid.set y (row.set x (some { c with crop := some .unknown })) } := by
  have hcell {w w' : Value} (hw : FieldAt "type" 0 (Renamed name) w w') : (Shape.optional cellShape).Turns w w' _ :=
    (cell_turns hname hw).optional hw.ne_null.1 hw.ne_null.2
  have hgrid {w w' : Value} (hw : ItemAt y (ItemAt x (FieldAt "type" 0 (Renamed name))) w w') :
      (Shape.array (.array (.optional cellShape))).Turns w w' _ := hw.turns fun hw => hw.turns hcell
  have hturns : farmShape.Turns v v' _ :=
    h.turns (fun hw => .later rfl rfl (.later rfl rfl (.first rfl rfl (hgrid hw))))
      fun hw => .later (.later (.first (hgrid hw)))
  intro ⟨gold, time, grid, rest⟩ hf
  obtain ⟨⟨gold', time', grid', rest'⟩, hf', rfl, rfl, ⟨row, row', hrow, rfl, c, c', hc, rfl, d, d', rfl, rfl,
    hsome, hd⟩, rfl⟩ := hturns _ hf
  refine ⟨_, hf', row.map (Option.map cellOf), cellOf d, gridOf_getElem? hrow, ?_, hsome, ?_⟩
  · exact (List.getElem?_map ..).trans (congrArg (Option.map (Option.map cellOf)) hc)
  · refine (congrArg (Farm.mk gold time) (gridOf_set grid x y row (some d'))).trans ?_
    rw [Option.map_some, hd]
    rfl

end

end

end Wire

/-! ## Messages -/

namespace ServerMessage

open Wire

/-- What a message is read as: its kind with its payload. -/
def shape (m : ServerMessage) : Shape := .record "" (tagged m.payload.1)

/-- What it is read as when nothing is sorted. -/
def Stands (m : ServerMessage) (v : Value) : Prop :=
  ∃ es, v = .object es ∧ (tagged m.payload.1).ofEntries es = .ok (m.kind, m.payload.2)

variable {m : ServerMessage} {v v' : Value}

theorem stands_iff (hd : v.Distinct) : m.Stands v ↔ ofValue v = .ok m := by
  have hsame (es : List (String × Value)) (hd : (Value.object es).Distinct) :=
    (m.shape.ofValue_canonical hd).ok_iff (a := (m.kind, m.payload.2))
  constructor
  · rintro ⟨es, rfl, h⟩
    exact ofValue_eq_ok_iff.mpr ⟨es, rfl, (hsame es hd).mpr h⟩
  · intro h
    obtain ⟨es, rfl, hread⟩ := ofValue_eq_ok_iff.mp h
    exact ⟨es, rfl, (hsame es hd).mp hread⟩

theorem Stands.ofValue (h : m.Stands v) : ServerMessage.ofValue v = .ok m := by
  obtain ⟨es, rfl, h⟩ := h
  exact ofValue_eq_ok_iff.mpr ⟨es, rfl, (tagged m.payload.1).ofEntries_canonical_of_ok h⟩

theorem Stands.edit (h : m.Stands v) (he : m.shape.Edit v v') : m.Stands v' := by
  obtain ⟨es, rfl, h⟩ := h
  obtain ⟨es', rfl⟩ := he.object
  obtain ⟨x, hx, rfl⟩ := he.turns _ h
  exact ⟨es', rfl, hx⟩

theorem Stands.edits (h : m.Stands v) (he : Relation.ReflTransGen m.shape.Edit v v') : m.Stands v' := by
  induction he with
  | refl => exact h
  | tail _ he ih => exact ih.edit he

theorem Stands.recropped {f : Farm} {name : String} {x y : Nat} (h : (farmState f).Stands v) (hname : name ∉ Crop.names)
    (hv : Recropped name x y v v') : ∃ row c, f.grid[y]? = some row ∧ row[x]? = some (some c) ∧ c.crop.isSome ∧
      (farmState { f with grid := f.grid.set y (row.set x (some { c with crop := some .unknown })) }).Stands v' := by
  obtain ⟨pre, w, w', post, rfl, rfl, hw⟩ := hv
  obtain ⟨es, hes, h⟩ := h
  cases hes
  have hturns : (tagged farmPayload).Turns ("farm", w) ("farm", w') _ :=
    .later rfl rfl (.first rfl rfl (farm_turns hname hw))
  obtain ⟨⟨kind, f', ⟨⟩⟩, hread, rfl, hf', -⟩ := hturns pre post _ h
  obtain ⟨row, c, hrow, hc, hsome, hnew⟩ := hf'
  change (farmOf (farmVal f)).grid[y]? = some row at hrow
  change farmOf f' = { farmOf (farmVal f) with
    grid := (farmOf (farmVal f)).grid.set y (row.set x (some { c with crop := some .unknown })) } at hnew
  rw [farmOf_farmVal] at hrow hnew
  refine ⟨row, c, hrow, hc, hsome, _, rfl, hread.trans ?_⟩
  rw [← hnew]
  exact congrArg (fun f => Except.ok ("farm_state", f, ())) (farmVal_farmOf f').symm

/-- **Reading is tolerant**: a message that is read from a text without repeated
keys is also read from a text that says the same differently, and a crop that
is given any other name changes to one without a sprite, and nothing else. -/
theorem read_tolerant {text : List Char} (hv : Value.read text = .ok v) (hd : v.Distinct) (hm : read text = .ok m) :
    (∀ text' v', Value.read text' = .ok v' → Relation.ReflTransGen m.shape.Edit v v' → read text' = .ok m) ∧
      ∀ f name x y text' v', m = farmState f → name ∉ Crop.names → Value.read text' = .ok v' →
        Recropped name x y v v' → ∃ row c, f.grid[y]? = some row ∧ row[x]? = some (some c) ∧ c.crop.isSome ∧
          read text' = .ok (farmState
            { f with grid := f.grid.set y (row.set x (some { c with crop := some .unknown })) }) := by
  have hread {text : List Char} {v : Value} (hv : Value.read text = .ok v) : read text = ofValue v := by
    rw [read, hv]
  have hstands : m.Stands v := (stands_iff hd).mpr ((hread hv).symm.trans hm)
  constructor
  · intro text' v' hv' hedits
    exact (hread hv').trans (hstands.edits hedits).ofValue
  · rintro f name x y text' v' rfl hname hv' hcrop
    obtain ⟨row, c, hrow, hc, hsome, hnew⟩ := hstands.recropped hname hcrop
    exact ⟨row, c, hrow, hc, hsome, (hread hv').trans hnew.ofValue⟩

/-- A farm of one plot. -/
def plotMessage (plot : List (String × Value)) : Value :=
  .object [("type", .string "farm_state"), ("farm", .object [("grid", .array [.array [.object plot]])])]

def plotOf (crop : String) : List (String × Value) := [("type", .string crop), ("nutrition", .number (.integer 1))]

/-- The same with wheat, written differently. -/
def plotMessageLater : Value :=
  .object [
    ("seq", .number (.integer 7)),
    ("farm", .object [("type", .string "farm_state"), ("grid", .array [.array [
      .object [("nutrient", .number (.integer 1)), ("type", .string "wheat")]]])]),
    ("type", .string "farm_state")]

theorem plotMessage_read (crop : String) :
    Value.read (plotMessage (plotOf crop)).write = .ok (plotMessage (plotOf crop)) := by
  refine Value.read_eq_ok_iff.mpr ⟨Value.write_spelt _ fun x hx => ?_, of_decide_eq_true rfl⟩
  change x ∈ [Json.Number.integer 1] at hx
  rw [List.mem_singleton.mp hx]
  exact Json.Number.readsBack_integer ⟨by decide, by decide⟩

theorem plotMessageLater_read : Value.read plotMessageLater.write = .ok plotMessageLater := by
  refine Value.read_eq_ok_iff.mpr ⟨plotMessageLater.write_spelt fun x hx => ?_, by decide⟩
  change x ∈ [Json.Number.integer 7, .integer 1] at hx
  simp only [List.mem_cons, List.not_mem_nil, or_false] at hx
  rcases hx with rfl | rfl <;> exact Json.Number.readsBack_integer ⟨by decide, by decide⟩

theorem plotMessageLater_edits (f : Farm) :
    Relation.ReflTransGen (farmState f).shape.Edit (plotMessage (plotOf "wheat")) plotMessageLater := by
  let one : Value := .number (.integer 1)
  have hplot {plot plot' : List (String × Value)} (h : cellShape.Edit (.object plot) (.object plot')) :
      (farmState f).shape.Edit (plotMessage plot) (plotMessage plot') :=
    .field [("type", .string "farm_state")] [] rfl (.field [] [] rfl (.item [] [] (.item [] [] (.optional h))))
  have hspelt : (farmState f).shape.Edit (plotMessage (plotOf "wheat"))
      (plotMessage [("type", .string "wheat"), ("nutrient", one)]) :=
    hplot (.respell [("type", .string "wheat")] [] rfl rfl)
  have hturned := hplot (.reorder (.swap ("nutrient", one) ("type", .string "wheat") []))
  let grid : String × Value := ("grid", .array [.array [.object [("nutrient", one), ("type", .string "wheat")]]])
  have hkind : (farmState f).shape.Edit (.object [("type", .string "farm_state"), ("farm", .object [grid])])
      (.object [("type", .string "farm_state"), ("farm", .object [("type", .string "farm_state"), grid])]) :=
    .field [("type", .string "farm_state")] [] rfl (.add (.string "farm_state") rfl)
  have hmoved : (farmState f).shape.Edit
      (.object [("type", .string "farm_state"), ("farm", .object [("type", .string "farm_state"), grid])])
      (.object [("farm", .object [("type", .string "farm_state"), grid]), ("type", .string "farm_state")]) :=
    .reorder (.swap _ _ [])
  exact (((Relation.ReflTransGen.single hspelt).tail hturned).tail hkind).tail hmoved |>.tail
    (.add (.number (.integer 7)) rfl)

theorem read_tolerant_wheat : ∃ f row c, read (plotMessage (plotOf "wheat")).write = .ok (farmState f) ∧
    read plotMessageLater.write = .ok (farmState f) ∧ f.grid[0]? = some row ∧ row[0]? = some (some c) ∧
      read (plotMessage (plotOf "pumpkin")).write = .ok (farmState
        { f with grid := f.grid.set 0 (row.set 0 (some { c with crop := some .unknown })) }) := by
  have hdistinct : (plotMessage (plotOf "wheat")).Distinct := by
    simp [plotMessage, plotOf, Value.Distinct, Value.DistinctEntries, Value.DistinctItems]
  have hkind : (read (plotMessage (plotOf "wheat")).write).toOption.map kind = some "farm_state" := by decide +kernel
  have hcrop : Recropped "pumpkin" 0 0 (plotMessage (plotOf "wheat")) (plotMessage (plotOf "pumpkin")) :=
    ⟨[("type", .string "farm_state")], _, _, [], rfl, rfl, .inl ⟨[], _, _, [], rfl, rfl, [], _, _, [], rfl, rfl, rfl,
      [], _, _, [], rfl, rfl, rfl, .inl ⟨[], _, _, _, rfl, rfl, .string "wheat"⟩⟩⟩
  cases hm : read (plotMessage (plotOf "wheat")).write with
  | error e =>
    rw [hm] at hkind
    cases hkind
  | ok m =>
    rw [hm] at hkind
    cases m with
    | farmState f =>
      obtain ⟨hedits, hcrops⟩ := read_tolerant (plotMessage_read "wheat") hdistinct hm
      obtain ⟨row, c, hrow, hc, -, hnew⟩ :=
        hcrops f "pumpkin" 0 0 _ _ rfl (by decide) (plotMessage_read "pumpkin") hcrop
      exact ⟨f, row, c, rfl, hedits _ _ plotMessageLater_read (plotMessageLater_edits f), hrow, hc, hnew⟩
    | _ => simp [kind, Except.toOption] at hkind

end ServerMessage

end FarmClient
