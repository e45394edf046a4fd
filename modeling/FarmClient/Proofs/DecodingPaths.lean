/-
A farm comes to the client in two kinds of text: in a bootstrap payload, where
it is read straight from the text, and in a `farm_state` message, which is
first read as any JSON value. The text of a farm is accepted in both or in
neither, with the same farm.
-/
import FarmClient.Wire.Bootstrap
import FarmClient.Proofs.JsonWriting
import FarmClient.Proofs.ShapeReading

namespace FarmClient

open Json

/-! ## What a text must be, from its first characters -/

namespace Json

theorem StringText.of_plain {s : List Char}
    (h : s.all (fun c => c ≠ '"' ∧ c ≠ '\\' ∧ 32 ≤ c.toNat) = true) : StringText s s := by
  induction s with
  | nil => exact .nil
  | cons c s ih =>
    obtain ⟨hc, hs⟩ := (Bool.and_eq_true _ _).mp h
    obtain ⟨hq, hb, hp⟩ := of_decide_eq_true hc
    exact .plain hq hb hp (ih hs)

/-- A string ends at one place only. -/
theorem StringText.eq_of_append {k k' s s' r r' : List Char} (h : StringText k s) (h' : StringText k' s')
    (heq : k ++ '"' :: r = k' ++ '"' :: r') : String.ofList s = String.ofList s' ∧ r = r' := by
  obtain ⟨stop, hs⟩ := scanString_complete h r (n := max k.length k'.length + 1) [] 0 (by omega)
  obtain ⟨stop', hs'⟩ := scanString_complete h' r' (n := max k.length k'.length + 1) [] 0 (by omega)
  rw [heq, hs'] at hs
  simp only [List.reverse_nil, List.nil_append] at hs
  injection hs with htext hrest
  exact ⟨(Except.ok.inj htext).symm, hrest.symm⟩

theorem Blank.eq_nil_of_append {b rest cs : List Char} {c : Char} (hb : Blank b) (hc : isSpace c = false)
    (heq : b ++ rest = c :: cs) : b = [] := by
  cases b with
  | nil => rfl
  | cons d b =>
    cases heq
    rw [hb _ (by simp)] at hc
    cases hc

section

variable {t rest cs : List Char} {v : Value} {es : List (String × Value)}

theorem ValueText.object_inv (h : ValueText t v) (heq : t ++ rest = '\x7b' :: cs) :
    ∃ t' es, v = .object es ∧ EntriesText true t' es ∧ cs = t' ++ rest := by
  cases h with
  | object h =>
    cases heq
    exact ⟨_, _, rfl, h, rfl⟩
  | blank hc _ =>
    rw [(List.cons.inj heq).1] at hc
    cases hc
  | number hn _ =>
    obtain ⟨d, ds, rfl, hd⟩ := hn.exists_cons
    rw [(List.cons.inj heq).1] at hd
    cases hd
  | _ => cases (List.cons.inj heq).1

theorem ValueText.string_inv {k s : List Char} (h : ValueText t v) (hk : StringText k s)
    (heq : t ++ rest = '"' :: (k ++ '"' :: cs)) : v = .string (String.ofList s) ∧ cs = rest := by
  cases h with
  | @string k' s' h =>
    simp only [List.cons_append, List.append_assoc, List.nil_append, List.cons.injEq, true_and] at heq
    obtain ⟨hs, hr⟩ := h.eq_of_append hk heq
    exact ⟨by rw [hs], hr.symm⟩
  | blank hc _ =>
    rw [(List.cons.inj heq).1] at hc
    cases hc
  | number hn _ =>
    obtain ⟨d, ds, rfl, hd⟩ := hn.exists_cons
    rw [(List.cons.inj heq).1] at hd
    cases hd
  | _ => cases (List.cons.inj heq).1

theorem EntriesText.first_inv (h : EntriesText true t es) (heq : t ++ rest = '"' :: cs) :
    ∃ t', EntryText t' es ∧ cs = t' ++ rest := by
  cases h with
  | close hb =>
    rw [List.append_assoc] at heq
    obtain rfl := hb.eq_nil_of_append (by decide) heq
    cases heq
  | first hb h =>
    rw [List.append_assoc] at heq
    obtain rfl := hb.eq_nil_of_append (by decide) heq
    cases heq
    exact ⟨_, h, rfl⟩

theorem EntriesText.next_inv (h : EntriesText false t es) (heq : t ++ rest = ',' :: '"' :: cs) :
    ∃ t', EntryText t' es ∧ cs = t' ++ rest := by
  cases h with
  | close hb =>
    rw [List.append_assoc] at heq
    obtain rfl := hb.eq_nil_of_append (by decide) heq
    cases heq
  | next hb hb' h =>
    rw [List.append_assoc] at heq
    obtain rfl := hb.eq_nil_of_append (by decide) heq
    simp only [List.nil_append, List.cons_append, List.append_assoc, List.cons.injEq, true_and] at heq
    obtain rfl := hb'.eq_nil_of_append (by decide) heq
    cases heq
    exact ⟨_, h, rfl⟩

theorem EntryText.inv {k s : List Char} (h : EntryText t es) (hk : StringText k s)
    (heq : t ++ rest = k ++ '"' :: ':' :: cs) :
    ∃ t' r v es', es = (String.ofList s, v) :: es' ∧ ValueText t' v ∧ EntriesText false r es' ∧
      cs = t' ++ (r ++ rest) := by
  obtain @⟨k', s', b, t', v, r, es', hk', hb, hv, hes⟩ := h
  simp only [List.append_assoc, List.cons_append] at heq
  obtain ⟨hs, hr⟩ := hk'.eq_of_append hk heq
  obtain rfl := hb.eq_nil_of_append (by decide) hr
  cases hr
  exact ⟨t', r, v, es', by rw [hs], hv, hes, rfl⟩

end

end Json

/-! ## The two texts of a farm -/

/-- The message that carries a farm. -/
def farmMessage (farm : List Char) : List Char :=
  "\x7b\"type\":\"farm_state\",\"farm\":".toList ++ (farm ++ ['\x7d'])

/-- The payload that carries a configuration and a farm. -/
def bootstrapText (config farm : List Char) : List Char :=
  "\x7b\"config\":".toList ++ (config ++ (",\"farm\":".toList ++ (farm ++ ['\x7d'])))

theorem farmMessage_eq (farm : List Char) : farmMessage farm =
    '\x7b' :: '"' :: ("type".toList ++ '"' :: ':' :: '"' :: ("farm_state".toList ++ '"' :: ',' :: '"' ::
      ("farm".toList ++ '"' :: ':' :: (farm ++ ['\x7d'])))) := rfl

/-- What the reader finds in the message. -/
theorem farmMessage_inv {farm : List Char} {v : Value} (h : Spells (farmMessage farm) v) :
    ∃ t r b w es, farm ++ ['\x7d'] = t ++ (r ++ b) ∧ ValueText t w ∧ EntriesText false r es ∧ Blank b ∧
      v = .object (("type", .string "farm_state") :: ("farm", w) :: es) := by
  have htype : StringText "type".toList "type".toList := .of_plain (by decide)
  have hkind : StringText "farm_state".toList "farm_state".toList := .of_plain (by decide)
  have hfarm : StringText "farm".toList "farm".toList := .of_plain (by decide)
  obtain ⟨t, b, heq, ht, hb⟩ := h
  rw [farmMessage_eq] at heq
  obtain ⟨t, es, rfl, ht, heq⟩ := ht.object_inv heq.symm
  obtain ⟨t, ht, heq⟩ := ht.first_inv heq.symm
  obtain ⟨t₁, r, v₁, es, rfl, h₁, hr, heq⟩ := ht.inv htype heq.symm
  obtain ⟨rfl, heq⟩ := h₁.string_inv hkind heq.symm
  obtain ⟨t, ht, heq⟩ := hr.next_inv heq.symm
  obtain ⟨t₂, r, w, es, rfl, h₂, hr, heq⟩ := ht.inv hfarm heq.symm
  exact ⟨t₂, r, b, w, es, heq, h₂, hr, hb, rfl⟩

/-- What follows a farm in its message may hold more entries. -/
theorem farmMessage_spelt_of {t r : List Char} {w : Value} {es : List (String × Value)} (ht : ValueText t w)
    (hr : EntriesText false (r ++ ['\x7d']) es) :
    Spells (farmMessage (t ++ r)) (.object (("type", .string "farm_state") :: ("farm", w) :: es)) := by
  have hfarm : EntriesText false ([] ++ ',' :: ([] ++ '"' :: ("farm".toList ++ '"' :: ([] ++ ':' ::
      (t ++ (r ++ ['\x7d'])))))) (("farm", w) :: es) :=
    .next .nil .nil (.mk (s := "farm".toList) (.of_plain (by decide)) .nil ht hr)
  have hkind : ValueText ('"' :: ("farm_state".toList ++ ['"'])) (.string "farm_state") :=
    .string (.of_plain (by decide))
  have hall : EntriesText true ([] ++ '"' :: ("type".toList ++ '"' :: ([] ++ ':' :: (_ ++ _))))
      (("type", .string "farm_state") :: ("farm", w) :: es) :=
    .first .nil (.mk (s := "type".toList) (.of_plain (by decide)) .nil hkind hfarm)
  refine ⟨_, [], ?_, .object hall, .nil⟩
  rw [farmMessage_eq]
  simp

theorem farmMessage_spelt {farm : List Char} {w : Value} (h : Spells farm w) :
    Spells (farmMessage farm) (.object [("type", .string "farm_state"), ("farm", w)]) := by
  obtain ⟨t, b, rfl, ht, hb⟩ := h
  exact farmMessage_spelt_of ht (.close hb)

/-- Two texts with the same last character that is put after a farm. -/
theorem eq_of_append_brace {farm cs : List Char} {c : Char} (h : farm ++ ['\x7d'] = cs ++ [c]) :
    farm = cs ∧ c = '\x7d' := by
  obtain ⟨hcs, hc⟩ := List.append_inj' h rfl
  exact ⟨hcs, (List.cons.inj hc).1.symm⟩

/-- In a message that is JSON the farm is JSON, or its text goes on after a value. -/
theorem farmMessage_cases {farm : List Char} {v : Value} (h : Spells (farmMessage farm) v) :
    (∃ w, Spells farm w ∧ v = .object [("type", .string "farm_state"), ("farm", w)]) ∨
      (Document.read farm).trailing ≠ none := by
  obtain ⟨t, r, b, w, es, heq, ht, hr, hb, rfl⟩ := farmMessage_inv h
  cases hr with
  | @close _ b' hb' =>
    refine .inl ⟨w, ⟨t, b', ?_, ht, hb'⟩, rfl⟩
    -- the message ends with a brace, so no blank follows the one that closes the object
    rcases List.eq_nil_or_concat b with rfl | ⟨b, c, rfl⟩
    · rw [List.append_nil, ← List.append_assoc] at heq
      exact (eq_of_append_brace heq).1
    · simp only [List.concat_eq_append, ← List.append_assoc] at heq hb
      obtain ⟨-, rfl⟩ := eq_of_append_brace heq
      exact absurd (hb '\x7d' (by simp)) (by decide)
  | @next b' b'' t' es hb' hb'' ht' =>
    right
    obtain ⟨q, c, hq⟩ : ∃ q c, b'' ++ '"' :: t' ++ b = q ++ [c] := by
      rcases List.eq_nil_or_concat (b'' ++ '"' :: t' ++ b) with hnil | ⟨q, c, hq⟩
      · simp at hnil
      · exact ⟨q, c, by rw [hq, List.concat_eq_append]⟩
    have heq' : farm ++ ['\x7d'] = t ++ (b' ++ ',' :: q) ++ [c] := by
      rw [heq]
      simpa using hq
    obtain ⟨rfl, -⟩ := eq_of_append_brace heq'
    rw [Ne, (Document.read_complete ht (hb'.append_cons_stops (.inl rfl))).2]
    intro hblank
    exact absurd (hblank ',' (by simp)) (by decide)

namespace Wire

theorem farmPayload_putValue (w : Value) :
    farmPayload.putValue farmPayload.noSlots "farm" w = (farmShape.ofValue w).map fun f => (some f, ()) :=
  (Fields.putValue_cons _ _ _ _ _ _).trans (if_pos (by decide))

theorem farmPayload_ofEntries (w : Value) :
    farmPayload.ofEntries [("farm", w)] = (farmShape.ofValue w).map fun f => (f, ()) := by
  rw [Fields.ofEntries, List.foldlM_cons, farmPayload_putValue]
  cases farmShape.ofValue w <;> rfl

def configShape : Shape := .record "struct FarmConfig" configFields

theorem configShape_nameless : configShape.Nameless := by
  simp [configShape, configFields, ratioFields, Shape.Nameless, Fields.Nameless]

theorem bootstrapShape_ofValue (c w : Value) :
    bootstrapShape.ofValue (.object [("config", c), ("farm", w)]) = (do
      let k ← configShape.ofValue c
      let f ← farmShape.ofValue w
      return (k, f, ())) := by
  have hconfig : bootstrapFields.putValue bootstrapFields.noSlots "config" c =
      (configShape.ofValue c).map fun k => (some k, none, ()) :=
    (Fields.putValue_cons _ _ _ _ _ _).trans (if_pos (by decide))
  have hfarm (k : configShape.Val) : bootstrapFields.putValue (some k, none, ()) "farm" w =
      (farmShape.ofValue w).map fun f => (some k, some f, ()) := by
    refine (Fields.putValue_cons _ _ _ _ _ _).trans ((if_neg (by decide)).trans ?_)
    change (farmPayload.putValue farmPayload.noSlots "farm" w).map (some k, ·) = _
    rw [farmPayload_putValue]
    cases farmShape.ofValue w <;> rfl
  change ([("config", c), ("farm", w)].foldlM (fun slots e => bootstrapFields.putValue slots e.1 e.2)
    bootstrapFields.noSlots >>= bootstrapFields.complete) = _
  rw [List.foldlM_cons, hconfig]
  cases configShape.ofValue c with
  | error m => rfl
  | ok k =>
    change (bootstrapFields.putValue (some k, none, ()) "farm" w >>= pure) >>= bootstrapFields.complete = _
    rw [hfarm]
    cases farmShape.ofValue w <;> rfl

end Wire

/-- The message of a farm, from the value that holds it. -/
theorem ServerMessage.ofValue_farm (w : Value) :
    ServerMessage.ofValue (.object [("type", .string "farm_state"), ("farm", w)]) =
      match Wire.farmShape.ofValue w.canonical with
      | .ok f => .ok (.farmState (Wire.farmOf f))
      | .error cause => .error (.malformed ⟨.mismatch cause, none⟩) := by
  have hlt : "farm" < "type" := by decide
  have hsorted : (Value.object [("type", .string "farm_state"), ("farm", w)]).canonical =
      .object [("farm", w.canonical), ("type", .string "farm_state")] := by
    simp [Value.canonical, Value.canonicalEntries, sortEntries, insertEntry, hlt]
  have htag : Wire.lookup? "type" [("farm", w.canonical), ("type", .string "farm_state")] =
      some (.string "farm_state") := rfl
  have hrest : ([("farm", w.canonical), ("type", .string "farm_state")] : List (String × Value)).filter
      (fun e => e.1 ≠ "type") = [("farm", w.canonical)] := rfl
  have hkind : Wire.nameIndex? Wire.serverKinds "farm_state" = some ⟨1, by decide⟩ := by decide
  unfold ServerMessage.ofValue
  rw [hsorted]
  simp only [htag, hkind, hrest, Wire.serverMessageOf, Wire.farmPayload_ofEntries]
  cases Wire.farmShape.ofValue w.canonical <;> rfl

section

variable {farm : List Char} {w : Value}

theorem Farm.read_alike (h : Spells farm w) (hp : Wire.farmShape.Plain w) :
    Alike (fun f x => f = Wire.farmOf x) (Farm.read farm) (Wire.farmShape.ofValue w) :=
  (Wire.farmShape.read_alike h hp).map_left fun _ _ h => by rw [h]

/-- A message is read as its farm is, if that is JSON. -/
theorem ServerMessage.read_alike
    (hm : Value.read (farmMessage farm) = .ok (.object [("type", .string "farm_state"), ("farm", w)]))
    (h : Spells farm w) (hd : w.Distinct) (hp : Wire.farmShape.Plain w) :
    Alike (fun m f => m = .farmState f) (ServerMessage.read (farmMessage farm)) (Farm.read farm) := by
  have hv := Wire.farmShape.ofValue_canonical hd
  have hf := Farm.read_alike h hp
  unfold ServerMessage.read
  rw [hm]
  simp only [ofValue_farm]
  generalize Wire.farmShape.ofValue w.canonical = x, Wire.farmShape.ofValue w = y, Farm.read farm = z at hv hf
  cases hv with
  | ok hv =>
    cases hf with
    | ok hf => exact .ok (by rw [hv, hf])
  | error =>
    cases hf with
    | error => exact .error

theorem bootstrapText_eq (config farm : List Char) : bootstrapText config farm =
    '\x7b' :: ([] ++ '"' :: ("config".toList ++ '"' :: ([] ++ ':' :: (config ++ ([] ++ ',' :: ([] ++ '"' ::
      ("farm".toList ++ '"' :: ([] ++ ':' :: (farm ++ ['\x7d']))))))))) := rfl

theorem bootstrapText_spelt {config : List Char} {c : Value} (hc : Spells config c) (hw : Spells farm w) :
    Spells (bootstrapText config farm) (.object [("config", c), ("farm", w)]) := by
  obtain ⟨tc, bc, rfl, htc, hbc⟩ := hc
  obtain ⟨tw, bw, rfl, htw, hbw⟩ := hw
  have hfarm : EntriesText false (bc ++ ',' :: ([] ++ '"' :: ("farm".toList ++ '"' :: ([] ++ ':' ::
      (tw ++ (bw ++ ['\x7d'])))))) [("farm", w)] :=
    .next hbc .nil (.mk (s := "farm".toList) (.of_plain (by decide)) .nil htw (.close hbw))
  have hall : EntriesText true ([] ++ '"' :: ("config".toList ++ '"' :: ([] ++ ':' :: (tc ++ _))))
      [("config", c), ("farm", w)] :=
    .first .nil (.mk (s := "config".toList) (.of_plain (by decide)) .nil htc hfarm)
  refine ⟨_, [], ?_, .object hall, .nil⟩
  rw [bootstrapText_eq]
  simp

/-- A payload is read as its configuration and its farm are, if both are JSON. -/
theorem Bootstrap.read_alike {config : List Char} {c : Value} (hc : Spells config c) (h : Spells farm w)
    (hp : Wire.farmShape.Plain w) :
    Alike (fun b x => b = Wire.bootstrapOf x) (Bootstrap.read (bootstrapText config farm)) (do
      let k ← Wire.configShape.ofValue c
      let f ← Wire.farmShape.ofValue w
      return (k, f, ())) := by
  have hplain : Wire.bootstrapShape.Plain (.object [("config", c), ("farm", w)]) := by
    have hfarm : ¬ Wire.Label.answersTo { key := "farm" } "config" = true := by decide
    have hconfig : ¬ Wire.Label.answersTo { key := "config" } "farm" = true := by decide
    intro e he
    simp only [List.mem_cons, List.not_mem_nil, or_false] at he
    rcases he with rfl | rfl
    · exact ⟨fun _ => Wire.configShape_nameless.plain c, fun h => absurd h hfarm, trivial⟩
    · exact ⟨fun h => absurd h hconfig, fun _ => hp, trivial⟩
  have hread : Alike (fun b x => b = Wire.bootstrapOf x) (Bootstrap.read (bootstrapText config farm))
      (Wire.bootstrapShape.read (bootstrapText config farm)) := by
    unfold Bootstrap.read
    cases Wire.bootstrapShape.read (bootstrapText config farm) with
    | ok x => exact .ok rfl
    | error f => exact .error
  rw [← Wire.bootstrapShape_ofValue]
  exact hread.trans (Wire.bootstrapShape.read_alike (bootstrapText_spelt hc h) hplain)

/-- With a configuration that has been accepted, a payload is read as its farm is. -/
theorem Bootstrap.read_alike_of_config {config : List Char} {c : Value} {b : Bootstrap} (hc : Spells config c)
    (hb : Bootstrap.read (bootstrapText config "\x7b\x7d".toList) = .ok b) (h : Spells farm w)
    (hp : Wire.farmShape.Plain w) :
    Alike (fun b' f => b' = ⟨b.config, f⟩) (Bootstrap.read (bootstrapText config farm)) (Farm.read farm) := by
  have hempty : Spells "\x7b\x7d".toList (.object []) := ⟨_, [], rfl, .object (.close .nil), .nil⟩
  obtain ⟨x, hx, rfl⟩ := (hb ▸ Bootstrap.read_alike hc hempty (by rintro e ⟨⟩)).exists_of_ok
  obtain ⟨k, hk, hx⟩ := exists_ok_of_bind hx
  obtain ⟨f, -, hx⟩ := exists_ok_of_bind hx
  cases hx
  have hboot := Bootstrap.read_alike hc h hp
  have hfarm := Farm.read_alike h hp
  rw [hk] at hboot
  generalize Wire.farmShape.ofValue w = y, Bootstrap.read (bootstrapText config farm) = x, Farm.read farm = z
    at hboot hfarm
  cases y with
  | error m =>
    cases hboot
    cases hfarm
    exact .error
  | ok f' =>
    cases hboot with
    | ok hboot =>
      cases hfarm with
      | ok hfarm => exact .ok (by rw [hboot, hfarm]; rfl)

end

/-- **Decoding a farm alike.** Let the message with a farm be JSON. If the farm
is JSON by itself, without repeated keys and with no crop spelt as an object,
then the message is read as that farm exactly if the farm is, and exactly if a
payload with the farm is whose configuration is accepted; otherwise all of them
are refused. If the farm is not JSON by itself, it is refused by itself. -/
theorem farm_decoded_alike {farm : List Char} {v : Value} (hm : Value.read (farmMessage farm) = .ok v) :
    (∀ w, Value.read farm = .ok w → w.Distinct → Wire.farmShape.Plain w →
      (∀ f, ServerMessage.read (farmMessage farm) = .ok (.farmState f) ↔ Farm.read farm = .ok f) ∧
      ((∃ e, ServerMessage.read (farmMessage farm) = .error e) ↔ ∃ e, Farm.read farm = .error e) ∧
      ∀ config c b, Value.read config = .ok c → Bootstrap.read (bootstrapText config "\x7b\x7d".toList) = .ok b →
        (∀ f, Bootstrap.read (bootstrapText config farm) = .ok ⟨b.config, f⟩ ↔ Farm.read farm = .ok f) ∧
        ((∃ e, Bootstrap.read (bootstrapText config farm) = .error e) ↔ ∃ e, Farm.read farm = .error e)) ∧
    ((∃ e, Value.read farm = .error e) → ∃ e, Farm.read farm = .error e) := by
  obtain ⟨hs, hdep⟩ := Value.read_eq_ok_iff.mp hm
  constructor
  · intro w hw hd hp
    obtain ⟨hspelt, -⟩ := Value.read_eq_ok_iff.mp hw
    obtain ⟨w', hspelt', rfl⟩ | htrail := farmMessage_cases hs
    · obtain rfl := hspelt.unique hspelt'
      have hmessage := ServerMessage.read_alike hm hspelt hd hp
      have hfarm : Function.Injective ServerMessage.farmState := fun _ _ h => ServerMessage.farmState.inj h
      refine ⟨fun f => hmessage.ok_iff_of_injective hfarm, hmessage.error_iff, fun config c b hc hb => ?_⟩
      have hboot := Bootstrap.read_alike_of_config (Value.read_eq_ok_iff.mp hc).1 hb hspelt hp
      have hpayload : Function.Injective (Bootstrap.mk b.config) := fun _ _ h => (Bootstrap.mk.inj h).2
      exact ⟨fun f => hboot.ok_iff_of_injective hpayload, hboot.error_iff⟩
    · exact absurd (spells_iff.mp hspelt).2 htrail
  · rintro ⟨e, he⟩
    obtain ⟨w, hspelt, rfl⟩ | htrail := farmMessage_cases hs
    · -- the farm is nested less deep than its message
      have hw : w.depth < depthLimit := by
        simp only [Value.depth, Value.depthEntries] at hdep
        omega
      rw [Value.read_eq_ok_iff.mpr ⟨hspelt, hw⟩] at he
      cases he
    · cases hf : Farm.read farm with
      | error e => exact ⟨e, rfl⟩
      | ok f =>
        obtain ⟨x, hx, -⟩ := exists_ok_of_map hf
        exact absurd (Document.decode_eq_ok_iff.mp hx).2 htrail

theorem exists_ok_of_isSome {ε α : Type} {x : Except ε α} (h : x.toOption.isSome = true) : ∃ a, x = .ok a := by
  cases x with
  | error e => cases h
  | ok a => exact ⟨a, rfl⟩

/-- A plot with one crop and an empty plot beside it. -/
def plotValue : Value :=
  .object [
    ("grid", .array [.array [.object [("type", .string "wheat"), ("nutrient", .number (.integer 1))], .null]]),
    ("gold", .number (.integer 7))]

def plotFarm : List Char := plotValue.write

def plotConfig : List Char :=
  "\x7b\"grid\":2,\"field_ratio\":[[0,0],[1,0],[0,1],[1,1]],\"background\":\"/b\",\"exec_interval\":9\x7d".toList

theorem farm_decoded_alike_plot :
    ∃ f b, ServerMessage.read (farmMessage plotFarm) = .ok (.farmState f) ∧
      Bootstrap.read (bootstrapText plotConfig plotFarm) = .ok b ∧ b.farm = f ∧ f.gold = some 7 ∧
      (f.cell? 0 0).map Cell.crop = some (some .wheat) := by
  have hspelt : Spells plotFarm plotValue := by
    refine plotValue.write_spelt fun x hx => ?_
    change x ∈ [Number.integer 1, .integer 7] at hx
    simp only [List.mem_cons, List.not_mem_nil, or_false] at hx
    rcases hx with rfl | rfl <;> exact Number.readsBack_integer ⟨by decide, by decide⟩
  have hw : Value.read plotFarm = .ok plotValue := Value.read_eq_ok_iff.mpr ⟨hspelt, by decide⟩
  have hm := Value.read_eq_ok_iff.mpr ⟨farmMessage_spelt hspelt, by decide⟩
  obtain ⟨hmessage, -, hboot⟩ := (farm_decoded_alike hm).1 _ hw
    (by simp [plotValue, Value.Distinct, Value.DistinctEntries, Value.DistinctItems])
    (by simp [plotValue, Wire.farmShape, Wire.farmFields, Wire.cellShape, Wire.cellFields, Wire.leave, Wire.Label.answersTo,
      Wire.Shape.Plain, Wire.Fields.PlainAt])
  obtain ⟨c, hc⟩ : ∃ c, Value.read plotConfig = .ok c := exists_ok_of_isSome (by decide +kernel)
  obtain ⟨b, hb⟩ : ∃ b, Bootstrap.read (bootstrapText plotConfig "\x7b\x7d".toList) = .ok b :=
    exists_ok_of_isSome (by decide +kernel)
  have hsome : (Farm.read plotFarm).toOption.map (fun f => (f.gold, (f.cell? 0 0).map Cell.crop)) =
      some (some 7, some (some .wheat)) := by
    decide +kernel
  cases hf : Farm.read plotFarm with
  | error e =>
    rw [hf] at hsome
    cases hsome
  | ok f =>
    rw [hf] at hsome
    obtain ⟨hgold, hcrop⟩ := Prod.mk.inj (Option.some.inj hsome)
    exact ⟨f, _, (hmessage f).mpr hf, ((hboot _ c b hc hb).1 f).mpr hf, rfl, hgold, hcrop⟩

/-- A text that is no farm by itself: its message has one entry more, which is ignored. -/
theorem farm_text_with_entry :
    Value.read (farmMessage "\x7b\x7d,\"a\":0".toList) =
        .ok (.object [("type", .string "farm_state"), ("farm", .object []), ("a", .number (.integer 0))]) ∧
      ServerMessage.read (farmMessage "\x7b\x7d,\"a\":0".toList) = .ok (.farmState ⟨none, none, []⟩) ∧
      ∃ e, Farm.read "\x7b\x7d,\"a\":0".toList = .error e := by
  have hm : Value.read (farmMessage "\x7b\x7d,\"a\":0".toList) =
      .ok (.object [("type", .string "farm_state"), ("farm", .object []), ("a", .number (.integer 0))]) := by
    have hzero : ValueText ['0'] (.number (.integer 0)) :=
      .number (n := ⟨false, ['0'], [], none⟩) (.mk .zero .none .none) rfl
    have hentry : EntriesText false (",\"a\":0".toList ++ ['\x7d']) [("a", .number (.integer 0))] :=
      .next .nil .nil (.mk (k := ['a']) (.of_plain (by decide)) .nil hzero (.close .nil))
    have hspelt := farmMessage_spelt_of (t := "\x7b\x7d".toList) (.object (.close .nil)) hentry
    exact Value.read_eq_ok_iff.mpr ⟨hspelt, by decide⟩
  refine ⟨hm, ?_, ?_⟩
  · unfold ServerMessage.read
    rw [hm]
    rfl
  · cases hf : Farm.read "\x7b\x7d,\"a\":0".toList with
    | error e => exact ⟨e, rfl⟩
    | ok f =>
      have hnone : (Farm.read "\x7b\x7d,\"a\":0".toList).toOption.isNone = true := by decide +kernel
      rw [hf] at hnone
      cases hnone

end FarmClient
