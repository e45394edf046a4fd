/-
What is written is read back: strings whatever they hold, integers of 64 bits,
and a whole value if its numbers are (`Value.write_spelt`). Of a double it is
only asked here whether its digits are read back as the same double
(`Number.ReadsBack`).
-/
import FarmClient.Json.Printer
import FarmClient.Proofs.JsonGrammar

namespace FarmClient

/-! ## Digits -/

namespace Decimal

theorem isDigit_digitChar {n : Nat} (h : n < 10) : (digitChar n).isDigit = true := by
  have hall : ∀ n < 10, (digitChar n).isDigit = true := by decide
  exact hall n h

theorem digitChar_ne_zero {n : Nat} (h : n < 10) (hn : 0 < n) : digitChar n ≠ '0' := by
  have hall : ∀ n < 10, 0 < n → digitChar n ≠ '0' := by decide
  exact hall n h hn

theorem digits_isDigit (n : Nat) : ∀ c ∈ digits n, c.isDigit = true := by
  induction n using Nat.strongRecOn with
  | _ n ih =>
    intro c hc
    rw [digits] at hc
    split at hc
    · next h =>
      rw [List.mem_singleton.mp hc]
      exact isDigit_digitChar h
    · next h =>
      rcases List.mem_append.mp hc with hc | hc
      · exact ih (n / 10) (by omega) c hc
      · rw [List.mem_singleton.mp hc]
        exact isDigit_digitChar (Nat.mod_lt n (by omega))

/-- No zero leads the digits of a positive number. -/
theorem digits_eq_cons {n : Nat} (h : 0 < n) : ∃ c cs, digits n = c :: cs ∧ c ≠ '0' := by
  induction n using Nat.strongRecOn with
  | _ n ih =>
    rw [digits]
    split
    · next hn => exact ⟨digitChar n, [], rfl, digitChar_ne_zero hn h⟩
    · next hn =>
      obtain ⟨c, cs, hd, hc⟩ := ih (n / 10) (by omega) (by omega)
      exact ⟨c, cs ++ [digitChar (n % 10)], by rw [hd, List.cons_append], hc⟩

end Decimal

namespace Json

open Decimal (digits)

theorem digits_ne_nil (n : Nat) : digits n ≠ [] := by
  rw [digits]
  split <;> simp

theorem wholeText_digits (n : Nat) : WholeText (digits n) := by
  rcases Nat.eq_zero_or_pos n with rfl | h
  · rw [digits, if_pos (by decide)]
    exact .zero
  · have hd : Digits (digits n) := ⟨digits_ne_nil n, Decimal.digits_isDigit n⟩
    obtain ⟨c, cs, hn, hc⟩ := Decimal.digits_eq_cons h
    rw [hn] at hd ⊢
    exact .digits hc hd

theorem gather_append {n m : Nat} {cs : List Char} (h : gather n cs = (m, [])) (ds : List Char) :
    gather n (cs ++ ds) = gather m ds := by
  induction cs generalizing n with
  | nil => cases h; rfl
  | cons c cs ih =>
    simp only [gather] at h
    simp only [List.cons_append, gather]
    split at h
    · next hlt => rw [if_pos hlt, ih h]
    · cases h

/-- Digits of a number of 64 bits are gathered to the last. -/
theorem gather_digits {n : Nat} (h : n < UInt64.size) : gather 0 (digits n) = (n, []) := by
  induction n using Nat.strongRecOn with
  | _ n ih =>
    rw [digits]
    split
    · next hn => simp [gather, Decimal.digitValue_digitChar hn, h]
    · next hn =>
      rw [gather_append (ih (n / 10) (by omega) (by omega))]
      have hval : 10 * (n / 10) + Decimal.digitValue (Decimal.digitChar (n % 10)) = n := by
        rw [Decimal.digitValue_digitChar (Nat.mod_lt n (by omega))]
        omega
      simp [gather, hval, h]

/-! ## Numbers -/

/-- The number is read back from its text. -/
def Number.ReadsBack (x : Number) : Prop := Value.read (writeNumber x) = .ok (.number x)

theorem Number.readsBack_iff {x : Number} : x.ReadsBack ↔ Spells (writeNumber x) (.number x) := by
  rw [ReadsBack, Value.read_eq_ok_iff]
  exact and_iff_left (by simp [Value.depth, depthLimit])

/-- The integers that a text can hold without loss. -/
def InRange (n : Int) : Prop := -Nat.pow 2 63 ≤ n ∧ n < UInt64.size

theorem Number.readsBack_integer {n : Int} (h : InRange n) : (Number.integer n).ReadsBack := by
  obtain ⟨hlow, hhigh⟩ := h
  rw [readsBack_iff]
  cases n with
  | ofNat n =>
    have hn : n < UInt64.size := Int.ofNat_lt.mp hhigh
    have hv : (⟨false, digits n, [], none⟩ : Numeral).value = .ok (.integer n) := by
      simp [Numeral.value, gather_digits hn]
    refine ⟨digits n, [], ?_, .number ?_ hv, .nil⟩
    · simp [writeNumber, Decimal.intText, Decimal.natText]
    · simpa using (.mk (wholeText_digits n) .none .none : NumeralText false _ _)
  | negSucc n =>
    have hn : n + 1 ≤ Nat.pow 2 63 := by
      rw [Int.negSucc_eq] at hlow
      omega
    have hv : (⟨true, digits (n + 1), [], none⟩ : Numeral).value = .ok (.integer (.negSucc n)) := by
      have hsize : n + 1 < UInt64.size := Nat.lt_of_le_of_lt hn (by decide)
      have hfits : ¬ Nat.pow 2 63 < n + 1 := Nat.not_lt.mpr hn
      have hneg : (decide (n + 1 = 0) || decide (Nat.pow 2 63 < n + 1)) = false := by simp [hfits]
      simp only [Numeral.value, gather_digits hsize, List.isEmpty_nil, Option.isNone_none, Bool.and_self, Bool.not_true,
        Bool.false_eq_true, if_true, if_false, hneg]
      rfl
    refine ⟨'-' :: digits (n + 1), [], ?_, .negative ?_ hv, .nil⟩
    · simp [writeNumber, Decimal.intText, Decimal.natText]
    · simpa using (.mk (wholeText_digits (n + 1)) .none .none : NumeralText true _ _)

/-! ## Strings -/

theorem StringText.escapeChar (c : Char) {t s : List Char} (h : StringText t s) :
    StringText (escapeChar c ++ t) (c :: s) := by
  unfold Json.escapeChar
  split
  · next hc => subst hc; exact .short (by decide) h
  split
  · next hc => subst hc; exact .short (by decide) h
  split
  · next hc => subst hc; exact .short (by decide) h
  split
  · next hc => subst hc; exact .short (by decide) h
  split
  · next hc => subst hc; exact .short (by decide) h
  split
  · next hc => subst hc; exact .short (by decide) h
  split
  · next hc => subst hc; exact .short (by decide) h
  split
  · next hc =>
    have hhex : ∀ n < 32, hexFour? '0' '0' (Nat.digitChar (n / 16)) (Nat.digitChar (n % 16)) = some n := by decide
    have hcode := StringText.code (hhex c.toNat hc) (by rw [isHighHalf]; omega) (by rw [isLowHalf]; omega) h
    rwa [Char.ofNat_toNat] at hcode
  · next hq hb _ _ _ _ _ hc => exact .plain hq hb (Nat.not_lt.mp hc) h

theorem stringText_escaped (s : List Char) : StringText (s.flatMap escapeChar) s := by
  induction s with
  | nil => exact .nil
  | cons c s ih =>
    rw [List.flatMap_cons]
    exact ih.escapeChar c

theorem writeString_eq (s : String) : writeString s = '"' :: (s.toList.flatMap escapeChar ++ ['"']) := rfl

theorem valueText_writeString (s : String) : ValueText (writeString s) (.string s) := by
  rw [writeString_eq]
  simpa using ValueText.string (stringText_escaped s.toList)

/-! ## Values -/

mutual

/-- The numbers in a value. -/
def Value.numbers : Value → List Number
  | .number x => [x]
  | .array vs => numbersOfItems vs
  | .object es => numbersOfEntries es
  | _ => []

def Value.numbersOfItems : List Value → List Number
  | [] => []
  | v :: vs => v.numbers ++ numbersOfItems vs

def Value.numbersOfEntries : List (String × Value) → List Number
  | [] => []
  | (_, v) :: es => v.numbers ++ numbersOfEntries es

end

theorem ItemsText.pad {b t : List Char} {vs : List Value} (hb : Blank b) (h : ItemsText false t vs) :
    ItemsText false (b ++ t) vs := by
  cases h with
  | close hb' => simpa using ItemsText.close (hb.append hb')
  | next hb' hv hvs => simpa using ItemsText.next (hb.append hb') hv hvs

theorem EntriesText.pad {b t : List Char} {es : List (String × Value)} (hb : Blank b) (h : EntriesText false t es) :
    EntriesText false (b ++ t) es := by
  cases h with
  | close hb' => simpa using EntriesText.close (hb.append hb')
  | next hb' hb'' h => simpa using EntriesText.next (hb.append hb') hb'' h

/-- Items that may begin an array may follow a comma. -/
theorem ItemsText.after_comma {t : List Char} {v : Value} {vs : List Value} (h : ItemsText true t (v :: vs)) :
    ItemsText false (',' :: t) (v :: vs) := by
  cases h with
  | first hv hvs => exact .next .nil hv hvs

theorem EntriesText.after_comma {t : List Char} {e : String × Value} {es : List (String × Value)}
    (h : EntriesText true t (e :: es)) : EntriesText false (',' :: t) (e :: es) := by
  cases h with
  | first hb h => exact .next .nil hb h

theorem ItemsText.cons {t r : List Char} {v : Value} {vs : List Value} (hv : Spells t v) (h : ItemsText false r vs) :
    ItemsText true (t ++ r) (v :: vs) := by
  obtain ⟨t, b, rfl, ht, hb⟩ := hv
  simpa using ItemsText.first ht (h.pad hb)

theorem EntriesText.cons {t r : List Char} {v : Value} {es : List (String × Value)} (k : String) (hv : Spells t v)
    (h : EntriesText false r es) : EntriesText true (writeString k ++ ':' :: (t ++ r)) ((k, v) :: es) := by
  obtain ⟨t, b, rfl, ht, hb⟩ := hv
  rw [writeString_eq]
  simpa using EntriesText.first .nil (.mk (stringText_escaped k.toList) .nil ht (h.pad hb))

mutual

/-- **Writing spells the value**, if its numbers are read back. -/
theorem Value.write_spelt : ∀ v : Value, (∀ x ∈ v.numbers, x.ReadsBack) → Spells v.write v
  | .null, _ => ⟨_, [], (List.append_nil _).symm, .null, .nil⟩
  | .bool true, _ => ⟨_, [], (List.append_nil _).symm, .isTrue, .nil⟩
  | .bool false, _ => ⟨_, [], (List.append_nil _).symm, .isFalse, .nil⟩
  | .number x, h => Number.readsBack_iff.mp (h x (List.mem_singleton_self x))
  | .string s, _ => ⟨_, [], (List.append_nil _).symm, valueText_writeString s, .nil⟩
  | .array vs, h => ⟨_, [], (List.append_nil _).symm, .array (writeItems_spelt vs h), .nil⟩
  | .object es, h => ⟨_, [], (List.append_nil _).symm, .object (writeEntries_spelt es h), .nil⟩

theorem Value.writeItems_spelt : ∀ vs : List Value, (∀ x ∈ numbersOfItems vs, x.ReadsBack) →
    ItemsText true (writeItems vs ++ [']']) vs
  | [], _ => .close .nil
  | [v], h => by
    rw [writeItems]
    exact .cons (v.write_spelt fun x hx => h x (List.mem_append_left _ hx)) (.close .nil)
  | v :: w :: vs, h => by
    change ItemsText true (v.write ++ ',' :: writeItems (w :: vs) ++ [']']) _
    rw [List.append_assoc, List.cons_append]
    exact .cons (v.write_spelt fun x hx => h x (List.mem_append_left _ hx))
      (writeItems_spelt (w :: vs) fun x hx => h x (List.mem_append_right _ hx)).after_comma

theorem Value.writeEntries_spelt : ∀ es : List (String × Value), (∀ x ∈ numbersOfEntries es, x.ReadsBack) →
    EntriesText true (writeEntries es ++ ['\x7d']) es
  | [], _ => .close .nil
  | [(k, v)], h => by
    rw [writeEntries, List.append_assoc, List.cons_append]
    exact .cons k (v.write_spelt fun x hx => h x (List.mem_append_left _ hx)) (.close .nil)
  | (k, v) :: e :: es, h => by
    change EntriesText true (writeString k ++ ':' :: v.write ++ ',' :: writeEntries (e :: es) ++ ['\x7d']) _
    rw [List.append_assoc, List.append_assoc, List.cons_append, List.cons_append]
    exact .cons k (v.write_spelt fun x hx => h x (List.mem_append_left _ hx))
      (writeEntries_spelt (e :: es) fun x hx => h x (List.mem_append_right _ hx)).after_comma

end

end Json

end FarmClient
