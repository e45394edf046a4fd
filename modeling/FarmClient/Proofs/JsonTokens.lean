/-
The tokens of JSON: blanks, strings and numbers, each with what may stand in a
text for it. A scanner finds a token exactly if the text begins with one. A
string closes itself; a number ends where nothing follows that could belong
to it (`Stops`).
-/
import Mathlib.Data.List.TakeWhile
import FarmClient.Json.Value

namespace FarmClient.Json

/-! ## Blanks -/

def Blank (b : List Char) : Prop := ∀ c ∈ b, isSpace c = true

theorem Blank.nil : Blank [] := by simp [Blank]

theorem Blank.cons {c : Char} {b : List Char} (hc : isSpace c = true) (h : Blank b) : Blank (c :: b) := by
  intro d hd
  rcases List.mem_cons.mp hd with rfl | hd
  · exact hc
  · exact h d hd

theorem Blank.append {b c : List Char} (hb : Blank b) (hc : Blank c) : Blank (b ++ c) := by
  intro d hd
  rcases List.mem_append.mp hd with hd | hd
  · exact hb d hd
  · exact hc d hd

/-- The text does not begin with a blank. -/
def Starts (cs : List Char) : Prop := ∀ c, cs.head? = some c → isSpace c = false

theorem starts_nil : Starts [] := by rintro _ ⟨⟩

theorem starts_cons (c : Char) (cs : List Char) (hc : isSpace c = false) : Starts (c :: cs) := by
  rintro _ ⟨⟩
  exact hc

theorem skipSpace_complete {b cs : List Char} (hb : Blank b) (hc : Starts cs) (pos : Nat) :
    ∃ stop, skipSpace (b ++ cs) pos = (cs, stop) := by
  induction b generalizing pos with
  | nil =>
    cases cs with
    | nil => exact ⟨pos, rfl⟩
    | cons c cs => exact ⟨pos, by simp [skipSpace, hc c rfl]⟩
  | cons c b ih =>
    have hs : isSpace c = true := hb c (by simp)
    simp only [List.cons_append, skipSpace, hs, if_true]
    exact ih (fun d hd => hb d (by simp [hd])) (pos + 1)

theorem skipSpace_sound {cs rest : List Char} {pos stop : Nat} (h : skipSpace cs pos = (rest, stop)) :
    ∃ b, cs = b ++ rest ∧ Blank b := by
  induction cs generalizing pos with
  | nil => cases h; exact ⟨[], rfl, .nil⟩
  | cons c cs ih =>
    simp only [skipSpace] at h
    split at h
    · next hs =>
      obtain ⟨b, rfl, hb⟩ := ih h
      exact ⟨c :: b, rfl, .cons hs hb⟩
    · cases h
      exact ⟨[], rfl, .nil⟩

theorem exists_skipSpace (cs : List Char) (pos : Nat) :
    ∃ b rest stop, cs = b ++ rest ∧ Blank b ∧ skipSpace cs pos = (rest, stop) := by
  obtain ⟨b, hcs, hb⟩ := skipSpace_sound (rfl : skipSpace cs pos = (_, _))
  exact ⟨b, _, _, hcs, hb, rfl⟩

/-! ## Words -/

theorem scanWord_complete (word rest : List Char) (pos : Nat) :
    ∃ stop, scanWord word (word ++ rest) pos = .ok (rest, stop) := by
  induction word generalizing pos with
  | nil => exact ⟨pos, rfl⟩
  | cons w word ih => simpa only [List.cons_append, scanWord, if_true] using ih (pos + 1)

theorem scanWord_sound {word cs rest : List Char} {pos stop : Nat} (h : scanWord word cs pos = .ok (rest, stop)) :
    cs = word ++ rest := by
  induction word generalizing cs pos with
  | nil => cases h; rfl
  | cons w word ih =>
    cases cs with
    | nil => cases h
    | cons c cs =>
      simp only [scanWord] at h
      split at h
      · next hc => rw [hc, ih h, List.cons_append]
      · cases h

/-! ## Strings -/

def isHighHalf (n : Nat) : Prop := 0xD800 ≤ n ∧ n ≤ 0xDBFF

def isLowHalf (n : Nat) : Prop := 0xDC00 ≤ n ∧ n ≤ 0xDFFF

/-- What stands between the quotes of a string, and the characters it means. -/
inductive StringText : List Char → List Char → Prop
  | nil : StringText [] []
  | plain {c t s} : c ≠ '"' → c ≠ '\\' → 32 ≤ c.toNat → StringText t s → StringText (c :: t) (c :: s)
  | short {e c t s} : shortEscape? e = some c → StringText t s → StringText ('\\' :: e :: t) (c :: s)
  | code {a b c d n t s} : hexFour? a b c d = some n → ¬ isHighHalf n → ¬ isLowHalf n → StringText t s →
      StringText ('\\' :: 'u' :: a :: b :: c :: d :: t) (Char.ofNat n :: s)
  | pair {a b c d high a' b' c' d' low t s} : hexFour? a b c d = some high → isHighHalf high →
      hexFour? a' b' c' d' = some low → isLowHalf low → StringText t s →
      StringText ('\\' :: 'u' :: a :: b :: c :: d :: '\\' :: 'u' :: a' :: b' :: c' :: d' :: t)
        (pairChar high low :: s)

theorem scanHexFour_complete {a b c d : Char} {n : Nat} (h : hexFour? a b c d = some n) (rest : List Char) (pos : Nat) :
    scanHexFour (a :: b :: c :: d :: rest) pos = .ok (n, rest) := by
  simp only [scanHexFour, h]

theorem scanHexFour_sound {cs rest : List Char} {pos n : Nat} (h : scanHexFour cs pos = .ok (n, rest)) :
    ∃ a b c d, cs = a :: b :: c :: d :: rest ∧ hexFour? a b c d = some n := by
  unfold scanHexFour at h
  split at h
  · split at h
    · next hn =>
      cases h
      exact ⟨_, _, _, _, rfl, hn⟩
    · cases h
  · cases h

theorem scanLowHalf_complete {a b c d : Char} {n : Nat} (h : hexFour? a b c d = some n) (hn : isLowHalf n)
    (rest : List Char) (pos : Nat) :
    scanLowHalf ('\\' :: 'u' :: a :: b :: c :: d :: rest) pos = .ok (n, rest) := by
  simp only [scanLowHalf, scanHexFour_complete h, bind, Except.bind]
  exact if_pos hn

theorem scanLowHalf_sound {cs rest : List Char} {pos n : Nat} (h : scanLowHalf cs pos = .ok (n, rest)) :
    ∃ a b c d, cs = '\\' :: 'u' :: a :: b :: c :: d :: rest ∧ hexFour? a b c d = some n ∧ isLowHalf n := by
  unfold scanLowHalf at h
  split at h
  · cases h
  · cases h
  · next rest' =>
    cases hs : scanHexFour rest' (pos + 2) with
    | error f => simp [hs, bind, Except.bind] at h
    | ok r =>
      obtain ⟨m, rest''⟩ := r
      obtain ⟨a, b, c, d, rfl, hm⟩ := scanHexFour_sound hs
      simp only [hs, bind, Except.bind] at h
      split at h
      · next hl =>
        cases h
        exact ⟨a, b, c, d, rfl, hm, hl⟩
      · cases h
  · cases h
  · cases h

theorem shortEscape?_ne {e c : Char} (h : shortEscape? e = some c) : e ≠ 'u' := by
  rintro rfl
  simp [shortEscape?] at h

/-- A string that is closed is found, with enough fuel. -/
theorem scanString_complete {t s : List Char} (h : StringText t s) (rest : List Char) :
    ∀ {n : Nat} (done : List Char) (pos : Nat), t.length < n →
      ∃ stop, scanString n none done (t ++ '"' :: rest) pos =
        .closed (.ok (String.ofList (done.reverse ++ s))) rest stop := by
  induction h with
  | nil =>
    intro n done pos hn
    obtain ⟨n, rfl⟩ := Nat.exists_eq_add_of_lt hn
    exact ⟨pos + 1, by simp [scanString]⟩
  | @plain c t s hq hb hc _ ih =>
    intro n done pos hn
    obtain ⟨n, rfl⟩ : ∃ m, n = m + 1 := ⟨n - 1, by omega⟩
    have hc' : ¬ c.toNat < 32 := Nat.not_lt.mpr hc
    obtain ⟨stop, hs⟩ := ih (n := n) (c :: done) (pos + c.utf8Size) (by simp at hn; omega)
    refine ⟨stop, ?_⟩
    rw [List.cons_append, scanString]
    · simpa [hc'] using hs
    · exact hq
    all_goals simp [hb]
  | @short e c t s he _ ih =>
    intro n done pos hn
    obtain ⟨n, rfl⟩ : ∃ m, n = m + 1 := ⟨n - 1, by omega⟩
    obtain ⟨stop, hs⟩ := ih (n := n) (c :: done) (pos + 2) (by simp at hn; omega)
    refine ⟨stop, ?_⟩
    rw [List.cons_append, List.cons_append, scanString]
    · simpa [he] using hs
    · exact shortEscape?_ne he
  | @code a b c d m t s hx hh hl _ ih =>
    intro n done pos hn
    obtain ⟨n, rfl⟩ : ∃ m, n = m + 1 := ⟨n - 1, by omega⟩
    obtain ⟨stop, hs⟩ := ih (n := n) (Char.ofNat m :: done) (pos + 6) (by simp at hn; omega)
    refine ⟨stop, ?_⟩
    simp only [isHighHalf, isLowHalf] at hh hl
    simpa [scanString, scanHexFour_complete hx, hh, hl] using hs
  | @pair a b c d high a' b' c' d' low t s hx hh hx' hl _ ih =>
    intro n done pos hn
    obtain ⟨n, rfl⟩ : ∃ m, n = m + 1 := ⟨n - 1, by omega⟩
    obtain ⟨stop, hs⟩ := ih (n := n) (pairChar high low :: done) (pos + 12) (by simp at hn; omega)
    refine ⟨stop, ?_⟩
    have hnl : ¬ (0xDC00 ≤ high ∧ high ≤ 0xDFFF) := by simp only [isHighHalf] at hh; omega
    simpa [scanString, scanHexFour_complete hx, hnl, show 0xD800 ≤ high ∧ high ≤ 0xDBFF from hh,
      scanLowHalf_complete hx' hl] using hs

/-- A string that is found, and can be read, stands there. -/
theorem scanString_sound {n : Nat} {first : Option Fault} {done cs rest : List Char} {pos stop : Nat} {text : String}
    (h : scanString n first done cs pos = .closed (.ok text) rest stop) :
    first = none ∧ ∃ t s, cs = t ++ '"' :: rest ∧ StringText t s ∧ text = String.ofList (done.reverse ++ s) := by
  fun_induction scanString n first done cs pos with
  | case1 | case2 | case4 | case5 | case11 | case12 => cases h
  | case3 n first done pos _ text' =>
    injection h with ht hr
    subst hr
    cases first with
    | some f => simp [text'] at ht
    | none => exact ⟨rfl, [], [], rfl, .nil, by simpa [text'] using ht.symm⟩
  | case6 n first done pos _ m _ hx hl ih | case8 n first done pos _ m _ hx hl hh f hf ih =>
    -- such a string can be skipped, but not read
    have hn := (ih h).1
    cases first <;> cases hn
  | case7 n first done pos _ m _ hx hl hh low _ hs ih =>
    obtain ⟨hn, t, s, rfl, ht, rfl⟩ := ih h
    obtain ⟨a, b, c, d, rfl, hm⟩ := scanHexFour_sound hx
    obtain ⟨a', b', c', d', rfl, hm', hl'⟩ := scanLowHalf_sound hs
    exact ⟨hn, _, _, rfl, .pair hm hh hm' hl' ht, by simp⟩
  | case9 n first done pos _ m _ hx hl hh ih =>
    obtain ⟨hn, t, s, rfl, ht, rfl⟩ := ih h
    obtain ⟨a, b, c, d, rfl, hm⟩ := scanHexFour_sound hx
    exact ⟨hn, _, _, rfl, .code hm hh hl ht, by simp⟩
  | case10 n first done pos e _ hu c he ih =>
    obtain ⟨hn, t, s, rfl, ht, rfl⟩ := ih h
    exact ⟨hn, _, _, rfl, .short he ht, by simp⟩
  | case13 n first done pos c _ hq _ _ hb hc ih =>
    obtain ⟨hn, t, s, rfl, ht, rfl⟩ := ih h
    have hb : c ≠ '\\' := by
      rintro rfl
      cases t with
      | nil => exact hb _ _ rfl rfl
      | cons e t => exact hb _ _ rfl rfl
    exact ⟨hn, _, _, rfl, .plain hq hb (Nat.not_lt.mp hc) ht, by simp⟩

/-! ## Numbers -/

/-- Decimal digits, one at least. -/
structure Digits (ds : List Char) : Prop where
  ne_nil : ds ≠ []
  isDigit : ∀ c ∈ ds, c.isDigit = true

/-- The whole part of a number: no zero leads other digits. -/
inductive WholeText : List Char → Prop
  | zero : WholeText ['0']
  | digits {c ds} : c ≠ '0' → Digits (c :: ds) → WholeText (c :: ds)

/-- What may stand for the fraction of a number. -/
inductive FractionText : List Char → List Char → Prop
  | none : FractionText [] []
  | digits {ds} : Digits ds → FractionText ('.' :: ds) ds

/-- What may stand for the exponent of a number. -/
inductive ExponentText : List Char → Option (Bool × List Char) → Prop
  | none : ExponentText [] none
  | bare {m ds} : m = 'e' ∨ m = 'E' → Digits ds → ExponentText (m :: ds) (some (false, ds))
  | plus {m ds} : m = 'e' ∨ m = 'E' → Digits ds → ExponentText (m :: '+' :: ds) (some (false, ds))
  | minus {m ds} : m = 'e' ∨ m = 'E' → Digits ds → ExponentText (m :: '-' :: ds) (some (true, ds))

/-- A number without its sign. -/
inductive NumeralText (negative : Bool) : List Char → Numeral → Prop
  | mk {w f fs x e} : WholeText w → FractionText f fs → ExponentText x e →
      NumeralText negative (w ++ (f ++ x)) ⟨negative, w, fs, e⟩

/-- The text goes on with nothing that could belong to a number. -/
def Stops (rest : List Char) : Prop :=
  ∀ c, rest.head? = some c → isSpace c = true ∨ c = ',' ∨ c = ']' ∨ c = '\x7d'

/-- The text goes on without a digit. -/
def NoDigit (rest : List Char) : Prop := ∀ c, rest.head? = some c → c.isDigit = false

theorem Stops.ne {rest : List Char} (h : Stops rest) {c : Char} (hc : rest.head? = some c) :
    c.isDigit = false ∧ c ≠ '.' ∧ c ≠ 'e' ∧ c ≠ 'E' := by
  rcases h c hc with hs | rfl | rfl | rfl
  · simp only [isSpace, Bool.or_eq_true, decide_eq_true_eq] at hs
    rcases hs with ((rfl | rfl) | rfl) | rfl <;> decide
  all_goals decide

theorem Digits.takeWhile {ds rest : List Char} (h : Digits ds) (hr : NoDigit rest) :
    (ds ++ rest).takeWhile Char.isDigit = ds ∧ (ds ++ rest).dropWhile Char.isDigit = rest := by
  rw [List.takeWhile_append_of_pos h.isDigit, List.dropWhile_append_of_pos h.isDigit]
  cases rest with
  | nil => simp
  | cons c rest => simp [hr c rfl]

theorem Digits.exists_cons {ds : List Char} (h : Digits ds) : ∃ d ds', ds = d :: ds' ∧ d.isDigit = true := by
  obtain ⟨d, ds', rfl⟩ := List.exists_cons_of_ne_nil h.ne_nil
  exact ⟨d, ds', rfl, h.isDigit d (by simp)⟩

theorem Digits.of_takeWhile {cs : List Char} (h : cs.takeWhile Char.isDigit ≠ []) :
    Digits (cs.takeWhile Char.isDigit) :=
  ⟨h, fun _ hc => List.mem_takeWhile_imp hc⟩

theorem scanWhole_complete {w rest : List Char} (h : WholeText w) (hr : NoDigit rest) (pos : Nat) :
    ∃ stop, scanWhole (w ++ rest) pos = .ok (w, rest, stop) := by
  cases h with
  | zero =>
    cases rest with
    | nil => exact ⟨_, by simp [scanWhole]; rfl⟩
    | cons c rest => exact ⟨_, by simp [scanWhole, hr c rfl]; rfl⟩
  | @digits c ds hc hd =>
    obtain ⟨ht, hw⟩ := hd.takeWhile hr
    have hdig : c.isDigit = true := hd.isDigit c (by simp)
    refine ⟨pos + (c :: ds).length, ?_⟩
    rw [List.cons_append] at ht hw ⊢
    unfold scanWhole
    split
    · next heq => cases heq
    · next heq => exact absurd (List.cons.inj heq).1 hc
    · next heq =>
      obtain ⟨rfl, rfl⟩ := List.cons.inj heq
      simp [hdig, ht, hw]

theorem scanWhole_sound {w cs rest : List Char} {pos stop : Nat} (h : scanWhole cs pos = .ok (w, rest, stop)) :
    cs = w ++ rest ∧ WholeText w := by
  unfold scanWhole at h
  split at h
  · cases h
  · split at h <;> cases h
    exact ⟨rfl, .zero⟩
  · next c cs hz =>
    split at h
    · next hc =>
      cases h
      refine ⟨(List.takeWhile_append_dropWhile).symm, ?_⟩
      have hd : (c :: cs).takeWhile Char.isDigit = c :: cs.takeWhile Char.isDigit := by simp [hc]
      have hds : Digits ((c :: cs).takeWhile Char.isDigit) := .of_takeWhile (by simp [hd])
      rw [hd] at hds ⊢
      by_cases h0 : c = '0'
      · subst h0
        cases cs with
        | nil => exact .zero
        | cons d cs => exact absurd rfl (hz d cs · rfl)
      · exact .digits h0 hds
    · cases h

theorem scanFraction_none {cs : List Char} (h : cs.head? ≠ some '.') (pos : Nat) :
    scanFraction cs pos = .ok ([], cs, pos) := by
  unfold scanFraction
  split
  · exact absurd rfl h
  · rfl

theorem scanFraction_complete {f fs rest : List Char} (h : FractionText f fs) (hr : NoDigit rest)
    (hp : rest.head? ≠ some '.') (pos : Nat) : ∃ stop, scanFraction (f ++ rest) pos = .ok (fs, rest, stop) := by
  cases h with
  | none => exact ⟨pos, scanFraction_none hp pos⟩
  | digits hd =>
    obtain ⟨ht, hw⟩ := hd.takeWhile hr
    refine ⟨pos + 1 + fs.length, ?_⟩
    simp [scanFraction, ht, hw, hd.ne_nil]

theorem scanFraction_sound {fs cs rest : List Char} {pos stop : Nat}
    (h : scanFraction cs pos = .ok (fs, rest, stop)) : ∃ f, cs = f ++ rest ∧ FractionText f fs := by
  by_cases hp : cs.head? = some '.'
  · obtain ⟨cs, rfl⟩ := List.head?_eq_some_iff.mp hp
    simp only [scanFraction] at h
    by_cases hd : (cs.takeWhile Char.isDigit).isEmpty = true
    · rw [if_pos hd] at h
      cases cs <;> cases h
    · rw [if_neg hd] at h
      cases h
      refine ⟨'.' :: cs.takeWhile Char.isDigit, ?_, .digits (.of_takeWhile (by simpa using hd))⟩
      rw [List.cons_append, List.takeWhile_append_dropWhile]
  · rw [scanFraction_none hp] at h
    cases h
    exact ⟨[], rfl, .none⟩

/-- The sign of an exponent, taken off. -/
def takeSign (cs : List Char) (pos : Nat) : Bool × List Char × Nat :=
  match cs with
  | '-' :: rest => (true, rest, pos + 2)
  | '+' :: rest => (false, rest, pos + 2)
  | rest => (false, rest, pos + 1)

theorem takeSign_of_isDigit {d : Char} (h : d.isDigit = true) (cs : List Char) (pos : Nat) :
    takeSign (d :: cs) pos = (false, d :: cs, pos + 1) := by
  unfold takeSign
  split
  · next heq => simp [(List.cons.inj heq).1] at h
  · next heq => simp [(List.cons.inj heq).1] at h
  · rfl

theorem takeSign_sound {below : Bool} {cs ds : List Char} {pos stop : Nat} (h : takeSign cs pos = (below, ds, stop)) :
    cs = '-' :: ds ∧ below = true ∨ cs = '+' :: ds ∧ below = false ∨ cs = ds ∧ below = false := by
  unfold takeSign at h
  split at h <;> cases h <;> simp

theorem scanExponent_none {cs : List Char} (h : ∀ c, cs.head? = some c → c ≠ 'e' ∧ c ≠ 'E') (pos : Nat) :
    scanExponent cs pos = .ok (none, cs, pos) := by
  cases cs with
  | nil => rfl
  | cons c cs =>
    obtain ⟨he, hE⟩ := h c rfl
    simp [scanExponent, he, hE]

/-- What is read of an exponent after its sign. -/
def exponentAfter : Bool × List Char × Nat → Except Damage (Option (Bool × List Char) × List Char × Nat)
  | (_, [], after) => .error (.split .endInValue .invalidNumber after)
  | (below, d :: ds, after) =>
    if d.isDigit then
      .ok (some (below, (d :: ds).takeWhile Char.isDigit), (d :: ds).dropWhile Char.isDigit,
        after + ((d :: ds).takeWhile Char.isDigit).length)
    else .error (.both .invalidNumber (after + 1))

theorem scanExponent_mark {m : Char} (hm : m = 'e' ∨ m = 'E') (cs : List Char) (pos : Nat) :
    scanExponent (m :: cs) pos = exponentAfter (takeSign cs pos) := by
  have hm' : (decide (m = 'e') || decide (m = 'E')) = true := by simpa using hm
  simp only [scanExponent, hm', if_true]
  rw [takeSign.eq_def]
  rcases cs with _ | ⟨d, ds⟩
  · rfl
  by_cases hminus : d = '-'
  · subst hminus
    cases ds <;> rfl
  by_cases hplus : d = '+'
  · subst hplus
    cases ds <;> rfl
  · simp [hminus, hplus, exponentAfter]

theorem scanExponent_complete {x rest : List Char} {e : Option (Bool × List Char)} (h : ExponentText x e)
    (hr : NoDigit rest) (he : ∀ c, rest.head? = some c → c ≠ 'e' ∧ c ≠ 'E') (pos : Nat) :
    ∃ stop, scanExponent (x ++ rest) pos = .ok (e, rest, stop) := by
  cases h with
  | none => exact ⟨pos, scanExponent_none he pos⟩
  | bare hm hd | plus hm hd | minus hm hd =>
    obtain ⟨ht, hw⟩ := hd.takeWhile hr
    obtain ⟨d, ds, rfl, hdig⟩ := hd.exists_cons
    have hex (below : Bool) (after : Nat) : ∃ stop, exponentAfter (below, d :: ds ++ rest, after) =
        .ok (some (below, d :: ds), rest, stop) := by
      simp only [List.cons_append] at ht hw ⊢
      simp [exponentAfter, hdig, ht, hw]
    rw [List.cons_append, scanExponent_mark hm]
    first
      | exact hex _ _
      | rw [List.cons_append, takeSign_of_isDigit hdig]
        exact hex _ _

theorem scanExponent_sound {e : Option (Bool × List Char)} {cs rest : List Char} {pos stop : Nat}
    (h : scanExponent cs pos = .ok (e, rest, stop)) : ∃ x, cs = x ++ rest ∧ ExponentText x e := by
  cases cs with
  | nil =>
    cases h
    exact ⟨[], rfl, .none⟩
  | cons m cs =>
    by_cases hm : m = 'e' ∨ m = 'E'
    · rw [scanExponent_mark hm] at h
      obtain ⟨below, ds, after, hs⟩ : ∃ below ds after, takeSign cs pos = (below, ds, after) := ⟨_, _, _, rfl⟩
      rw [hs] at h
      cases ds with
      | nil => cases h
      | cons d ds =>
        simp only [exponentAfter] at h
        split at h
        · next hdig =>
          cases h
          have hds : Digits ((d :: ds).takeWhile Char.isDigit) := .of_takeWhile (by simp [hdig])
          have hall : (d :: ds).takeWhile Char.isDigit ++ (d :: ds).dropWhile Char.isDigit = d :: ds :=
            List.takeWhile_append_dropWhile
          rcases takeSign_sound hs with ⟨rfl, rfl⟩ | ⟨rfl, rfl⟩ | ⟨rfl, rfl⟩
          · exact ⟨_, by rw [List.cons_append, List.cons_append, hall], .minus hm hds⟩
          · exact ⟨_, by rw [List.cons_append, List.cons_append, hall], .plus hm hds⟩
          · exact ⟨_, by rw [List.cons_append, hall], .bare hm hds⟩
        · cases h
    · rw [not_or] at hm
      rw [scanExponent_none (by simpa using hm)] at h
      cases h
      exact ⟨[], rfl, .none⟩

theorem Stops.noDigit {rest : List Char} (h : Stops rest) : NoDigit rest := fun _ hc => (h.ne hc).1

theorem ExponentText.head_ne {x rest : List Char} {e : Option (Bool × List Char)} (h : ExponentText x e)
    (hr : Stops rest) {c : Char} (hc : (x ++ rest).head? = some c) : c.isDigit = false ∧ c ≠ '.' := by
  cases h with
  | none => exact ⟨(hr.ne hc).1, (hr.ne hc).2.1⟩
  | bare hm _ | plus hm _ | minus hm _ =>
    cases hc
    rcases hm with rfl | rfl <;> decide

theorem FractionText.noDigit {f fs rest : List Char} (h : FractionText f fs) (hr : NoDigit rest) :
    NoDigit (f ++ rest) := by
  cases h with
  | none => exact hr
  | digits _ =>
    intro c hc
    cases hc
    decide

theorem scanNumeral_complete {negative : Bool} {t rest : List Char} {n : Numeral} (h : NumeralText negative t n)
    (hr : Stops rest) (pos : Nat) : ∃ stop, scanNumeral negative (t ++ rest) pos = .ok (n, rest, stop) := by
  obtain @⟨w, f, fs, x, e, hw, hf, hx⟩ := h
  have hx' : NoDigit (x ++ rest) := fun c hc => (hx.head_ne hr hc).1
  obtain ⟨pos₁, h₁⟩ := scanWhole_complete hw (hf.noDigit hx') pos
  obtain ⟨pos₂, h₂⟩ := scanFraction_complete hf hx' (fun hc => (hx.head_ne hr hc).2 rfl) pos₁
  obtain ⟨pos₃, h₃⟩ := scanExponent_complete hx hr.noDigit (fun c hc => (hr.ne hc).2.2) pos₂
  exact ⟨pos₃, by simp [scanNumeral, h₁, h₂, h₃, bind, Except.bind, pure, Except.pure]⟩

theorem scanNumeral_sound {negative : Bool} {cs rest : List Char} {n : Numeral} {pos stop : Nat}
    (h : scanNumeral negative cs pos = .ok (n, rest, stop)) : ∃ t, cs = t ++ rest ∧ NumeralText negative t n := by
  unfold scanNumeral at h
  cases h₁ : scanWhole cs pos with
  | error d => simp [h₁, bind, Except.bind] at h
  | ok r₁ =>
    obtain ⟨w, cs₁, pos₁⟩ := r₁
    obtain ⟨rfl, hw⟩ := scanWhole_sound h₁
    cases h₂ : scanFraction cs₁ pos₁ with
    | error d => simp [h₁, h₂, bind, Except.bind] at h
    | ok r₂ =>
      obtain ⟨fs, cs₂, pos₂⟩ := r₂
      obtain ⟨f, rfl, hf⟩ := scanFraction_sound h₂
      cases h₃ : scanExponent cs₂ pos₂ with
      | error d => simp [h₁, h₂, h₃, bind, Except.bind] at h
      | ok r₃ =>
        obtain ⟨e, cs₃, pos₃⟩ := r₃
        obtain ⟨x, rfl, hx⟩ := scanExponent_sound h₃
        simp only [h₁, h₂, h₃, bind, Except.bind, pure, Except.pure] at h
        cases h
        exact ⟨w ++ (f ++ x), by simp, .mk hw hf hx⟩

end FarmClient.Json
