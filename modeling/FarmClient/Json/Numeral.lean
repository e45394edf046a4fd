/-
Numbers in JSON text: the lexeme (`Numeral`) and its value. Digits gather in
a 64-bit natural until one more would not fit; further digits of the whole
part only raise the power of ten, further digits of the fraction are dropped.
The natural is turned into a double and then multiplied or divided by one
power of ten.
-/
import FarmClient.Json.Fault

namespace FarmClient.Json

/-- A number as written. `fraction` is empty if there is no point. -/
structure Numeral where
  negative : Bool
  whole : List Char
  fraction : List Char
  exponent : Option (Bool × List Char)

/-- Where a text stops being JSON: the fault that reading reports, and the one
that skipping over an unwanted value reports. -/
structure Damage where
  reading : Fault
  skipping : Fault

def Damage.both (cause : Malformation) (offset : Nat) : Damage :=
  ⟨.malformed cause offset, .malformed cause offset⟩

def Damage.split (reading skipping : Malformation) (offset : Nat) : Damage :=
  ⟨.malformed reading offset, .malformed skipping offset⟩

/-- The exponent of a number whose whole part and fraction have been read. -/
def scanExponent (cs : List Char) (pos : Nat) :
    Except Damage (Option (Bool × List Char) × List Char × Nat) :=
  match cs with
  | [] => .ok (none, cs, pos)
  | c :: rest =>
    if c = 'e' || c = 'E' then
      let (negative, rest, pos) := match rest with
        | '-' :: rest => (true, rest, pos + 2)
        | '+' :: rest => (false, rest, pos + 2)
        | rest => (false, rest, pos + 1)
      match rest with
      | [] => .error (.split .endInValue .invalidNumber pos)
      | d :: _ =>
        if d.isDigit then
          let ds := rest.takeWhile Char.isDigit
          .ok (some (negative, ds), rest.dropWhile Char.isDigit, pos + ds.length)
        else .error (.both .invalidNumber (pos + 1))
    else .ok (none, cs, pos)

/-- The fraction of a number whose whole part has been read. -/
def scanFraction (cs : List Char) (pos : Nat) : Except Damage (List Char × List Char × Nat) :=
  match cs with
  | '.' :: rest =>
    let ds := rest.takeWhile Char.isDigit
    if ds.isEmpty then
      match rest with
      | [] => .error (.split .endInValue .invalidNumber (pos + 1))
      | _ => .error (.both .invalidNumber (pos + 2))
    else .ok (ds, rest.dropWhile Char.isDigit, pos + 1 + ds.length)
  | cs => .ok ([], cs, pos)

/-- The whole part of a number: no digit follows a leading zero. -/
def scanWhole (cs : List Char) (pos : Nat) : Except Damage (List Char × List Char × Nat) :=
  match cs with
  | [] => .error (.split .endInValue .invalidNumber pos)
  | '0' :: d :: rest =>
    if d.isDigit then .error (.both .invalidNumber (pos + 2)) else .ok (['0'], d :: rest, pos + 1)
  | c :: rest =>
    if c.isDigit then
      let ds := (c :: rest).takeWhile Char.isDigit
      .ok (ds, (c :: rest).dropWhile Char.isDigit, pos + ds.length)
    else .error (.both .invalidNumber (pos + 1))

/-- A number, its minus sign taken off already. -/
def scanNumeral (negative : Bool) (cs : List Char) (pos : Nat) :
    Except Damage (Numeral × List Char × Nat) := do
  let (whole, cs, pos) ← scanWhole cs pos
  let (fraction, cs, pos) ← scanFraction cs pos
  let (exponent, cs, pos) ← scanExponent cs pos
  return (⟨negative, whole, fraction, exponent⟩, cs, pos)

/-- Adds digits to a natural as long as it stays below `2^64`; the rest are left. -/
def gather (n : Nat) : List Char → Nat × List Char
  | [] => (n, [])
  | c :: cs =>
    let next := 10 * n + Decimal.digitValue c
    if next < UInt64.size then gather next cs else (n, c :: cs)

/-- An exponent's digits, or those left after the first one that takes it beyond 31 bits. -/
def gatherExponent (n : Nat) : List Char → Except (List Char) Nat
  | [] => .ok n
  | c :: cs =>
    let next := 10 * n + Decimal.digitValue c
    if next < Nat.pow 2 31 then gatherExponent next cs else .error cs

/-- A double times a power of ten; `none` if that is out of range. -/
def scaleByTen : Nat → Float → Int → Option Float
  | 0, _, _ => some 0
  | fuel + 1, x, e =>
    if 0 ≤ e then
      if e ≤ 308 then
        let y := x * Float.ofScientific 1 false e.toNat
        if y.isInf then none else some y
      else if x == 0 then some x else none
    else if -308 ≤ e then some (x / Float.ofScientific 1 false (-e).toNat)
    else if x == 0 then some x
    else scaleByTen fuel (x / 1e308) (e + 308)

def withSign (negative : Bool) (x : Float) : Float :=
  if negative then -x else x

/-- The value of a number, or how many of its last bytes stand after the digit
that takes it out of range. -/
def Numeral.value (n : Numeral) : Except Nat Number :=
  let (whole, left) := gather 0 n.whole
  if n.fraction.isEmpty && n.exponent.isNone && left.isEmpty then
    if !n.negative then .ok (.integer whole)
    else if whole = 0 || Nat.pow 2 63 < whole then .ok (.double (-(Float.ofNat whole)))
    else .ok (.integer (-whole))
  else
    let (natural, dropped) := gather whole n.fraction
    let point : Int := left.length - (n.fraction.length - dropped.length : Nat)
    let scaled (e : Int) : Except Nat Number :=
      match scaleByTen 4 (Float.ofNat natural) e with
      | some x => .ok (.double (withSign n.negative x))
      | none => .error 0
    match n.exponent with
    | none => scaled point
    | some (below, ds) =>
      match gatherExponent 0 ds with
      | .ok e => scaled (if below then point - e else point + e)
      | .error unread =>
        if natural = 0 || below then .ok (.double (withSign n.negative 0)) else .error unread.length

end FarmClient.Json
