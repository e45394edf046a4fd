/-
The fewest decimal digits that read back to a double, chosen by exact
arithmetic on naturals. A positive finite double is `m * 2^q`; the reals that
round to it form an interval whose ends belong to it when `m` is even.
`Magnitude.readsBack` is the test that a decimal lies in the interval, and
`Magnitude.shortest` takes the coarsest decimal grid on which one of the two
neighbours of the value passes it.
-/

namespace FarmClient.Decimal

/-- A positive finite double, `m * 2^q`. -/
structure Magnitude where
  m : Nat
  q : Int
  /-- The gap to the next lower double is half the gap to the next higher. -/
  narrow : Bool

/-- The magnitude of the double with these bits; the sign bit is not looked at. -/
def Magnitude.ofBits (bits : UInt64) : Magnitude :=
  let exponent : Nat := bits.toNat / Nat.pow 2 52 % Nat.pow 2 11
  let mantissa : Nat := bits.toNat % Nat.pow 2 52
  if exponent = 0 then ⟨mantissa, -1074, false⟩
  else ⟨Nat.pow 2 52 + mantissa, (exponent : Int) - 1075, mantissa = 0 && 1 < exponent⟩

/-- `digits * 10^exponent` -/
structure Scaled where
  digits : Nat
  exponent : Int
deriving DecidableEq

/-- Which of two equally near decimals is taken. -/
inductive Tie where
  | toEven
  | upward
deriving DecidableEq

/-- `a * 10^i` and `b * 2^j` as naturals over one denominator. -/
def sameUnit (a : Nat) (i : Int) (b : Nat) (j : Int) : Nat × Nat :=
  (a * Nat.pow 10 i.toNat * Nat.pow 2 (-j).toNat, b * Nat.pow 2 j.toNat * Nat.pow 10 (-i).toNat)

/-- Whether a decimal lies among the reals that round to the double. -/
def Magnitude.readsBack (x : Magnitude) (d : Scaled) : Bool :=
  let low := sameUnit d.digits d.exponent (4 * x.m - (if x.narrow then 1 else 2)) (x.q - 2)
  let high := sameUnit d.digits d.exponent (4 * x.m + 2) (x.q - 2)
  if x.m % 2 = 0 then low.2 ≤ low.1 && high.1 ≤ high.2 else low.2 < low.1 && high.1 < high.2

/-- The greatest decimal of the grid `10^e` that is not above the double. -/
def Magnitude.floorOn (x : Magnitude) (e : Int) : Scaled :=
  let (one, value) := sameUnit 1 e x.m x.q
  ⟨value / one, e⟩

/-- Which of the double's two neighbours on the grid `10^e` is the nearer one. -/
def Magnitude.nearer (x : Magnitude) (tie : Tie) (below : Scaled) : Scaled :=
  let above : Scaled := ⟨below.digits + 1, below.exponent⟩
  let (middle, value) := sameUnit (below.digits + above.digits) below.exponent (2 * x.m) x.q
  if value < middle then below
  else if middle < value then above
  else match tie with
    | .upward => above
    | .toEven => if below.digits % 2 = 0 then below else above

/-- The decimal of the grid `10^e` that stands for the double, if one reads back. -/
def Magnitude.on? (x : Magnitude) (tie : Tie) (e : Int) : Option Scaled :=
  let below := x.floorOn e
  let above : Scaled := ⟨below.digits + 1, e⟩
  match x.readsBack below, x.readsBack above with
  | true, true => some (x.nearer tie below)
  | true, false => some below
  | false, true => some above
  | false, false => none

/-- Moves factors of ten from the digits to the exponent. -/
def Scaled.strip : Nat → Scaled → Scaled
  | 0, d => d
  | fuel + 1, d =>
    if d.digits % 10 = 0 then strip fuel ⟨d.digits / 10, d.exponent + 1⟩ else d

/-- The exact value, as a decimal. -/
def Magnitude.exact (x : Magnitude) : Scaled :=
  if 0 ≤ x.q then ⟨x.m * Nat.pow 2 x.q.toNat, 0⟩ else ⟨x.m * Nat.pow 5 (-x.q).toNat, x.q⟩

/-- The least `k` with value below `10^k`: an estimate from the binary length,
raised as long as the value is not below it. -/
def Magnitude.scale (x : Magnitude) : Int :=
  let bits : Int := x.m.log2 + x.q
  let guess := bits * 30103 / 100000 - 1
  let fits (k : Int) : Bool :=
    let (power, value) := sameUnit 1 k x.m x.q
    value < power
  if fits guess then guess else if fits (guess + 1) then guess + 1
  else if fits (guess + 2) then guess + 2 else guess + 3

/-- The fewest digits that read back to a positive double; seventeen always do. -/
def Magnitude.shortest (x : Magnitude) (tie : Tie) : Scaled :=
  let k := x.scale
  match (List.range 17).findSome? fun (n : Nat) => x.on? tie (k - 1 - n) with
  | some d => d.strip 400
  | none => x.exact

end FarmClient.Decimal
