/-
How the digits of a double are laid out as text. A `Notation` is the record
of a format's decisions; `Notation.write` applies it. The three formats of
this program are `plain`, `message` and `report`.
-/
import FarmClient.Decimal.Digits
import FarmClient.Decimal.Shortest

namespace FarmClient.Decimal

/-- The decisions of a number format. -/
structure Notation where
  /-- The powers of ten of a leading digit that is written positionally, if bounded. -/
  positional : Option (Int × Int)
  /-- Whole numbers carry `.0` when written positionally. -/
  pointZero : Bool
  /-- A positive exponent carries a plus sign. -/
  plusSign : Bool
  tie : Tie

/-- Answers and texts for people are never written with an exponent. -/
def Notation.plain : Notation := ⟨none, false, false, .upward⟩

/-- Numbers in messages are positional from `1e-5` up to `1e16` and keep a decimal. -/
def Notation.message : Notation := ⟨some (-5, 16), true, true, .toEven⟩

/-- Numbers in fault reports are positional from `1e-4` up to `1e16` and keep a decimal. -/
def Notation.report : Notation := ⟨some (-4, 16), true, false, .upward⟩

/-- Whether the leading digit's power of ten is written positionally. -/
def Notation.isPositional (f : Notation) (e : Int) : Bool :=
  match f.positional with
  | none => true
  | some (low, high) => low ≤ e && e < high

/-- Digits times a power of ten, without an exponent. -/
def Notation.layPositional (f : Notation) (ds : List Char) (exponent : Int) : List Char :=
  if 0 ≤ exponent then
    ds ++ List.replicate exponent.toNat '0' ++ if f.pointZero then ['.', '0'] else []
  else
    let places := (-exponent).toNat
    if places < ds.length then ds.take (ds.length - places) ++ '.' :: ds.drop (ds.length - places)
    else '0' :: '.' :: List.replicate (places - ds.length) '0' ++ ds

/-- Digits times a power of ten, one digit before the point and an exponent. -/
def Notation.layScientific (f : Notation) (ds : List Char) (lead : Int) : List Char :=
  let mantissa := match ds with
    | d :: (r :: rs) => d :: '.' :: r :: rs
    | ds => ds
  let sign := if lead < 0 then ['-'] else if f.plusSign then ['+'] else []
  mantissa ++ 'e' :: sign ++ digits lead.natAbs

/-- The digits of a positive decimal, laid out. -/
def Notation.lay (f : Notation) (d : Scaled) : List Char :=
  let ds := digits d.digits
  let lead := d.exponent + ds.length - 1
  if f.isPositional lead then f.layPositional ds d.exponent else f.layScientific ds lead

/-- The text of a double. -/
def Notation.write (f : Notation) (x : Float) : String :=
  if x.isNaN then "NaN"
  else
    let bits := x.toBits
    let sign := if bits >>> 63 = 1 then "-" else ""
    if x.isInf then sign ++ "inf"
    else
      let magnitude := Magnitude.ofBits bits
      if magnitude.m = 0 then sign ++ if f.pointZero then "0.0" else "0"
      else sign ++ String.ofList (f.lay (magnitude.shortest f.tie))

end FarmClient.Decimal
