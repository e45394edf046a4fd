/-
The shapes of the values on the wire. A `Shape` says what a value may be,
`Shape.Val` is the type of what it holds. A record is written as an object
and read from an object, in any order of the keys, or from an array of its
fields in order.
-/
import FarmClient.Json.Printer

namespace FarmClient.Wire

/-- How a field of a record is named and what may be left out. -/
structure Label where
  key : String
  /-- A second key under which the field is also read. -/
  otherKey : Option String := none
  /-- A missing field has the empty value of its shape. -/
  lenient : Bool := false
  /-- A field that holds nothing is not written. -/
  omitNull : Bool := false

def Label.answersTo (l : Label) (key : String) : Bool :=
  key = l.key || some key = l.otherKey

mutual

inductive Shape where
  | u32
  | i64
  | u64
  | f64
  | bool
  | text
  | optional (inner : Shape)
  | array (items : Shape)
  | pair (items : Shape)
  /-- One of these names. -/
  | name (names : List String)
  /-- One of these names, or any other, written as `other`. -/
  | nameOr (other : String) (names : List String)
  | record (title : String) (fields : Fields)

inductive Fields where
  | nil
  | cons (label : Label) (shape : Shape) (rest : Fields)

end

mutual

/-- What a value of a shape holds. -/
def Shape.Val : Shape → Type
  | .u32 => UInt32
  | .i64 => Int64
  | .u64 => UInt64
  | .f64 => Float
  | .bool => Bool
  | .text => String
  | .optional s => Option s.Val
  | .array s => List s.Val
  | .pair s => s.Val × s.Val
  | .name names => Fin names.length
  | .nameOr _ names => Option (Fin names.length)
  | .record _ fs => fs.Val

def Fields.Val : Fields → Type
  | .nil => Unit
  | .cons _ s fs => s.Val × fs.Val

end

/-- The empty value of a shape that has one. -/
def Shape.empty? : (s : Shape) → Option s.Val
  | .f64 => some (0 : Float)
  | .optional s => some (none : Option s.Val)
  | .array s => some ([] : List s.Val)
  | _ => none

/-- What stands for a field that is missing. -/
def Label.missing? (l : Label) (s : Shape) : Option s.Val :=
  if l.lenient then s.empty? else none

def Fields.count : Fields → Nat
  | .nil => 0
  | .cons _ _ fs => fs.count + 1

/-- What has been read of a record's fields. -/
def Fields.Slots : Fields → Type
  | .nil => Unit
  | .cons _ s fs => Option s.Val × fs.Slots

def Fields.noSlots : (fs : Fields) → fs.Slots
  | .nil => ()
  | .cons _ _ fs => (none, fs.noSlots)

/-- The record of what has been read; the first field that is missing is an error. -/
def Fields.complete : (fs : Fields) → fs.Slots → Except Json.Mismatch fs.Val
  | .nil, _ => .ok ()
  | .cons l s fs, (slot, slots) =>
    match slot <|> l.missing? s with
    | none => .error (.missingField l.key)
    | some v => do
      let vs ← fs.complete slots
      return (v, vs)

/-- A record's title with the number of its elements when written as an array. -/
def Fields.wanted (title : String) (fs : Fields) : String :=
  title ++ " with " ++ Decimal.natText fs.count ++ (if fs.count = 1 then " element" else " elements")

/-- The position of a name in a list of names. -/
def nameIndex? (names : List String) (name : String) : Option (Fin names.length) :=
  (List.finRange names.length).find? fun i => names.get i = name

/-- An integer within bounds. -/
def inRange (low high : Int) (wanted : String) : Json.Number → Except Json.Mismatch Int
  | .integer n =>
    if low ≤ n ∧ n < high then .ok n else .error (.invalidValue (.number (.integer n)) wanted)
  | .double x => .error (.invalidType (.number (.double x)) wanted)

def toU32 (n : Json.Number) : Except Json.Mismatch UInt32 :=
  (inRange 0 UInt32.size "u32" n).map fun i => UInt32.ofNat i.toNat

def toI64 (n : Json.Number) : Except Json.Mismatch Int64 :=
  (inRange (-Nat.pow 2 63) (Nat.pow 2 63) "i64" n).map Int64.ofInt

def toU64 (n : Json.Number) : Except Json.Mismatch UInt64 :=
  (inRange 0 UInt64.size "u64" n).map fun i => UInt64.ofNat i.toNat

/-- A double; an integer is turned into the nearest one. -/
def toDouble : Json.Number → Float
  | .integer (.ofNat n) => Float.ofNat n
  | .integer (.negSucc n) => -(Float.ofNat (n + 1))
  | .double x => x

/-- The choice a name stands for. -/
def toName (names : List String) (name : String) : Except Json.Mismatch (Fin names.length) :=
  match nameIndex? names name with
  | some i => .ok i
  | none => .error (.unknownVariant name names)

end FarmClient.Wire
