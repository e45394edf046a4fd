/-
Reading a value of a known shape from a JSON value that has been taken apart
from its text before. No positions are left to report; the entries of an
object are met in the order in which the value holds them.
-/
import FarmClient.Wire.Shape

namespace FarmClient.Wire

open Json (Value Mismatch)

def refuse {α : Type} (wanted : String) (v : Value) : Except Mismatch α :=
  .error (.invalidType v.found wanted)

def numberOfValue {α : Type} (wanted : String) (take : Json.Number → Except Mismatch α) :
    Value → Except Mismatch α
  | .number n => take n
  | v => refuse wanted v

def boolOfValue : Value → Except Mismatch Bool
  | .bool b => .ok b
  | v => refuse "a boolean" v

def textOfValue : Value → Except Mismatch String
  | .string s => .ok s
  | v => refuse "a string" v

def optionOfValue {α : Type} (inner : Value → Except Mismatch α) : Value → Except Mismatch (Option α)
  | .null => .ok none
  | v => (inner v).map some

/-- More items than were wanted. -/
def tooLong (length taken : Nat) : Mismatch :=
  .invalidLength length
    (Decimal.natText taken ++ (if taken = 1 then " element in sequence" else " elements in sequence"))

/-- An array whose items have all been taken but these. -/
def noMore (taken : Nat) (left : List Value) : Except Mismatch Unit :=
  if left.isEmpty then .ok () else .error (tooLong (taken + left.length) taken)

def arrayOfValue {α : Type} (inner : Value → Except Mismatch α) : Value → Except Mismatch (List α)
  | .array items => items.mapM inner
  | v => refuse "a sequence" v

def pairOfValue {α : Type} (inner : Value → Except Mismatch α) : Value → Except Mismatch (α × α)
  | .array [] => .error (.invalidLength 0 "an array of length 2")
  | .array [a] => do
    let _ ← inner a
    throw (.invalidLength 1 "an array of length 2")
  | .array (a :: b :: rest) => do
    let a ← inner a
    let b ← inner b
    noMore 2 rest
    return (a, b)
  | v => refuse "an array of length 2" v

/-- The nothing that may follow a name in an object with that one key. -/
def unitOfValue : Value → Except Mismatch Unit
  | .null => .ok ()
  | .object [] => .ok ()
  | v => refuse "unit" v

def nameOfValue {α : Type} (take : String → Except Mismatch α) : Value → Except Mismatch α
  | .string s => take s
  | .object [(key, v)] => do
    let a ← take key
    unitOfValue v
    return a
  | .object _ => .error (.invalidValue .map "map with a single key")
  | v => refuse "string or map" v

/-- A field that may be missing from the end of an array. -/
def nextFieldValue {α : Type} (inner : Value → Except Mismatch α) (missing : Option α) (index : Nat)
    (wanted : String) : List Value → Except Mismatch (α × List Value)
  | [] =>
    match missing with
    | some a => .ok (a, [])
    | none => .error (.invalidLength index wanted)
  | v :: rest => (inner v).map (·, rest)

mutual

/-- Reads a value of a shape. -/
def Shape.ofValue : (s : Shape) → Value → Except Mismatch s.Val
  | .u32, v => numberOfValue "u32" toU32 v
  | .i64, v => numberOfValue "i64" toI64 v
  | .u64, v => numberOfValue "u64" toU64 v
  | .f64, v => numberOfValue "f64" (fun n => .ok (toDouble n)) v
  | .bool, v => boolOfValue v
  | .text, v => textOfValue v
  | .optional s, v => optionOfValue (Shape.ofValue s) v
  | .array s, v => arrayOfValue (Shape.ofValue s) v
  | .pair s, v => pairOfValue (Shape.ofValue s) v
  | .name names, v => nameOfValue (toName names) v
  | .nameOr _ names, v => nameOfValue (fun name => .ok (nameIndex? names name)) v
  | .record title fs, v =>
    match v with
    | .object entries => do
      let slots ← entries.foldlM (fun slots e => Fields.putValue fs slots e.1 e.2) fs.noSlots
      fs.complete slots
    | .array items => do
      let (v, left) ← Fields.ofValues fs (fs.wanted title) 0 items
      noMore (items.length - left.length) left
      return v
    | v => refuse title v

/-- Reads an entry of a record's object; one that is no field is passed over. -/
def Fields.putValue : (fs : Fields) → fs.Slots → String → Value → Except Mismatch fs.Slots
  | .nil, _, _, _ => .ok ()
  | .cons l s fs, (slot, slots), key, v =>
    if l.answersTo key then
      match slot with
      | some _ => .error (.duplicateField l.key)
      | none => (Shape.ofValue s v).map fun v => (some v, slots)
    else (Fields.putValue fs slots key v).map fun slots => (slot, slots)

/-- Reads a record's fields from an array, the first being its item `index`. -/
def Fields.ofValues : (fs : Fields) → String → Nat → List Value → Except Mismatch (fs.Val × List Value)
  | .nil, _, _, vs => .ok ((), vs)
  | .cons l s fs, wanted, index, vs => do
    let (v, vs) ← nextFieldValue (Shape.ofValue s) (l.missing? s) index wanted vs
    let (rest, vs) ← Fields.ofValues fs wanted (index + 1) vs
    return ((v, rest), vs)

end

/-- The record of an object's entries. -/
def Fields.ofEntries (fs : Fields) (entries : List (String × Value)) : Except Mismatch fs.Val := do
  let slots ← entries.foldlM (fun slots e => fs.putValue slots e.1 e.2) fs.noSlots
  fs.complete slots

end FarmClient.Wire
