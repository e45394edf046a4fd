/-
Reading a value of a known shape straight from the tree of a text. The first
fault in the order of the text is reported: a value of the wrong kind before
anything that stands after it, a missing field when its object is closed.
-/
import FarmClient.Wire.Shape

namespace FarmClient.Wire

open Json (Tree Items Entries Fault)

/-- A complaint about a value that ends at `stop`. -/
def complain {α : Type} (stop : Nat) : Except Json.Mismatch α → Except Fault α
  | .ok a => .ok a
  | .error m => .error (.mismatch m stop)

def numberOf {α : Type} (wanted : String) (take : Json.Number → Except Json.Mismatch α) :
    Tree → Except Fault α
  | .number (.ok n) _ stop => complain stop (take n)
  | t => .error (t.refuse wanted)

def boolOf : Tree → Except Fault Bool
  | .bool b _ _ => .ok b
  | t => .error (t.refuse "a boolean")

/-- A string, which `take` turns into something. -/
def stringOf {α : Type} (wanted : String) (take : String → Except Json.Mismatch α) :
    Tree → Except Fault α
  | .string (.ok s) stop => complain stop (take s)
  | t => .error (t.refuse wanted)

def optionOf {α : Type} (inner : Tree → Except Fault α) : Tree → Except Fault (Option α)
  | .null _ => .ok none
  | t => (inner t).map some

def arrayOf {α : Type} (inner : Tree → Except Fault α) : Tree → Except Fault (List α)
  | .array _ items => items.mapM inner
  | t => .error (t.refuse "a sequence")

/-- The next item of an array that has `index` items before it. -/
def nextItem {α : Type} (inner : Tree → Except Fault α) (index : Nat) (wanted : String) :
    Items → Except Fault (α × Items)
  | .close stop => .error (.mismatch (.invalidLength index wanted) stop)
  | .item _ value rest => (inner value).map (·, rest)
  | .broken damage => .error damage.reading

def pairWanted : String := "an array of length 2"

def pairOf {α : Type} (inner : Tree → Except Fault α) : Tree → Except Fault (α × α)
  | .array _ items => do
    let (a, items) ← nextItem inner 0 pairWanted items
    let (b, items) ← nextItem inner 1 pairWanted items
    let _ ← items.finish
    return (a, b)
  | t => .error (t.refuse pairWanted)

/-- The nothing that may follow a name in an object with that one key. -/
def unitOf : Tree → Except Fault Unit
  | .null _ => .ok ()
  | t => .error (t.refuse "unit")

/-- The rest of an object whose one entry has been read. -/
def closeOne : Entries → Except Fault Unit
  | .close _ => .ok ()
  | .entry start _ _ _ _ => .error (.malformed .expectedValue start)
  | .broken start damage _ =>
    match damage.reading.cause with
    | .malformed .endInObject => .error (.malformed .endInObject start)
    | _ => .error (.malformed .expectedValue start)

/-- A name, as a string or as the only key of an object with nothing in it. -/
def nameOf {α : Type} (take : String → Except Json.Mismatch α) : Tree → Except Fault α
  | .string (.ok s) stop => complain stop (take s)
  | .string (.error f) _ => .error f
  | .object _ (.entry _ key settled value rest) => do
    let k ← key
    let a ← complain settled (take k)
    unitOf value
    closeOne rest
    return a
  | .object _ (.close stop) => .error (.malformed .expectedValue stop)
  | .object _ (.broken _ _ found) => .error (found.refuse "variant identifier")
  | .bool _ start _ | .number _ start _ | .array start _ | .broken (some start) _ =>
    .error (.malformed .expectedValue (start + 1))
  | .null stop => .error (.malformed .expectedValue (stop - 3))
  | .broken none damage => .error damage.reading

/-- A field that may be missing from the end of an array. -/
def nextField {α : Type} (inner : Tree → Except Fault α) (missing : Option α) (index : Nat)
    (wanted : String) : Items → Except Fault (α × Items)
  | .close stop =>
    match missing with
    | some a => .ok (a, .close stop)
    | none => .error (.mismatch (.invalidLength index wanted) stop)
  | items => nextItem inner index wanted items

mutual

/-- Reads a value of a shape. -/
def Shape.ofTree : (s : Shape) → Tree → Except Fault s.Val
  | .u32, t => numberOf "u32" toU32 t
  | .i64, t => numberOf "i64" toI64 t
  | .u64, t => numberOf "u64" toU64 t
  | .f64, t => numberOf "f64" (fun n => .ok (toDouble n)) t
  | .bool, t => boolOf t
  | .text, t => stringOf "a string" .ok t
  | .optional s, t => optionOf (Shape.ofTree s) t
  | .array s, t => arrayOf (Shape.ofTree s) t
  | .pair s, t => pairOf (Shape.ofTree s) t
  | .name names, t => nameOf (toName names) t
  | .nameOr _ names, t => nameOf (fun name => .ok (nameIndex? names name)) t
  | .record title fs, t =>
    match t with
    | .object _ entries => do
      let (slots, stop) ← entries.fold (fun slots key settled value =>
        Fields.putTree fs slots key settled value) fs.noSlots
      complain stop (fs.complete slots)
    | .array _ items => do
      let (v, items) ← Fields.ofItems fs (fs.wanted title) 0 items
      let _ ← items.finish
      return v
    | t => .error (t.refuse title)

/-- Reads an entry of a record's object; one that is no field is passed over. -/
def Fields.putTree : (fs : Fields) → fs.Slots → String → Nat → Tree → Except Fault fs.Slots
  | .nil, _, _, _, t => t.skip
  | .cons l s fs, (slot, slots), key, settled, t =>
    if l.answersTo key then
      match slot with
      | some _ => .error (.mismatch (.duplicateField l.key) settled)
      | none => (Shape.ofTree s t).map fun v => (some v, slots)
    else (Fields.putTree fs slots key settled t).map fun slots => (slot, slots)

/-- Reads a record's fields from an array, the first being its item `index`. -/
def Fields.ofItems : (fs : Fields) → String → Nat → Items → Except Fault (fs.Val × Items)
  | .nil, _, _, items => .ok ((), items)
  | .cons l s fs, wanted, index, items => do
    let (v, items) ← nextField (Shape.ofTree s) (l.missing? s) index wanted items
    let (vs, items) ← Fields.ofItems fs wanted (index + 1) items
    return ((v, vs), items)

end

/-- Reads a text that holds one value of a shape. -/
def Shape.read (s : Shape) (text : List Char) : Except Fault s.Val :=
  (Json.Document.read text).decode s.ofTree

end FarmClient.Wire
