/-
Writing a value of a known shape as a JSON value: records as objects with
their fields in order, names as strings.
-/
import FarmClient.Wire.Shape

namespace FarmClient.Wire

open Json (Value)

/-- Whether a field with this value is not written. -/
def Label.omits (l : Label) : Value → Bool
  | .null => l.omitNull
  | _ => false

mutual

def Shape.toValue : (s : Shape) → s.Val → Value
  | .u32, n => .number (.integer (UInt32.toNat n))
  | .i64, n => .number (.integer (Int64.toInt n))
  | .u64, n => .number (.integer (UInt64.toNat n))
  | .f64, x => .number (.double x)
  | .bool, b => .bool b
  | .text, s => .string s
  | .optional s, v =>
    match (v : Option s.Val) with
    | none => .null
    | some v => Shape.toValue s v
  | .array s, vs => .array (List.map (Shape.toValue s) vs)
  | .pair s, (a, b) => .array [Shape.toValue s a, Shape.toValue s b]
  | .name names, i => .string (names.get i)
  | .nameOr other names, i =>
    match (i : Option (Fin names.length)) with
    | none => .string other
    | some i => .string (names.get i)
  | .record _ fs, v => .object (Fields.toEntries fs v)

def Fields.toEntries : (fs : Fields) → fs.Val → List (String × Value)
  | .nil, _ => []
  | .cons l s fs, (v, vs) =>
    let value := Shape.toValue s v
    if l.omits value then Fields.toEntries fs vs else (l.key, value) :: Fields.toEntries fs vs

end

end FarmClient.Wire
