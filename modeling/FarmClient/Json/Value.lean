/-
JSON values, apart from any text. Objects keep the order and the repetitions
of the text; `Value.canonical` sorts the keys and keeps the last of equal ones.
-/
import FarmClient.Json.Reader

namespace FarmClient.Json

inductive Value where
  | null
  | bool (value : Bool)
  | number (value : Number)
  | string (value : String)
  | array (items : List Value)
  | object (entries : List (String × Value))

/-- What a fault report calls the value. -/
def Value.found : Value → Found
  | .null => .null
  | .bool b => .bool b
  | .number n => .number n
  | .string s => .string s
  | .array _ => .sequence
  | .object _ => .map

/-- Puts an entry into entries with ascending keys, in place of one with the same key. -/
def insertEntry {α : Type} (key : String) (value : α) : List (String × α) → List (String × α)
  | [] => [(key, value)]
  | (k, v) :: rest =>
    if key = k then (key, value) :: rest
    else if key < k then (key, value) :: (k, v) :: rest
    else (k, v) :: insertEntry key value rest

/-- Ascending keys; of equal keys the last counts. -/
def sortEntries {α : Type} (entries : List (String × α)) : List (String × α) :=
  entries.foldl (fun sorted e => insertEntry e.1 e.2 sorted) []

mutual

/-- The value with ascending keys in all its objects. -/
def Value.canonical : Value → Value
  | .null => .null
  | .bool b => .bool b
  | .number n => .number n
  | .string s => .string s
  | .array items => .array (canonicalItems items)
  | .object entries => .object (sortEntries (canonicalEntries entries))

def Value.canonicalItems : List Value → List Value
  | [] => []
  | v :: rest => v.canonical :: canonicalItems rest

def Value.canonicalEntries : List (String × Value) → List (String × Value)
  | [] => []
  | (k, v) :: rest => (k, v.canonical) :: canonicalEntries rest

end

mutual

/-- The value of a tree with at most `depth - 1` containers around each other. -/
def Tree.value (depth : Nat) : Tree → Except Fault Value
  | .null _ => .ok .null
  | .bool b _ _ => .ok (.bool b)
  | .number n _ _ => n.map .number
  | .string s _ => s.map .string
  | .array start items =>
    if depth ≤ 1 then .error (.malformed .recursionLimit (start + 1))
    else (items.values (depth - 1)).map .array
  | .object start entries =>
    if depth ≤ 1 then .error (.malformed .recursionLimit (start + 1))
    else (entries.values (depth - 1)).map .object
  | .broken _ damage => .error damage.reading

def Items.values (depth : Nat) : Items → Except Fault (List Value)
  | .close _ => .ok []
  | .item _ value rest => do
    let v ← value.value depth
    let vs ← rest.values depth
    return v :: vs
  | .broken damage => .error damage.reading

def Entries.values (depth : Nat) : Entries → Except Fault (List (String × Value))
  | .close _ => .ok []
  | .entry _ key _ value rest => do
    let k ← key
    let v ← value.value depth
    let vs ← rest.values depth
    return (k, v) :: vs
  | .broken _ damage _ => .error damage.reading

end

/-- The containers a reader that keeps values opens around each other, and one more. -/
def depthLimit : Nat := 128

/-- The value of a text. -/
def Value.read (text : List Char) : Except Fault Value :=
  (Document.read text).decode (Tree.value depthLimit)

end FarmClient.Json
