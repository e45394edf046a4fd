/-
The configuration file: the server's address, the way of running scripts and
the pause between steps. Every key may be left out, unknown keys are passed
over, and the two tables may also be written as arrays of their values.
-/
import FarmClient.Toml.Reader

namespace FarmClient.Terminal

inductive RunMode where
  | auto
  | manual
deriving DecidableEq

structure Config where
  url : String
  mode : RunMode
  /-- A pause in milliseconds instead of the server's. -/
  interval : Option Nat
deriving DecidableEq

/-- Why there is no configuration. -/
inductive ConfigFault where
  | read
  | parse
deriving DecidableEq

namespace Config

open Toml (Value Entries)

def standard : Config := ⟨"http://127.0.0.1:8000", .auto, none⟩

def modeNamed? (name : String) : Option RunMode :=
  if name = "auto" then some .auto else if name = "manual" then some .manual else none

/-- The nothing that may follow a mode in a table with that one key. -/
def isNothing : Value → Bool
  | .array [] => true
  | .table _ [] => true
  | _ => false

def mode? : Value → Option RunMode
  | .string name => modeNamed? name
  | .table _ [(name, v)] => if isNothing v then modeNamed? name else none
  | _ => none

def text? : Value → Option String
  | .string s => some s
  | _ => none

def milliseconds? : Value → Option Nat
  | .integer n => if 0 ≤ n then some n.toNat else none
  | _ => none

/-- The fields of a table, found by their keys, or of an array, found by their
places. A date has none of them. -/
def fields? (keys : List String) : Value → Option (List (Option Value))
  | .table _ entries => some (keys.map fun key => Toml.lookup? key entries)
  | .array items => some (keys.zipIdx.map fun (_, i) => items[i]?)
  | .tables earlier last =>
    some (keys.zipIdx.map fun (_, i) => ((earlier ++ [last]).map (Value.table .defined))[i]?)
  | .datetime => some (keys.map fun _ => none)
  | _ => none

/-- A field's value, or what stands for it when it is missing. -/
def fieldOr {α : Type} (missing : α) (read : Value → Option α) : Option (Option Value) → Option α
  | some (some v) => read v
  | _ => some missing

def server? (v : Value) : Option String := do
  let fields ← fields? ["url"] v
  fieldOr standard.url text? fields[0]?

def run? (v : Value) : Option (RunMode × Option Nat) := do
  let fields ← fields? ["mode", "exec_interval_ms"] v
  let mode ← fieldOr .auto mode? fields[0]?
  let interval ← fieldOr none (fun v => (milliseconds? v).map some) fields[1]?
  return (mode, interval)

/-- The configuration of a document's entries. -/
def ofEntries? (entries : Entries) : Option Config := do
  let url ← fieldOr standard.url server? (some (Toml.lookup? "server" entries))
  let (mode, interval) ← fieldOr (.auto, none) run? (some (Toml.lookup? "run" entries))
  return ⟨url, mode, interval⟩

/-- The configuration a text holds. -/
def ofText (text : String) : Except ConfigFault Config :=
  match (Toml.read? text.toList).bind ofEntries? with
  | some c => .ok c
  | none => .error .parse

/-- The configuration a file's bytes hold; they must be UTF-8. -/
def ofBytes (bytes : ByteArray) : Except ConfigFault Config :=
  match String.fromUTF8? bytes with
  | some text => ofText text
  | none => .error .read

/-- The configuration at a path that has to exist. -/
def ofFile : Option ByteArray → Except ConfigFault Config
  | some bytes => ofBytes bytes
  | none => .error .read

/-- The configuration at the default path; without a file there all is standard. -/
def load : Option ByteArray → Except ConfigFault Config
  | some bytes => ofBytes bytes
  | none => .ok standard

end Config

end FarmClient.Terminal
