/-
A JSON text as a tree with offsets. The tree of a text that is not JSON is
broken where the text stops being JSON, so that whoever walks it in order
meets what is wrong in the order in which it stands. A key or a string can be
skippable and still not readable (an escape for half a surrogate pair); so
can a number (out of range).
-/
import FarmClient.Json.Numeral

namespace FarmClient.Json

mutual

/-- A value in a text. `stop` is the offset after it, `start` the offset
before it; `lead` is where a broken number, `true` or `false` begins. -/
inductive Tree where
  | null (stop : Nat)
  | bool (value : Bool) (start stop : Nat)
  | number (value : Except Fault Number) (start stop : Nat)
  | string (value : Except Fault String) (stop : Nat)
  | array (start : Nat) (items : Items)
  | object (start : Nat) (entries : Entries)
  | broken (lead : Option Nat) (damage : Damage)

/-- What follows in an array. -/
inductive Items where
  | close (stop : Nat)
  | item (start : Nat) (value : Tree) (rest : Items)
  | broken (damage : Damage)

/-- What follows in an object. `settled` is the offset at which a complaint
about the key stands; `found` is what stands where a first key should be. -/
inductive Entries where
  | close (stop : Nat)
  | entry (start : Nat) (key : Except Fault String) (settled : Nat) (value : Tree) (rest : Entries)
  | broken (start : Nat) (damage : Damage) (found : Tree)

end

/-- A text's value and the offset of the first thing after it that is not blank. -/
structure Document where
  tree : Tree
  trailing : Option Nat

mutual

/-- Passes over a value nobody wants. -/
def Tree.skip : Tree → Except Fault Unit
  | .null _ => .ok ()
  | .bool _ _ _ => .ok ()
  | .number _ _ _ => .ok ()
  | .string _ _ => .ok ()
  | .array _ items => items.skip
  | .object _ entries => entries.skip
  | .broken _ damage => .error damage.skipping

def Items.skip : Items → Except Fault Unit
  | .close _ => .ok ()
  | .item _ value rest => do
    value.skip
    rest.skip
  | .broken damage => .error damage.skipping

def Entries.skip : Entries → Except Fault Unit
  | .close _ => .ok ()
  | .entry _ _ _ value rest => do
    value.skip
    rest.skip
  | .broken _ damage _ => .error damage.skipping

end

/-- The fault of finding this value where something else is wanted. -/
def Tree.refuse (wanted : String) : Tree → Fault
  | .null stop => .mismatch (.invalidType .null wanted) stop
  | .bool b _ stop => .mismatch (.invalidType (.bool b) wanted) stop
  | .number (.ok n) _ stop => .mismatch (.invalidType (.number n) wanted) stop
  | .number (.error f) _ _ => f
  | .string (.ok s) stop => .mismatch (.invalidType (.string s) wanted) stop
  | .string (.error f) _ => f
  | .array start _ => .mismatch (.invalidType .sequence wanted) start
  | .object start _ => .mismatch (.invalidType .map wanted) start
  | .broken _ damage => damage.reading

/-- The array ends here, although more may stand in the text. -/
def Items.finish : Items → Except Fault Nat
  | .close stop => .ok stop
  | .item start _ _ => .error (.malformed .trailingCharacters (start + 1))
  | .broken damage =>
    match damage.reading.cause with
    | .malformed .endInList | .malformed .trailingComma => .error damage.reading
    | _ => .error (.malformed .trailingCharacters damage.reading.offset)

/-- Walks the entries of an object in order and gives the offset after it. -/
def Entries.fold {σ : Type} (visit : σ → String → Nat → Tree → Except Fault σ) :
    σ → Entries → Except Fault (σ × Nat)
  | s, .close stop => .ok (s, stop)
  | s, .entry _ key settled value rest => do
    let k ← key
    let s ← visit s k settled value
    rest.fold visit s
  | _, .broken _ damage _ => .error damage.reading

/-- Walks the items of an array in order. -/
def Items.mapM {α : Type} (visit : Tree → Except Fault α) : Items → Except Fault (List α)
  | .close _ => .ok []
  | .item _ value rest => do
    let a ← visit value
    let as ← rest.mapM visit
    return a :: as
  | .broken damage => .error damage.reading

end FarmClient.Json
