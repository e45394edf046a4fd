/-
TOML documents (`read?`): keys, values, headers, line by line. Containers
may stand at most 79 deep within each other.
-/
import FarmClient.Toml.Scalars

namespace FarmClient.Toml

def isBare (c : Char) : Bool := c.isAlphanum || c = '_' || c = '-'

/-- One part of a key: bare or quoted on one line. -/
def simpleKey? : List Char → Option (String × List Char)
  | '"' :: cs => basicString (cs.length + 1) [] cs
  | '\'' :: cs => literalString cs
  | cs =>
    let name := cs.takeWhile isBare
    if name.isEmpty then none else some (String.ofList name, cs.dropWhile isBare)

/-- The parts of a key with dots between them, blanks around each part. -/
def keyParts : Nat → List Char → Option (List String × List Char)
  | 0, _ => none
  | fuel + 1, cs => do
    let (part, cs) ← simpleKey? (skipSpace cs)
    match skipSpace cs with
    | '.' :: cs => do
      let (parts, cs) ← keyParts fuel cs
      return (part :: parts, cs)
    | cs => return ([part], cs)

/-- A key: the tables on the way, and its last part. -/
def key? (cs : List Char) : Option ((List String × String) × List Char) := do
  let (parts, cs) ← keyParts 79 cs
  let last ← parts.getLast?
  return ((parts.dropLast, last), cs)

/-- Passes over blanks, line ends and comments. -/
def skipFiller : Nat → List Char → List Char
  | 0, cs => cs
  | fuel + 1, cs =>
    let cs := skipComment (skipSpace cs)
    match newline? cs with
    | some rest => skipFiller fuel rest
    | none => cs

/-- The rest of an array, its bracket taken off; a comma may stand after the last item. -/
def arrayItems (value : List Char → Option (Value × List Char)) :
    Nat → List Char → Option (List Value × List Char)
  | 0, _ => none
  | fuel + 1, cs =>
    match skipFiller cs.length cs with
    | ']' :: rest => some ([], rest)
    | cs => do
      let (v, cs) ← value cs
      match skipFiller cs.length cs with
      | ']' :: rest => return ([v], rest)
      | ',' :: rest => do
        let (vs, rest) ← arrayItems value fuel rest
        return (v :: vs, rest)
      | _ => none

/-- A key, an equals sign and a value. -/
def pair? (value : List Char → Option (Value × List Char)) (cs : List Char) :
    Option (((List String × String) × Value) × List Char) := do
  let (key, cs) ← key? cs
  let cs ← expect '=' (skipSpace cs)
  let (v, cs) ← value (skipSpace cs)
  return ((key, v), skipSpace cs)

/-- The rest of an inline table that has some entries already. -/
def inlineEntries (value : List Char → Option (Value × List Char)) :
    Nat → Entries → List Char → Option (Entries × List Char)
  | 0, _, _ => none
  | fuel + 1, entries, cs => do
    let (((path, key), v), cs) ← pair? value cs
    let entries ← assign path key v entries
    match cs with
    | ',' :: cs => inlineEntries value fuel entries cs
    | '\x7d' :: cs => return (entries, cs)
    | _ => none

/-- An inline table, its brace taken off. -/
def inlineTable (value : List Char → Option (Value × List Char)) (cs : List Char) :
    Option (Entries × List Char) :=
  match skipSpace cs with
  | '\x7d' :: rest => some ([], rest)
  | _ => inlineEntries value (cs.length + 1) [] cs

/-- A value with at most `depth` containers around each other. -/
def value? : Nat → List Char → Option (Value × List Char)
  | depth, '[' :: cs =>
    match depth with
    | 0 => none
    | depth + 1 => (arrayItems (value? depth) (cs.length + 1) cs).map fun (vs, rest) => (.array vs, rest)
  | depth, '\x7b' :: cs =>
    match depth with
    | 0 => none
    | depth + 1 => (inlineTable (value? depth) cs).map fun (es, rest) => (.table .inline es, rest)
  | _, cs => scalar? cs

/-- What has been read of a document: its entries, and the header they now go under. -/
structure State where
  entries : Entries
  header : List String

/-- The rest of a line after its content: blanks, a comment, the end. -/
def lineEnd? (cs : List Char) : Option (List Char) :=
  match skipComment (skipSpace cs) with
  | [] => some []
  | cs => newline? cs

/-- A header, its brackets still to come. -/
def header? (s : State) : List Char → Option (State × List Char)
  | '[' :: '[' :: cs => do
    let ((parents, key), cs) ← key? cs
    let cs ← expect ']' (skipSpace cs)
    let cs ← expect ']' cs
    let entries ← openArrayTable parents key s.entries
    return (⟨entries, parents ++ [key]⟩, cs)
  | '[' :: cs => do
    let ((parents, key), cs) ← key? cs
    let cs ← expect ']' (skipSpace cs)
    let entries ← openTable parents key s.entries
    return (⟨entries, parents ++ [key]⟩, cs)
  | _ => none

/-- An entry under the current header. -/
def entry? (s : State) (cs : List Char) : Option (State × List Char) := do
  let (((path, key), v), cs) ← pair? (value? 79) cs
  let entries ← assignUnder s.header path key v s.entries
  return ({ s with entries }, cs)

/-- The lines of a document. -/
def readLines : Nat → State → List Char → Option State
  | 0, _, _ => none
  | fuel + 1, s, cs =>
    match skipSpace cs with
    | [] => some s
    | c :: cs =>
      if c = '#' ∨ c = '\n' ∨ c = '\r' then (lineEnd? (c :: cs)).bind (readLines fuel s)
      else do
        let (s, cs) ← if c = '[' then header? s (c :: cs) else entry? s (c :: cs)
        readLines fuel s (← lineEnd? cs)

/-- The entries of a document; a byte-order mark before it does not count. -/
def read? (text : List Char) : Option Entries :=
  let text := match text with
    | '\uFEFF' :: rest => rest
    | text => text
  (readLines (text.length + 2) ⟨[], []⟩ text).map (·.entries)

end FarmClient.Toml
