/-
Values of a TOML document and the rules by which keys and headers build its
tables. Each table remembers how it came about: written inline, only implied
by a longer header, built up by dotted keys, or defined by a header of its
own. Which of them may be entered again depends on that.
-/

namespace FarmClient.Toml

/-- How a table came about. -/
inductive Origin where
  /-- Written between braces; closed for good. -/
  | inline
  /-- Implied by the header of a table within it. -/
  | implied
  /-- Built up by dotted keys. -/
  | dotted
  /-- Defined by its own header; also the document itself. -/
  | defined
deriving DecidableEq

inductive Value where
  | string (text : String)
  | integer (n : Int)
  | float
  | bool (b : Bool)
  | datetime
  | array (items : List Value)
  | table (origin : Origin) (entries : List (String × Value))
  /-- An array whose tables are opened by headers, the last one coming last. -/
  | tables (earlier : List (List (String × Value))) (last : List (String × Value))

abbrev Entries := List (String × Value)

def lookup? (key : String) (entries : Entries) : Option Value :=
  (entries.find? fun e => e.1 = key).map (·.2)

def replace (key : String) (value : Value) (entries : Entries) : Entries :=
  entries.map fun e => if e.1 = key then (key, value) else e

/-- Changes the table that a path leads to from a table of some origin; what
is missing on the way is made. By dotted keys only what dotted keys or longer
headers have made may be entered; by the path of a header any table may,
unless it is inline. -/
def descend (byDots : Bool) (change : Origin → Entries → Option Entries) :
    List String → Origin → Entries → Option Entries
  | [], origin, entries => change origin entries
  | key :: path, _, entries =>
    match lookup? key entries with
    | none => do
      let origin := if byDots then .dotted else .implied
      let inner ← descend byDots change path origin []
      return entries ++ [(key, .table origin inner)]
    | some (.table .inline _) => none
    | some (.table origin inner) =>
      if byDots ∧ origin = .defined then none
      else do
        let inner ← descend byDots change path origin inner
        return replace key (.table origin inner) entries
    | some (.tables earlier last) => do
      let last ← descend byDots change path .defined last
      return replace key (.tables earlier last) entries
    | some _ => none

/-- A new entry; a key may be set only once, and by dots only in a table that
dots have made. -/
def insertKey (path : List String) (key : String) (value : Value) (origin : Origin)
    (entries : Entries) : Option Entries :=
  if origin = .dotted ↔ path = [] then none
  else match lookup? key entries with
    | some _ => none
    | none => some (entries ++ [(key, value)])

/-- Sets a dotted key, counted from a table. -/
def assign (path : List String) (key : String) (value : Value) (entries : Entries) : Option Entries :=
  descend true (insertKey path key value) path .defined entries

/-- Sets a dotted key in the table of the latest header. -/
def assignUnder (header path : List String) (key : String) (value : Value) (entries : Entries) :
    Option Entries :=
  descend false (fun _ entries => assign path key value entries) header .defined entries

/-- Opens the table of a header; one that was only implied becomes defined. -/
def openTable (parents : List String) (key : String) (entries : Entries) : Option Entries :=
  descend false (fun _ entries =>
    match lookup? key entries with
    | none => some (entries ++ [(key, .table .defined [])])
    | some (.table .implied inner) => some (replace key (.table .defined inner) entries)
    | some _ => none) parents .defined entries

/-- Opens one more table of an array of tables. -/
def openArrayTable (parents : List String) (key : String) (entries : Entries) : Option Entries :=
  descend false (fun _ entries =>
    match lookup? key entries with
    | none => some (entries ++ [(key, .tables [] [])])
    | some (.tables earlier last) => some (replace key (.tables (earlier ++ [last]) []) entries)
    | some _ => none) parents .defined entries

end FarmClient.Toml
