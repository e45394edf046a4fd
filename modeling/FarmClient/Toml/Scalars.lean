/-
The scalars of TOML: strings of the four kinds, numbers, dates and times.
Every reader gives what it read and the rest of the text, or nothing.
-/
import FarmClient.Decimal.Digits
import FarmClient.Toml.Value

namespace FarmClient.Toml

def isSpace (c : Char) : Bool := c = ' ' || c = '\t'

def skipSpace (cs : List Char) : List Char := cs.dropWhile isSpace

/-- A line end: a line feed, with or without a carriage return before it. -/
def newline? : List Char → Option (List Char)
  | '\n' :: cs => some cs
  | '\r' :: '\n' :: cs => some cs
  | _ => none

/-- What may stand in comments and in literal strings. -/
def isPlain (c : Char) : Bool := c = '\t' || (32 ≤ c.toNat && c.toNat ≠ 127)

/-- Passes over a comment, if there is one. -/
def skipComment : List Char → List Char
  | '#' :: cs => cs.dropWhile isPlain
  | cs => cs

/-- What a hexadecimal digit stands for. -/
def hexValue? (c : Char) : Option Nat :=
  if '0' ≤ c ∧ c ≤ '9' then some (c.toNat - 48)
  else if 'a' ≤ c ∧ c ≤ 'f' then some (c.toNat - 87)
  else if 'A' ≤ c ∧ c ≤ 'F' then some (c.toNat - 55)
  else none

/-- So many hexadecimal digits, as a number. -/
def hexDigits : Nat → Nat → List Char → Option (Nat × List Char)
  | 0, n, cs => some (n, cs)
  | _ + 1, _, [] => none
  | k + 1, n, c :: cs => do
    let d ← hexValue? c
    hexDigits k (16 * n + d) cs

/-- The character of a code point, unless it is half of a surrogate pair or out of range. -/
def codePoint? (n : Nat) : Option Char :=
  if n < 0xD800 ∨ (0xDFFF < n ∧ n < 0x110000) then some (Char.ofNat n) else none

/-- The character of an escape after its backslash. -/
def escape? : List Char → Option (Char × List Char)
  | 'b' :: cs => some ('\x08', cs)
  | 't' :: cs => some ('\t', cs)
  | 'n' :: cs => some ('\n', cs)
  | 'f' :: cs => some ('\x0c', cs)
  | 'r' :: cs => some ('\r', cs)
  | '"' :: cs => some ('"', cs)
  | '\\' :: cs => some ('\\', cs)
  | 'u' :: cs => do
    let (n, cs) ← hexDigits 4 0 cs
    return (← codePoint? n, cs)
  | 'U' :: cs => do
    let (n, cs) ← hexDigits 8 0 cs
    return (← codePoint? n, cs)
  | _ => none

/-- A string on one line, its opening quote taken off. -/
def basicString : Nat → List Char → List Char → Option (String × List Char)
  | 0, _, _ => none
  | _ + 1, _, [] => none
  | _ + 1, done, '"' :: cs => some (String.ofList done.reverse, cs)
  | fuel + 1, done, '\\' :: cs => do
    let (c, cs) ← escape? cs
    basicString fuel (c :: done) cs
  | fuel + 1, done, c :: cs => if isPlain c then basicString fuel (c :: done) cs else none

/-- A literal string on one line, its opening quote taken off. -/
def literalString (cs : List Char) : Option (String × List Char) :=
  let text := cs.takeWhile fun c => isPlain c && c ≠ '\''
  match cs.dropWhile fun c => isPlain c && c ≠ '\'' with
  | '\'' :: rest => some (String.ofList text, rest)
  | _ => none

/-- Passes over blanks and line ends. -/
def skipBlankLines : Nat → List Char → List Char
  | 0, cs => cs
  | fuel + 1, cs =>
    match newline? (skipSpace cs) with
    | some rest => skipBlankLines fuel rest
    | none => skipSpace cs

/-- The end of a string in triple quotes, at a run of quotes: at most two of
the run belong to the text. -/
def closingRun (quote : Char) (cs : List Char) : Option (Nat × List Char) :=
  let run := (cs.takeWhile (· = quote)).length
  if run < 3 then none else some (min (run - 3) 2, cs.drop (min run 5))

/-- A string in triple quotes, its opening quotes taken off. -/
def longString (quote : Char) (escapes : Bool) : Nat → List Char → List Char → Option (String × List Char)
  | 0, _, _ => none
  | _ + 1, _, [] => none
  | fuel + 1, done, c :: cs =>
    if c = quote then
      match closingRun quote (c :: cs) with
      | some (n, rest) => some (String.ofList (List.replicate n quote ++ done).reverse, rest)
      | none => longString quote escapes fuel (c :: done) cs
    else if escapes ∧ c = '\\' then
      match newline? (skipSpace cs) with
      | some rest => longString quote escapes fuel done (skipBlankLines rest.length rest)
      | none => do
        let (c, cs) ← escape? cs
        longString quote escapes fuel (c :: done) cs
    else
      match newline? (c :: cs) with
      | some rest => longString quote escapes fuel ('\n' :: done) rest
      | none => if isPlain c then longString quote escapes fuel (c :: done) cs else none

/-- A string of any kind. -/
def string? : List Char → Option (String × List Char)
  | '"' :: '"' :: '"' :: cs => longString '"' true (cs.length + 1) [] ((newline? cs).getD cs)
  | '"' :: cs => basicString (cs.length + 1) [] cs
  | '\'' :: '\'' :: '\'' :: cs => longString '\'' false (cs.length + 1) [] ((newline? cs).getD cs)
  | '\'' :: cs => literalString cs
  | _ => none

/-- Digits of a base with single underscores between them, as a list of digits. -/
def digitRun (isDigit : Char → Bool) : List Char → Option (List Char × List Char)
  | [] => none
  | c :: cs => if isDigit c then go [c] cs else none
where
  go (done : List Char) : List Char → Option (List Char × List Char)
    | [] => some (done.reverse, [])
    | '_' :: c :: cs => if isDigit c then go (c :: done) cs else none
    | ['_'] => none
    | c :: cs => if isDigit c then go (c :: done) cs else some (done.reverse, c :: cs)

/-- An optional sign; whether it is minus. -/
def sign : List Char → Bool × List Char
  | '-' :: cs => (true, cs)
  | '+' :: cs => (false, cs)
  | cs => (false, cs)

/-- A decimal integer's digits: a zero stands alone. -/
def decimalDigits : List Char → Option (List Char × List Char)
  | '0' :: cs => some (['0'], cs)
  | cs => digitRun Char.isDigit cs

/-- An integer with a sign, in 64 bits. -/
def decimalInteger (cs : List Char) : Option (Value × List Char) := do
  let (negative, cs) := sign cs
  let (ds, cs) ← decimalDigits cs
  let n : Int := Decimal.ofDigits ds
  let n := if negative then -n else n
  if -(Nat.pow 2 63 : Int) ≤ n ∧ n < Nat.pow 2 63 then return (.integer n, cs) else none

/-- The digits of a base, as a number of 63 bits. -/
def basedInteger (base : Nat) (cs : List Char) : Option (Value × List Char) := do
  let isDigit (c : Char) : Bool := ((hexValue? c).map fun d => decide (d < base)).getD false
  let (ds, cs) ← digitRun isDigit cs
  let n := ds.foldl (fun n c => base * n + (hexValue? c).getD 0) 0
  if n < Nat.pow 2 63 then return (.integer n, cs) else none

def integer? : List Char → Option (Value × List Char)
  | '0' :: 'x' :: cs => basedInteger 16 cs
  | '0' :: 'o' :: cs => basedInteger 8 cs
  | '0' :: 'b' :: cs => basedInteger 2 cs
  | cs => decimalInteger cs

/-- Whether a decimal rounds to infinity: digits before and after the point, and a power of ten. -/
def overflows (whole fraction : List Char) (exponent : Int) : Bool :=
  let significant := (whole ++ fraction).dropWhile (· = '0')
  let leading : Int := (whole.length : Int) - ((whole ++ fraction).length - significant.length) + exponent
  if significant.isEmpty || leading < 300 then false
  else if 310 < leading then true
  else
    let e := exponent - fraction.length
    (Float.ofScientific (Decimal.ofDigits significant) (e < 0) e.natAbs).isInf

/-- The exponent of a float. -/
def exponent? : List Char → Option (Int × List Char)
  | e :: cs =>
    if e = 'e' ∨ e = 'E' then do
      let (negative, cs) := sign cs
      let (ds, cs) ← digitRun Char.isDigit cs
      let n : Int := Decimal.ofDigits ds
      return (if negative then -n else n, cs)
    else none
  | [] => none

/-- A number with a fraction or an exponent; one too large for a double is refused unless negative. -/
def decimalFloat? (cs : List Char) : Option (Value × List Char) := do
  let (negative, cs) := sign cs
  let (whole, cs) ← decimalDigits cs
  let (fraction, exponent, cs) ← match cs with
    | '.' :: cs => do
      let (fraction, cs) ← digitRun Char.isDigit cs
      match cs with
      | e :: _ =>
        if e = 'e' ∨ e = 'E' then
          let (n, cs) ← exponent? cs
          pure (fraction, n, cs)
        else pure (fraction, 0, cs)
      | [] => pure (fraction, 0, [])
    | cs => do
      let (n, cs) ← exponent? cs
      pure ([], n, cs)
  if !negative && overflows whole fraction exponent then none else return (.float, cs)

/-- Infinity and not-a-number, with or without a sign. -/
def specialFloat? (cs : List Char) : Option (Value × List Char) :=
  match (sign cs).2 with
  | 'i' :: 'n' :: 'f' :: cs => some (.float, cs)
  | 'n' :: 'a' :: 'n' :: cs => some (.float, cs)
  | _ => none

/-- So many digits, as a number. -/
def fixedDigits (count : Nat) (cs : List Char) : Option (Nat × List Char) :=
  let ds := cs.take count
  if ds.length = count ∧ ds.all Char.isDigit then some (Decimal.ofDigits ds, cs.drop count) else none

def two (low high : Nat) (cs : List Char) : Option (List Char) := do
  let (n, cs) ← fixedDigits 2 cs
  if low ≤ n ∧ n ≤ high then return cs else none

def expect (c : Char) : List Char → Option (List Char)
  | d :: cs => if c = d then some cs else none
  | [] => none

def daysIn (year month : Nat) : Nat :=
  if month = 2 then
    if year % 4 = 0 ∧ (year % 100 ≠ 0 ∨ year % 400 = 0) then 29 else 28
  else if month = 4 ∨ month = 6 ∨ month = 9 ∨ month = 11 then 30
  else 31

/-- A date of the calendar. -/
def date? (cs : List Char) : Option (List Char) := do
  let (year, cs) ← fixedDigits 4 cs
  let cs ← expect '-' cs
  let (month, cs) ← fixedDigits 2 cs
  if month < 1 ∨ 12 < month then none
  else
    let cs ← expect '-' cs
    let (day, cs) ← fixedDigits 2 cs
    if day < 1 ∨ daysIn year month < day then none else return cs

/-- A time of day with seconds, and a fraction of them. -/
def time? (cs : List Char) : Option (List Char) := do
  let cs ← two 0 23 cs
  let cs ← expect ':' cs
  let cs ← two 0 59 cs
  let cs ← expect ':' cs
  let cs ← two 0 60 cs
  match cs with
  | '.' :: c :: cs => if c.isDigit then return cs.dropWhile Char.isDigit else return '.' :: c :: cs
  | cs => return cs

/-- An offset from universal time, if there is one. -/
def offset? : List Char → Option (List Char)
  | 'Z' :: cs => some cs
  | 'z' :: cs => some cs
  | '+' :: cs => hours cs
  | '-' :: cs => hours cs
  | cs => some cs
where
  hours (cs : List Char) : Option (List Char) := do
    let cs ← two 0 23 cs
    let cs ← expect ':' cs
    two 0 59 cs

/-- Whether an hour and a colon stand here. -/
def startsTime (cs : List Char) : Bool :=
  ((two 0 23 cs).bind (expect ':')).isSome

/-- A date, a time or both. -/
def datetime? (cs : List Char) : Option (Value × List Char) :=
  match date? cs with
  | some rest =>
    match rest with
    | t :: after =>
      if (t = 'T' ∨ t = 't' ∨ t = ' ') ∧ startsTime after then do
        let cs ← time? after
        let cs ← offset? cs
        return (.datetime, cs)
      else some (.datetime, rest)
    | [] => some (.datetime, [])
  | none => (time? cs).map (.datetime, ·)

/-- A date, a time or a number. -/
def number? (cs : List Char) : Option (Value × List Char) :=
  datetime? cs <|> decimalFloat? cs <|> specialFloat? cs <|> integer? cs

/-- A word, exactly. -/
def word? (word : String) (value : Value) (cs : List Char) : Option (Value × List Char) :=
  if word.toList.isPrefixOf cs then some (value, cs.drop word.length) else none

/-- A scalar. -/
def scalar? (cs : List Char) : Option (Value × List Char) :=
  match cs with
  | [] => none
  | c :: _ =>
    if c = '"' ∨ c = '\'' then (string? cs).map fun (s, rest) => (.string s, rest)
    else if c = '+' ∨ c = '-' ∨ c.isDigit then number? cs
    else if c = 't' then word? "true" (.bool true) cs
    else if c = 'f' then word? "false" (.bool false) cs
    else specialFloat? cs

end FarmClient.Toml
