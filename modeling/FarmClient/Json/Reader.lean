/-
From a text to its tree (`Document.read`). Every function takes what is left
of the text with the offset of its beginning and gives back what it leaves.
-/
import FarmClient.Json.Tree

namespace FarmClient.Json

/-- The four blanks between the tokens of JSON. -/
def isSpace (c : Char) : Bool :=
  c = ' ' || c = '\n' || c = '\t' || c = '\r'

def skipSpace : List Char → Nat → List Char × Nat
  | [], pos => ([], pos)
  | c :: cs, pos => if isSpace c then skipSpace cs (pos + 1) else (c :: cs, pos)

/-- The bytes of a text. -/
def byteCount (cs : List Char) : Nat :=
  cs.foldl (fun n c => n + c.utf8Size) 0

/-- The rest of a word whose first letter has been read. -/
def scanWord : List Char → List Char → Nat → Except Fault (List Char × Nat)
  | [], cs, pos => .ok (cs, pos)
  | _ :: _, [], pos => .error (.malformed .endInValue pos)
  | w :: ws, c :: cs, pos =>
    if c = w then scanWord ws cs (pos + 1) else .error (.malformed .expectedIdent (pos + 1))

/-- What a hexadecimal digit stands for. -/
def hexValue? (c : Char) : Option Nat :=
  if '0' ≤ c ∧ c ≤ '9' then some (c.toNat - 48)
  else if 'a' ≤ c ∧ c ≤ 'f' then some (c.toNat - 87)
  else if 'A' ≤ c ∧ c ≤ 'F' then some (c.toNat - 55)
  else none

def hexFour? (a b c d : Char) : Option Nat := do
  return 4096 * (← hexValue? a) + 256 * (← hexValue? b) + 16 * (← hexValue? c) + (← hexValue? d)

/-- The fault in four digits of an escape that stand at `pos` and are not all digits. -/
def hexFault (cs : List Char) (pos : Nat) : Fault :=
  if byteCount cs < 4 then .malformed .endInString (pos + byteCount cs)
  else .malformed .invalidEscape (pos + 4)

/-- The four digits of an escape. -/
def scanHexFour (cs : List Char) (pos : Nat) : Except Fault (Nat × List Char) :=
  match cs with
  | a :: b :: c :: d :: rest =>
    match hexFour? a b c d with
    | some n => .ok (n, rest)
    | none => .error (hexFault cs pos)
  | _ => .error (hexFault cs pos)

/-- The character of a pair of surrogates. -/
def pairChar (high low : Nat) : Char :=
  Char.ofNat ((high - 0xD800) * 1024 + (low - 0xDC00) + 0x10000)

/-- The second half of a pair of surrogates, at `pos` just after the first. -/
def scanLowHalf (cs : List Char) (pos : Nat) : Except Fault (Nat × List Char) :=
  match cs with
  | [] => .error (.malformed .endInString pos)
  | '\\' :: [] => .error (.malformed .endInString (pos + 1))
  | '\\' :: 'u' :: rest => do
    let (n, rest) ← scanHexFour rest (pos + 2)
    if 0xDC00 ≤ n ∧ n ≤ 0xDFFF then return (n, rest)
    else throw (.malformed .loneSurrogate (pos + 6))
  | '\\' :: _ => .error (.malformed .unexpectedEndOfEscape (pos + 2))
  | _ => .error (.malformed .unexpectedEndOfEscape (pos + 1))

/-- A string read up to its closing quote, or broken before it. -/
inductive StringScan where
  | closed (text : Except Fault String) (rest : List Char) (pos : Nat)
  | broken (damage : Damage)

/-- The short escapes. -/
def shortEscape? (c : Char) : Option Char :=
  if c = '"' || c = '\\' || c = '/' then some c
  else if c = 'b' then some '\x08'
  else if c = 'f' then some '\x0c'
  else if c = 'n' then some '\n'
  else if c = 'r' then some '\r'
  else if c = 't' then some '\t'
  else none

/-- The damage of a string in which `first` has been found already. -/
def stringDamage (first : Option Fault) (reading skipping : Fault) : StringScan :=
  .broken ⟨first.getD reading, skipping⟩

/-- The rest of a string. `done` is its reversed beginning; `first` is the
first fault for a reader that a skipper does not mind. -/
def scanString : Nat → Option Fault → List Char → List Char → Nat → StringScan
  | 0, first, _, _, pos =>
    stringDamage first (.malformed .endInString pos) (.malformed .endInString pos)
  | fuel + 1, first, done, cs, pos =>
    match cs with
    | [] => stringDamage first (.malformed .endInString pos) (.malformed .endInString pos)
    | '"' :: rest =>
      let text := match first with
        | some f => .error f
        | none => .ok (String.ofList done.reverse)
      .closed text rest (pos + 1)
    | '\\' :: [] =>
      stringDamage first (.malformed .endInString (pos + 1)) (.malformed .endInString (pos + 1))
    | '\\' :: 'u' :: rest =>
      match scanHexFour rest (pos + 2) with
      | .error f => stringDamage first f f
      | .ok (n, rest) =>
        if 0xDC00 ≤ n ∧ n ≤ 0xDFFF then
          scanString fuel (first <|> some (.malformed .loneSurrogate (pos + 6))) done rest (pos + 6)
        else if 0xD800 ≤ n ∧ n ≤ 0xDBFF then
          match scanLowHalf rest (pos + 6) with
          | .ok (low, rest) => scanString fuel first (pairChar n low :: done) rest (pos + 12)
          | .error f => scanString fuel (first <|> some f) done rest (pos + 6)
        else scanString fuel first (Char.ofNat n :: done) rest (pos + 6)
    | '\\' :: e :: rest =>
      match shortEscape? e with
      | some c => scanString fuel first (c :: done) rest (pos + 2)
      | none =>
        stringDamage first (.malformed .invalidEscape (pos + 2)) (.malformed .invalidEscape (pos + 2))
    | c :: rest =>
      if c.toNat < 32 then
        stringDamage first (.malformed .controlCharacter (pos + 1)) (.malformed .controlCharacter pos)
      else scanString fuel first (c :: done) rest (pos + c.utf8Size)

/-- A number, its minus sign taken off already. -/
def readNumber (negative : Bool) (start : Nat) (cs : List Char) (pos : Nat) :
    Tree × List Char × Nat :=
  match scanNumeral negative cs pos with
  | .error damage => (.broken (some start) damage, cs, pos)
  | .ok (numeral, rest, stop) =>
    match numeral.value with
    | .ok n => (.number (.ok n) start stop, rest, stop)
    | .error unread =>
      (.number (.error (.malformed .numberOutOfRange (stop - unread))) start stop, rest, stop)

/-- A word whose first letter has been read. -/
def readWord (word : String) (value : Nat → Tree) (lead : Option Nat) (cs : List Char) (pos : Nat) :
    Tree × List Char × Nat :=
  match scanWord word.toList cs pos with
  | .ok (rest, stop) => (value stop, rest, stop)
  | .error f => (.broken lead ⟨f, f⟩, cs, pos)

mutual

/-- A value, with blanks before it. -/
def readValue : Nat → List Char → Nat → Tree × List Char × Nat
  | 0, cs, pos => (.broken none (.both .expectedValue pos), cs, pos)
  | fuel + 1, cs, pos =>
    match skipSpace cs pos with
    | ([], pos) => (.broken none (.both .endInValue pos), [], pos)
    | (c :: cs, pos) =>
      if c = '"' then
        match scanString (cs.length + 1) none [] cs (pos + 1) with
        | .closed text rest stop => (.string text stop, rest, stop)
        | .broken damage => (.broken none damage, cs, pos)
      else if c = '[' then
        let (items, rest, stop) := readItems fuel true cs (pos + 1)
        (.array pos items, rest, stop)
      else if c = '\x7b' then
        let (entries, rest, stop) := readEntries fuel true cs (pos + 1)
        (.object pos entries, rest, stop)
      else if c = '-' then readNumber true pos cs (pos + 1)
      else if c.isDigit then readNumber false pos (c :: cs) pos
      else if c = 'n' then readWord "ull" .null none cs (pos + 1)
      else if c = 't' then readWord "rue" (.bool true pos) (some pos) cs (pos + 1)
      else if c = 'f' then readWord "alse" (.bool false pos) (some pos) cs (pos + 1)
      else (.broken none (.both .expectedValue (pos + 1)), cs, pos)

/-- The rest of an array, `first` if nothing of it has been read. -/
def readItems : Nat → Bool → List Char → Nat → Items × List Char × Nat
  | 0, _, cs, pos => (.broken (.both .endInList pos), cs, pos)
  | fuel + 1, first, cs, pos =>
    match skipSpace cs pos with
    | ([], pos) => (.broken (.both .endInList pos), [], pos)
    | (c :: cs, pos) =>
      if c = ']' then (.close (pos + 1), cs, pos + 1)
      else if first then
        let (value, rest, stop) := readValue fuel (c :: cs) pos
        let (items, rest, stop) := readItems fuel false rest stop
        (.item pos value items, rest, stop)
      else if c = ',' then
        match skipSpace cs (pos + 1) with
        | ([], pos) => (.broken (.both .endInValue pos), [], pos)
        | (c :: cs, pos) =>
          if c = ']' then (.broken (.split .trailingComma .expectedValue (pos + 1)), cs, pos)
          else
            let (value, rest, stop) := readValue fuel (c :: cs) pos
            let (items, rest, stop) := readItems fuel false rest stop
            (.item pos value items, rest, stop)
      else (.broken (.both .expectedListCommaOrEnd (pos + 1)), cs, pos)

/-- The rest of an object, `first` if nothing of it has been read. -/
def readEntries : Nat → Bool → List Char → Nat → Entries × List Char × Nat
  | 0, _, cs, pos => (.broken pos (.both .endInObject pos) (.broken none (.both .endInValue pos)), cs, pos)
  | fuel + 1, first, cs, pos =>
    match skipSpace cs pos with
    | ([], pos) => (.broken pos (.both .endInObject pos) (.broken none (.both .endInValue pos)), [], pos)
    | (c :: cs, pos) =>
      if c = '\x7d' then (.close (pos + 1), cs, pos + 1)
      else if first then
        if c = '"' then readEntry fuel pos cs (pos + 1)
        else
          let (found, _, _) := readValue fuel (c :: cs) pos
          (.broken pos (.both .keyMustBeString (pos + 1)) found, cs, pos)
      else if c = ',' then
        match skipSpace cs (pos + 1) with
        | ([], stop) =>
          (.broken pos (.split .endInValue .endInObject stop) (.broken none (.both .endInValue stop)), [], stop)
        | (d :: cs, stop) =>
          if d = '"' then readEntry fuel pos cs (stop + 1)
          else
            let reading := if d = '\x7d' then .trailingComma else .keyMustBeString
            (.broken pos (.split reading .keyMustBeString (stop + 1))
              (.broken none (.both .expectedValue (stop + 1))), cs, stop)
      else
        (.broken pos (.both .expectedObjectCommaOrEnd (pos + 1))
          (.broken none (.both .expectedValue (pos + 1))), cs, pos)

/-- An entry that began at `start` and whose opening quote has been read. -/
def readEntry : Nat → Nat → List Char → Nat → Entries × List Char × Nat
  | 0, start, cs, pos =>
    (.broken start (.both .endInObject pos) (.broken none (.both .endInValue pos)), cs, pos)
  | fuel + 1, start, cs, pos =>
    match scanString (cs.length + 1) none [] cs pos with
    | .broken damage => (.broken start damage (.broken none damage), cs, pos)
    | .closed key rest stop =>
      match skipSpace rest stop with
      | ([], stop) =>
        (.entry start key stop (.broken none (.both .endInObject stop))
          (.broken stop (.both .endInObject stop) (.broken none (.both .endInValue stop))), [], stop)
      | (c :: cs, stop) =>
        if c = ':' then
          let (value, rest, after) := readValue fuel cs (stop + 1)
          let (entries, rest, after) := readEntries fuel false rest after
          (.entry start key stop value entries, rest, after)
        else
          let damage := Damage.both .expectedColon (stop + 1)
          (.entry start key (if c = '\x7d' then stop + 1 else stop) (.broken none damage)
            (.broken stop damage (.broken none damage)), cs, stop)

end

/-- The document of a text. -/
def Document.read (text : List Char) : Document :=
  let (tree, rest, stop) := readValue (3 * text.length + 3) text 0
  match skipSpace rest stop with
  | ([], _) => ⟨tree, none⟩
  | (_ :: _, pos) => ⟨tree, some pos⟩

/-- What a text means to a reader of its tree; nothing may follow the value. -/
def Document.decode {α : Type} (d : Document) (read : Tree → Except Fault α) : Except Fault α := do
  let a ← read d.tree
  match d.trailing with
  | none => return a
  | some pos => throw (.malformed .trailingCharacters (pos + 1))

end FarmClient.Json
