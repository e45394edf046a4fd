/-
What can be wrong with a JSON text or with the value it holds, and where.
`Cause.message` has the wording. An offset counts bytes from the beginning of
the text; `locate` turns it into a line, from 1, and the bytes since its start.
-/
import FarmClient.Text.Quoted
import FarmClient.Decimal.Notation

namespace FarmClient.Json

/-- A number: an integer where the text has no fraction and no exponent and
the value fits in 64 bits with or without a sign, otherwise a double. -/
inductive Number where
  | integer (value : Int)
  | double (value : Float)

/-- What a fault report says was found. -/
inductive Found where
  | null
  | bool (value : Bool)
  | number (value : Number)
  | string (value : String)
  | sequence
  | map

def Found.text : Found → String
  | .null => "null"
  | .bool b => "boolean `" ++ (if b then "true" else "false") ++ "`"
  | .number (.integer n) => "integer `" ++ Decimal.intText n ++ "`"
  | .number (.double x) => "floating point `" ++ Decimal.Notation.message.write x ++ "`"
  | .string s => "string " ++ quoted s
  | .sequence => "sequence"
  | .map => "map"

/-- Where a text stops being JSON. -/
inductive Malformation where
  | endInList
  | endInObject
  | endInString
  | endInValue
  | expectedColon
  | expectedListCommaOrEnd
  | expectedObjectCommaOrEnd
  | expectedIdent
  | expectedValue
  | invalidEscape
  | invalidNumber
  | numberOutOfRange
  | controlCharacter
  | keyMustBeString
  | loneSurrogate
  | unexpectedEndOfEscape
  | trailingComma
  | trailingCharacters
  | recursionLimit
deriving DecidableEq

def Malformation.text : Malformation → String
  | .endInList => "EOF while parsing a list"
  | .endInObject => "EOF while parsing an object"
  | .endInString => "EOF while parsing a string"
  | .endInValue => "EOF while parsing a value"
  | .expectedColon => "expected `:`"
  | .expectedListCommaOrEnd => "expected `,` or `]`"
  | .expectedObjectCommaOrEnd => "expected `,` or `\x7d`"
  | .expectedIdent => "expected ident"
  | .expectedValue => "expected value"
  | .invalidEscape => "invalid escape"
  | .invalidNumber => "invalid number"
  | .numberOutOfRange => "number out of range"
  | .controlCharacter => "control character (\\u0000-\\u001F) found while parsing a string"
  | .keyMustBeString => "key must be a string"
  | .loneSurrogate => "lone leading surrogate in hex escape"
  | .unexpectedEndOfEscape => "unexpected end of hex escape"
  | .trailingComma => "trailing comma"
  | .trailingCharacters => "trailing characters"
  | .recursionLimit => "recursion limit exceeded"

/-- How a value fails to be what it should be. -/
inductive Mismatch where
  | invalidType (found : Found) (wanted : String)
  | invalidValue (found : Found) (wanted : String)
  | invalidLength (length : Nat) (wanted : String)
  | unknownVariant (name : String) (names : List String)
  | missingField (key : String)
  | duplicateField (key : String)

/-- The names a value may have, as a list for a person. -/
def alternatives : List String → String
  | [] => "there are no variants"
  | [a] => "expected `" ++ a ++ "`"
  | [a, b] => "expected `" ++ a ++ "` or `" ++ b ++ "`"
  | names => "expected one of " ++ ", ".intercalate (names.map fun n => "`" ++ n ++ "`")

def Mismatch.text : Mismatch → String
  | .invalidType found wanted => "invalid type: " ++ found.text ++ ", expected " ++ wanted
  | .invalidValue found wanted => "invalid value: " ++ found.text ++ ", expected " ++ wanted
  | .invalidLength n wanted => "invalid length " ++ Decimal.natText n ++ ", expected " ++ wanted
  | .unknownVariant name names => "unknown variant `" ++ name ++ "`, " ++ alternatives names
  | .missingField key => "missing field `" ++ key ++ "`"
  | .duplicateField key => "duplicate field `" ++ key ++ "`"

inductive Cause where
  | malformed (cause : Malformation)
  | mismatch (cause : Mismatch)

def Cause.text : Cause → String
  | .malformed m => m.text
  | .mismatch m => m.text

/-- A cause and the offset just after the byte that shows it. -/
structure Fault where
  cause : Cause
  offset : Nat

def Fault.malformed (cause : Malformation) (offset : Nat) : Fault := ⟨.malformed cause, offset⟩
def Fault.mismatch (cause : Mismatch) (offset : Nat) : Fault := ⟨.mismatch cause, offset⟩

/-- A line, from 1, and the bytes passed since its start. -/
structure Place where
  line : Nat
  column : Nat
deriving DecidableEq

/-- The place an offset has in the rest of a text that starts at `here`. -/
def locateFrom (here : Place) : List Char → Nat → Place
  | [], _ => here
  | c :: cs, offset =>
    if offset < c.utf8Size then ⟨here.line, here.column + offset⟩
    else if c = '\n' then locateFrom ⟨here.line + 1, 0⟩ cs (offset - 1)
    else locateFrom ⟨here.line, here.column + c.utf8Size⟩ cs (offset - c.utf8Size)

def locate (text : List Char) (offset : Nat) : Place :=
  locateFrom ⟨1, 0⟩ text offset

/-- A cause with its place in the text, if it has one. -/
structure Report where
  cause : Cause
  place : Option Place

def Report.text (r : Report) : String :=
  match r.place with
  | none => r.cause.text
  | some p => r.cause.text ++ " at line " ++ Decimal.natText p.line ++ " column " ++ Decimal.natText p.column

def Fault.report (text : List Char) (f : Fault) : Report :=
  ⟨f.cause, some (locate text f.offset)⟩

end FarmClient.Json
