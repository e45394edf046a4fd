/-
Texts quoted for a person to read: between double quotes, with a quote and a
backslash escaped, the usual short escapes, and the code point of anything
that cannot be seen.
-/
import FarmClient.Text.Visible

namespace FarmClient

/-- A code point in lower-case hexadecimal, without leading zeros. -/
def hexText (n : Nat) : List Char :=
  Nat.toDigits 16 n

/-- How one character stands in a quoted text. -/
def quoteChar (c : Char) : List Char :=
  if c = '"' then ['\\', '"']
  else if c = '\\' then ['\\', '\\']
  else if c = '\n' then ['\\', 'n']
  else if c = '\r' then ['\\', 'r']
  else if c = '\t' then ['\\', 't']
  else if c = '\x00' then ['\\', '0']
  else if isVisible c then [c]
  else ['\\', 'u', '\x7b'] ++ hexText c.toNat ++ ['\x7d']

/-- A text between double quotes. -/
def quoted (text : String) : String :=
  String.ofList ('"' :: text.toList.flatMap quoteChar ++ ['"'])

example : quoted "a\"\\\n\x01" = "\"a\\\"\\\\\\n\\u\x7b1\x7d\"" := by decide +kernel

end FarmClient
