/-
The terminal beside a running script: what may be typed, and what is printed
for an action. A highlighted line is shown with its number and its source.
-/
import FarmClient.App
import FarmClient.Text.Blank

namespace FarmClient.Terminal

/-- A line typed while a script runs. -/
inductive TerminalCommand where
  | pauseResume
  | step
  | abort
deriving DecidableEq

/-- The command of a typed line; blanks around it do not count. -/
def TerminalCommand.parse? (line : String) : Option TerminalCommand :=
  let word := String.ofList (trim line.toList)
  if word ∈ ["p", "pause", "resume"] then some .pauseResume
  else if word ∈ ["", "s", "step"] then some .step
  else if word ∈ ["q", "quit", "abort"] then some .abort
  else none

/-- A number with blanks before it up to a width of three. -/
def lineNumber (n : Nat) : String :=
  let text := Decimal.natText n
  String.ofList (List.replicate (3 - text.length) ' ') ++ text

/-- The source of a line, counted from one, without the blanks at its end. -/
def sourceLine (script : List String) : Nat → String
  | 0 => ""
  | i + 1 => String.ofList (trimEnd (script[i]?.getD "").toList)

/-- What is printed for an action. -/
def consoleLine? (script : List String) : Action → Option String
  | .log text => some text
  | .highlightLine line =>
    some ("→ " ++ lineNumber line.toNat ++ " | " ++ sourceLine script line.toNat)
  | _ => none

end FarmClient.Terminal
