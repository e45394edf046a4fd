/-
Which characters a quoted text shows as they are: those that leave a mark of
their own.
-/
import FarmClient.Text.Combining
import FarmClient.Text.Unseen

namespace FarmClient

/-- Whether a code point lies in one of the ranges. -/
def withinRanges (ranges : Array (Nat × Nat)) (n : Nat) : Bool :=
  ranges.any fun range => range.1 ≤ n && n ≤ range.2

/-- Whether the character is shown as it is in a quoted text. -/
def isVisible (c : Char) : Bool :=
  (32 ≤ c.toNat && c.toNat < 127) ||
    !(withinRanges unseenRanges c.toNat || withinRanges combiningRanges c.toNat)

end FarmClient
