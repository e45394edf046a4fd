/-
From the timestamps of the host, in milliseconds, to the seconds between
frames. A clock that steps back yields no time, and counts on from there.
-/
import FarmClient.Geometry.Scalar

namespace FarmClient

structure FrameClock (K : Type) where
  last : Option K

namespace FrameClock

variable {K : Type} [Scalar K]

/-- A clock that has not ticked. -/
def fresh : FrameClock K := ⟨none⟩

/-- The seconds since the last tick. -/
def elapsed (c : FrameClock K) (now : K) : K :=
  match c.last with
  | none => 0
  | some last => Scalar.atLeastZero ((now - last) / 1000)

/-- The clock after a tick, and the seconds since the tick before. -/
def tick (c : FrameClock K) (now : K) : FrameClock K × K :=
  (⟨some now⟩, c.elapsed now)

end FrameClock

end FarmClient
