/-
How long to wait before the next attempt: a tenth of a second, doubled with
every attempt up to the fourth.
-/

namespace FarmClient.Page

/-- The wait before an attempt, in milliseconds; attempts count from zero. -/
def backoffDelay (attempt : Nat) : Nat := 100 <<< min attempt 4

theorem backoffDelay_eq (n : Nat) : backoffDelay n = min (100 <<< n) 1600 := by
  unfold backoffDelay
  rcases Nat.lt_or_ge n 4 with h | h
  · have : n = 0 ∨ n = 1 ∨ n = 2 ∨ n = 3 := by omega
    rcases this with rfl | rfl | rfl | rfl <;> rfl
  · have := Nat.pow_le_pow_right (show 2 > 0 by decide) h
    rw [Nat.min_eq_right h, Nat.shiftLeft_eq, Nat.shiftLeft_eq]
    omega

end FarmClient.Page
