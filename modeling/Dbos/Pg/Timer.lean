import Mathlib.Algebra.Order.Ring.Rat
import Mathlib.Tactic.Linarith

/-!
Timers of a runtime that keeps a delay in a 32-bit signed integer: any delay that it cannot keep,
and any below 1 ms, is treated as 1 ms. Times and delays are numbers of milliseconds.
-/
namespace Dbos.Pg

def maxDelay : ℚ := 2147483647

/-- The delay that the timer waits for. -/
def timerDelay (delay : ℚ) : ℚ := if 1 ≤ delay ∧ delay ≤ maxDelay then delay else 1

/-- A timer may fire this long after it was set, and any time later. -/
def MayFire (delay elapsed : ℚ) : Prop := timerDelay delay ≤ elapsed

instance (delay elapsed : ℚ) : Decidable (MayFire delay elapsed) := inferInstanceAs (Decidable (_ ≤ _))

/-- A delay that fits is never cut short. -/
theorem mayFire_late {delay elapsed : ℚ} (fits : delay ≤ maxDelay) (fires : MayFire delay elapsed) : delay ≤ elapsed := by
  unfold MayFire timerDelay at fires
  by_cases low : 1 ≤ delay
  · rwa [if_pos ⟨low,fits⟩] at fires
  · rw [if_neg fun both => low both.1] at fires
    linarith

/-- A delay that does not fit is over after 1 ms. -/
theorem mayFire_early {delay : ℚ} (long : maxDelay < delay) : MayFire delay 1 := by
  unfold MayFire timerDelay
  rw [if_neg fun both => absurd both.2 (not_le.mpr long)]

end Dbos.Pg
