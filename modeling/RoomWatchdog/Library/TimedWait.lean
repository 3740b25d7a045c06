import RoomWatchdog.Library.WrapClock

/-! A wait that looks for something every so often until it is there or the time is up. -/

namespace TimedWait
open WrapClock (read)

variable {timeout period elapsed lasted : Nat}

/-- How often it can still sleep for at least `period`. -/
def turns (timeout period elapsed : Nat) : Nat := (timeout - elapsed + period - 1) / period

/-- A sleep before the time is up is one of them. -/
theorem turns_lt (hperiod : 0 < period) (hgoing : elapsed < timeout) (hlasted : period ≤ lasted) :
    turns timeout period (elapsed + lasted) + 1 ≤ turns timeout period elapsed := by
  have hle : timeout - (elapsed + lasted) + period - 1 + period ≤
      timeout - elapsed + period - 1 + 0 ∨ timeout - (elapsed + lasted) = 0 := by omega
  rcases hle with hle | hover
  · calc turns timeout period (elapsed + lasted) + 1
        = (timeout - (elapsed + lasted) + period - 1 + period) / period :=
          (Nat.add_div_right _ hperiod).symm
      _ ≤ turns timeout period elapsed := Nat.div_le_div_right hle
  · have hnone : turns timeout period (elapsed + lasted) = 0 := by
      rw [turns, hover]
      exact Nat.div_eq_of_lt (by omega)
    rw [hnone]
    exact (Nat.one_le_div_iff hperiod).mpr (by omega)

/-- As long as no sleep is as long as what the counter has left, it tells the time. -/
theorem going_iff {start now : Nat} {timeout : UInt32} {slack : Nat} (h : start ≤ now)
    (hslack : timeout.toNat + slack ≤ 2 ^ 32) (helapsed : now - start < timeout.toNat + slack) :
    read now - read start < timeout ↔ now - start < timeout.toNat := by
  rw [← not_iff_not, UInt32.not_lt, Nat.not_lt]
  exact WrapClock.elapsed_iff h (by omega)

end TimedWait
