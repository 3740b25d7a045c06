import Mathlib.Algebra.GroupWithZero.Nat
import Mathlib.Data.Nat.Basic

/-! A clock that never wraps, seen through a 32-bit counter of the same unit. -/

namespace WrapClock

/-- The counter's value at true time `t`. -/
def read (t : Nat) : UInt32 := UInt32.ofNat t

@[simp] theorem read_toNat (t : Nat) : (read t).toNat = t % 2 ^ 32 := UInt32.toNat_ofNat'

/-- The wrapping difference of two readings is the true one modulo the counter's range. -/
theorem elapsed_toNat {a b : Nat} (h : a ≤ b) :
    (read b - read a).toNat = (b - a) % 2 ^ 32 := by
  rw [UInt32.toNat_sub, read_toNat, read_toNat]
  omega

/-- A counter never shows more than what has really elapsed. -/
theorem elapsed_le {a b : Nat} (h : a ≤ b) : (read b - read a).toNat ≤ b - a := by
  rw [elapsed_toNat h]
  exact Nat.mod_le _ _

/-- An interval the counter has seen pass has really passed. -/
theorem le_of_elapsed {a b : Nat} {d : UInt32} (h : a ≤ b) (hd : d ≤ read b - read a) :
    a + d.toNat ≤ b := by
  have hle := elapsed_le h
  have hnat := UInt32.le_iff_toNat_le.mp hd
  omega

/-- Within one turn of the counter the test is exact. -/
theorem elapsed_iff {a b : Nat} {d : UInt32} (h : a ≤ b) (hturn : b - a < 2 ^ 32) :
    d ≤ read b - read a ↔ d.toNat ≤ b - a := by
  rw [UInt32.le_iff_toNat_le, elapsed_toNat h, Nat.mod_eq_of_lt hturn]

/-- The test is wrong exactly when the counter has started over and shows too little again. -/
theorem elapsed_exact_iff {a b : Nat} {d : UInt32} (h : a ≤ b) :
    (d ≤ read b - read a ↔ d.toNat ≤ b - a) ↔
      ¬ (d.toNat ≤ b - a ∧ (b - a) % 2 ^ 32 < d.toNat) := by
  have hmod := Nat.mod_le (b - a) (2 ^ 32)
  rw [UInt32.le_iff_toNat_le, elapsed_toNat h]
  omega

end WrapClock
