import Mathlib.Algebra.Order.Ring.Int
import Mathlib.Order.Iterate

/-! A one-pole low-pass filter in integers. Each step moves the estimate by the error over
`k`, rounded down, so the two sides of the target behave differently. -/
namespace LeakyFilter

/-- What one step leaves of the error. -/
def leak (k e : Int) : Int := e - e / k

variable {k e f : Int}

/-- Below `k` a positive error does not move the estimate any more. -/
theorem leak_of_small (h0 : 0 ≤ e) (hk : e < k) : leak k e = e := by
  rw [leak, Int.ediv_eq_zero_of_lt h0 hk, Int.sub_zero]

/-- A negative error shrinks at every step and never overshoots. -/
theorem leak_of_neg (hk : 0 < k) (he : e < 0) : e < leak k e ∧ leak k e ≤ 0 := by
  have hneg : e / k < 0 := Int.ediv_neg_of_neg_of_pos he hk
  have hfloor : e ≤ e / k := by
    apply (Int.le_ediv_iff_mul_le hk).mpr
    have hmul : e * k ≤ e * 1 := Int.mul_le_mul_of_nonpos_left (by omega) (by omega)
    omega
  simp only [leak]
  omega

/-- The filter never raises a larger error above that of a smaller one. -/
theorem leak_mono (hk : 0 < k) (hef : e ≤ f) : leak k e ≤ leak k f := by
  have hstep : f / k ≤ e / k + (f - e) := by
    have hbound : f ≤ e + k * (f - e) := by
      have hmul : 1 * (f - e) ≤ k * (f - e) :=
        Int.mul_le_mul_of_nonneg_right (by omega) (by omega)
      omega
    calc f / k ≤ (e + k * (f - e)) / k := Int.ediv_le_ediv hk hbound
      _ = e / k + (f - e) := Int.add_mul_ediv_left e (f - e) (by omega)
  simp only [leak]
  omega

/-- The estimate stays between where it was and the target. -/
theorem leak_of_nonneg (hk : 0 < k) (he : 0 ≤ e) : 0 ≤ leak k e ∧ leak k e ≤ e := by
  have hquot : 0 ≤ e / k := Int.ediv_nonneg he (by omega)
  have hself : e / k ≤ e := Int.ediv_le_self k he
  simp only [leak]
  omega

/-- An error that starts at or above a value below `k` never gets under it. -/
theorem le_iterate {a : Int} (hk : 0 < k) (h0 : 0 ≤ a) (ha : a < k) (h : a ≤ e) (n : Nat) :
    a ≤ (leak k)^[n] e := by
  have hfixed : (leak k)^[n] a = a := Function.iterate_fixed (leak_of_small h0 ha) n
  have hmono : Monotone (leak k) := fun _ _ => leak_mono hk
  calc a = (leak k)^[n] a := hfixed.symm
    _ ≤ (leak k)^[n] e := hmono.iterate n h

theorem iterate_of_nonpos (hk : 0 < k) (he : e ≤ 0) (n : Nat) :
    min 0 (e + n) ≤ (leak k)^[n] e ∧ (leak k)^[n] e ≤ 0 := by
  induction n with
  | zero => simp [he]
  | succ n ih =>
    rw [Function.iterate_succ_apply']
    rcases Int.lt_or_eq_of_le ih.2 with hneg | hzero
    · have hstep := leak_of_neg hk hneg
      omega
    · rw [hzero, leak_of_small (Int.le_refl 0) hk]
      omega

/-- From above the target the estimate reaches it exactly. -/
theorem settles_of_nonpos (hk : 0 < k) (he : e ≤ 0) :
    ∃ n, ∀ m, n ≤ m → (leak k)^[m] e = 0 := by
  refine ⟨e.natAbs, ?_⟩
  intro m hm
  have hbounds := iterate_of_nonpos hk he m
  omega

end LeakyFilter
