import Mathlib.Data.List.Basic

/-! The FNV-1a hash of 32 bits. Whatever comes before and after, it tells apart texts that
differ in one byte or in two adjacent ones. -/

namespace Fnv1a

def prime : UInt32 := 16777619

def offsetBasis : UInt32 := 2166136261

def mix (hash : UInt32) (byte : UInt8) : UInt32 := (hash ^^^ byte.toUInt32) * prime

def hash (data : List UInt8) : UInt32 := data.foldl mix offsetBasis

theorem hash_append (pre suf : List UInt8) : hash (pre ++ suf) = suf.foldl mix (hash pre) :=
  List.foldl_append

variable {h g : UInt32} {a a' b b' : UInt8}

/-- The prime is odd, so multiplying by it loses nothing. -/
theorem mul_prime_inj {v w : UInt32} : v * prime = w * prime ↔ v = w := by
  constructor
  · intro heq
    have hinverse : prime * 899433627 = 1 := by decide
    calc v = v * (prime * 899433627) := by rw [hinverse, UInt32.mul_one]
      _ = v * prime * 899433627 := (UInt32.mul_assoc _ _ _).symm
      _ = w * prime * 899433627 := by rw [heq]
      _ = w * (prime * 899433627) := UInt32.mul_assoc _ _ _
      _ = w := by rw [hinverse, UInt32.mul_one]
  · intro heq
    rw [heq]

theorem mix_left_inj : mix h a = mix g a ↔ h = g := by
  rw [mix, mix, mul_prime_inj, UInt32.xor_left_inj]

theorem mix_right_inj : mix h a = mix h b ↔ a = b := by
  rw [mix, mix, mul_prime_inj, UInt32.xor_right_inj, UInt8.toUInt32_inj]

/-- What follows keeps different hashes different. -/
theorem foldl_inj (suf : List UInt8) : suf.foldl mix h = suf.foldl mix g ↔ h = g := by
  induction suf generalizing h g with
  | nil => exact Iff.rfl
  | cons c suf ih => rw [List.foldl_cons, List.foldl_cons, ih, mix_left_inj]

/-- A byte leaves the upper 24 bits of what it is mixed into alone. -/
theorem xor_upper (v : UInt32) (c : UInt8) : (v ^^^ c.toUInt32).toNat / 256 = v.toNat / 256 := by
  have hzero : c.toNat >>> 8 = 0 := by
    have hlt := c.toNat_lt
    rw [Nat.shiftRight_eq_div_pow]
    omega
  have hshift : ∀ m : Nat, m / 256 = m >>> 8 := fun m => (Nat.shiftRight_eq_div_pow m 8).symm
  rw [hshift, hshift, UInt32.toNat_xor, Nat.shiftRight_xor_distrib, UInt8.toNat_toUInt32, hzero,
    Nat.xor_zero]

/-- The prime is 2^24 + 403, so a change of the low byte alone never turns, by the
multiplication, into a change of the low byte alone. -/
theorem low_byte_eq {q r r' k l e f : Nat} (hr : r < 256) (hr' : r' < 256)
    (hx : 4294967296 * k + e = (256 * q + r) * 16777619)
    (hy : 4294967296 * l + f = (256 * q + r') * 16777619) (h : e / 256 = f / 256) : r = r' := by
  have hclose : e < f + 256 ∧ f < e + 256 := by omega
  have hkl : k = l := by omega
  omega

theorem eq_of_upper_mul {v w : UInt32} (hupper : v.toNat / 256 = w.toNat / 256)
    (hmul : (v * prime).toNat / 256 = (w * prime).toNat / 256) : v = w := by
  have hquot : ∀ u : UInt32, 4294967296 * (u.toNat * 16777619 / 4294967296) + (u * prime).toNat =
      (256 * (u.toNat / 256) + u.toNat % 256) * 16777619 := by
    intro u
    rw [Nat.div_add_mod, UInt32.toNat_mul]
    exact Nat.div_add_mod _ _
  have hv := hquot v
  have hw := hquot w
  rw [← hupper] at hw
  have hlow := low_byte_eq (Nat.mod_lt _ (by decide)) (Nat.mod_lt _ (by decide)) hv hw hmul
  apply UInt32.toNat_inj.mp
  omega

/-- Two bytes in a row determine what they make of a hash. -/
theorem mix_mix_inj : mix (mix h a) b = mix (mix h a') b' ↔ a = a' ∧ b = b' := by
  constructor
  · intro heq
    have hxor := mul_prime_inj.mp heq
    have hfirst : h ^^^ a.toUInt32 = h ^^^ a'.toUInt32 := by
      apply eq_of_upper_mul
      · rw [xor_upper, xor_upper]
      · have hupper := congrArg (fun u : UInt32 => u.toNat / 256) hxor
        rw [xor_upper, xor_upper] at hupper
        exact hupper
    have ha : a = a' := UInt8.toUInt32_inj.mp ((UInt32.xor_right_inj h).mp hfirst)
    rw [ha] at heq
    exact ⟨ha, mix_right_inj.mp heq⟩
  · rintro ⟨rfl, rfl⟩
    rfl

theorem hash_byte_inj (pre suf : List UInt8) :
    hash (pre ++ [a] ++ suf) = hash (pre ++ [b] ++ suf) ↔ a = b := by
  rw [List.append_assoc, List.append_assoc, hash_append, hash_append, List.foldl_append,
    List.foldl_append, foldl_inj]
  exact mix_right_inj

theorem hash_pair_inj (pre suf : List UInt8) :
    hash (pre ++ [a, b] ++ suf) = hash (pre ++ [a', b'] ++ suf) ↔ a = a' ∧ b = b' := by
  rw [List.append_assoc, List.append_assoc, hash_append, hash_append, List.foldl_append,
    List.foldl_append, foldl_inj]
  exact mix_mix_inj

end Fnv1a
