import Mathlib.Algebra.GroupWithZero.Nat
import Mathlib.Data.List.Basic

/-! Integers in decimal, written and read as bytes. -/

namespace Decimal

def isDigit (c : UInt8) : Bool := 0x30 ≤ c && c ≤ 0x39

def natural (n : Nat) : List UInt8 := (Nat.toDigits 10 n).map Char.toUInt8

def write : Int → List UInt8
  | .ofNat n => natural n
  | .negSucc n => 0x2D :: natural (n + 1)

/-- What digits stand for, the most significant one first. -/
def value (digits : List UInt8) : Nat := digits.foldl (fun n c => 10 * n + (c.toNat - 0x30)) 0

/-- Reads digits as far as they go, and no zero before others. -/
def readNatural (text : List UInt8) : Option (Nat × List UInt8) :=
  let digits := text.takeWhile isDigit
  if digits = [] ∨ digits.head? = some 0x30 ∧ digits.length ≠ 1 then none
  else some (value digits, text.dropWhile isDigit)

def read : List UInt8 → Option (Int × List UInt8)
  | [] => none
  | c :: text =>
    if c = 0x2D then (readNatural text).map fun (n, rest) => (-n, rest)
    else (readNatural (c :: text)).map fun (n, rest) => (n, rest)

variable {n : Nat} {c : UInt8}

theorem toUInt8_toNat {d : Char} (h : d.isDigit = true) : d.toUInt8.toNat = d.toNat := by
  have hrange := Char.isDigit_iff_toNat.mp h
  have hhigh : d.toNat ≤ 57 := hrange.2
  have hmod : d.toUInt8.toNat = d.toNat % 256 := UInt32.toNat_toUInt8 d.val
  omega

theorem isDigit_toUInt8 {d : Char} (h : d.isDigit = true) : isDigit d.toUInt8 = true := by
  have hrange := Char.isDigit_iff_toNat.mp h
  rw [isDigit, Bool.and_eq_true_iff, decide_eq_true_iff, decide_eq_true_iff,
    UInt8.le_iff_toNat_le, UInt8.le_iff_toNat_le, toUInt8_toNat h]
  exact hrange

theorem isDigit_of_mem (hc : c ∈ natural n) : isDigit c = true := by
  obtain ⟨d, hd, rfl⟩ := List.mem_map.mp hc
  exact isDigit_toUInt8 (Nat.isDigit_of_mem_toDigits (by decide) (by decide) hd)

theorem natural_ne_nil (n : Nat) : natural n ≠ [] := by
  intro h
  exact Nat.toDigits_ne_nil (List.map_eq_nil_iff.mp h)

theorem natural_length_le {k : Nat} (hk : 0 < k) (h : n < 10 ^ k) : (natural n).length ≤ k := by
  rw [natural, List.length_map]
  exact (Nat.length_toDigits_le_iff (by decide) hk).mpr h

/-- A sign takes one more byte. -/
theorem write_length_le {z : Int} {k : Nat} (hk : 0 < k) (h : z.natAbs < 10 ^ k) :
    (write z).length ≤ k + 1 := by
  cases z with
  | ofNat n => exact Nat.le_succ_of_le (natural_length_le hk h)
  | negSucc n =>
    rw [write, List.length_cons]
    exact Nat.succ_le_succ (natural_length_le hk h)

theorem value_natural (n : Nat) : value (natural n) = n := by
  have hfold : ∀ (ds : List Char) (m : Nat), (∀ d ∈ ds, d.isDigit = true) →
      (ds.map Char.toUInt8).foldl (fun n c => 10 * n + (c.toNat - 0x30)) m =
        Nat.ofDigitChars 10 ds m := by
    intro ds
    induction ds with
    | nil =>
      intro m _
      rfl
    | cons d ds ih =>
      intro m hall
      rw [List.map_cons, List.foldl_cons, Nat.ofDigitChars_cons,
        toUInt8_toNat (hall d List.mem_cons_self)]
      exact ih _ fun e he => hall e (List.mem_cons_of_mem d he)
  rw [value, natural, hfold _ _ fun d => Nat.isDigit_of_mem_toDigits (by decide) (by decide)]
  exact Nat.ofDigitChars_ten_toDigits

/-- No number but zero is written with a zero in front. -/
theorem head_toDigits (h : 0 < n) : (Nat.toDigits 10 n).head? ≠ some '0' := by
  induction n using Nat.strongRecOn with
  | ind n ih =>
    rcases Nat.lt_or_ge n 10 with hlt | hge
    · have hsmall : ∀ m < 10, 0 < m → [m.digitChar].head? ≠ some '0' := by decide
      rw [Nat.toDigits_of_lt_base hlt]
      exact hsmall n hlt h
    · rw [Nat.toDigits_of_base_le (by decide) hge, List.head?_append_of_ne_nil _ Nat.toDigits_ne_nil]
      exact ih (n / 10) (by omega) (by omega)

theorem head_natural (h : 0 < n) : (natural n).head? ≠ some 0x30 := by
  intro hhead
  rw [natural, List.head?_map, Option.map_eq_some_iff] at hhead
  obtain ⟨d, hd, hzero⟩ := hhead
  have hdigit : d.isDigit = true :=
    Nat.isDigit_of_mem_toDigits (by decide) (by decide) (List.mem_of_head? hd)
  apply head_toDigits h
  rw [hd, Option.some_inj]
  apply Char.toNat_inj.mp
  rw [← toUInt8_toNat hdigit, hzero]
  rfl

theorem readNatural_natural (n : Nat) (hc : isDigit c = false) (rest : List UInt8) :
    readNatural (natural n ++ c :: rest) = some (n, c :: rest) := by
  have htake : (natural n ++ c :: rest).takeWhile isDigit = natural n := by
    rw [List.takeWhile_append_of_pos fun d => isDigit_of_mem, List.takeWhile_cons_of_neg (by simp [hc]),
      List.append_nil]
  have hdrop : (natural n ++ c :: rest).dropWhile isDigit = c :: rest := by
    rw [List.dropWhile_append_of_pos fun d => isDigit_of_mem, List.dropWhile_cons_of_neg (by simp [hc])]
  have hwell : ¬ (natural n = [] ∨ (natural n).head? = some 0x30 ∧ (natural n).length ≠ 1) := by
    rintro (hnil | ⟨hhead, hlong⟩)
    · exact natural_ne_nil n hnil
    · rcases Nat.eq_zero_or_pos n with rfl | hpos
      · exact hlong rfl
      · exact head_natural hpos hhead
  simp only [readNatural, htake, hdrop, if_neg hwell, value_natural]

/-- A number begins with a digit or a minus sign. -/
theorem write_cons (n : Int) :
    ∃ d ds, write n = d :: ds ∧ (isDigit d = true ∨ d = 0x2D) := by
  cases n with
  | ofNat n =>
    obtain ⟨d, ds, hdigits⟩ := List.exists_cons_of_ne_nil (natural_ne_nil n)
    have hd : d ∈ natural n := by
      rw [hdigits]
      exact List.mem_cons_self
    exact ⟨d, ds, hdigits, Or.inl (isDigit_of_mem hd)⟩
  | negSucc n => exact ⟨0x2D, natural (n + 1), rfl, Or.inr rfl⟩

/-- A number is read back up to the byte that ends it. -/
theorem read_write (n : Int) (hc : isDigit c = false) (rest : List UInt8) :
    read (write n ++ c :: rest) = some (n, c :: rest) := by
  cases n with
  | ofNat n =>
    obtain ⟨d, ds, hdigits⟩ := List.exists_cons_of_ne_nil (natural_ne_nil n)
    have hd : d ≠ 0x2D := by
      rintro rfl
      have hmem : (0x2D : UInt8) ∈ natural n := by
        rw [hdigits]
        exact List.mem_cons_self
      exact absurd (isDigit_of_mem hmem) (by decide)
    have hread := readNatural_natural n hc rest
    rw [hdigits, List.cons_append] at hread
    rw [write, hdigits, List.cons_append, read, if_neg hd, hread]
    rfl
  | negSucc n =>
    rw [write, List.cons_append, read, if_pos rfl, readNatural_natural (n + 1) hc rest]
    rfl

end Decimal
