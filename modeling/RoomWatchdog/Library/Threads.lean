import Mathlib.Data.List.Basic

/-! Threads given by where each of them stands, one moving at a time. -/
namespace Threads

variable {τ : Type*} [DecidableEq τ]

/-- Take thread `i` from `t` to `u`, if it stands at `t`. -/
def move (threads : List τ) (i : Nat) (t u : τ) : Option (List τ) :=
  if threads[i]? = some t then some (threads.set i u) else none

variable {threads threads' : List τ} {i : Nat} {t u : τ}

theorem move_eq_some : move threads i t u = some threads' ↔
    threads[i]? = some t ∧ threads.set i u = threads' := by
  unfold move
  split_ifs with h <;> simp [h]

theorem move_eq (h : threads[i]? = some t) : move threads i t u = some (threads.set i u) :=
  if_pos h

/-- A move changes a count only by the two places. -/
theorem countP_move (p : τ → Bool) (h : move threads i t u = some threads') :
    threads'.countP p + (if p t then 1 else 0) = threads.countP p + if p u then 1 else 0 := by
  obtain ⟨hat, rfl⟩ := move_eq_some.mp h
  obtain ⟨hi, hget⟩ := List.getElem?_eq_some_iff.mp hat
  rw [List.countP_set hi, hget]
  have hle : (if p t then 1 else 0) ≤ threads.countP p := by
    split_ifs with hp
    · apply List.countP_pos_iff.mpr
      exact ⟨t, List.mem_of_getElem? hat, hp⟩
    · exact Nat.zero_le _
  omega

theorem getElem?_move (h : move threads i t u = some threads') : threads'[i]? = some u := by
  obtain ⟨hat, rfl⟩ := move_eq_some.mp h
  exact List.getElem?_set_self (List.getElem?_eq_some_iff.mp hat).1

/-- The other threads stay where they are. -/
theorem getElem?_move_of_ne (h : move threads i t u = some threads') {j : Nat} (hj : i ≠ j) :
    threads'[j]? = threads[j]? := by
  obtain ⟨-, rfl⟩ := move_eq_some.mp h
  exact List.getElem?_set_ne hj

/-- A place that is not left keeps whoever stands there. -/
theorem mem_move (h : move threads i t u = some threads') {v : τ} (hv : v ∈ threads)
    (hne : v ≠ t) : v ∈ threads' := by
  obtain ⟨j, hj⟩ := List.mem_iff_getElem?.mp hv
  obtain ⟨hat, -⟩ := move_eq_some.mp h
  have hother : i ≠ j := by
    intro hsame
    rw [hsame, hj] at hat
    exact hne (Option.some.inj hat)
  rw [← getElem?_move_of_ne h hother] at hj
  exact List.mem_of_getElem? hj

theorem mem_of_move (h : move threads i t u = some threads') : u ∈ threads' :=
  List.mem_of_getElem? (getElem?_move h)

omit [DecidableEq τ] in
/-- Where at most one thread may be, two of them are at the same place. -/
theorem eq_of_countP_le_one {p : τ → Bool} (h : threads.countP p ≤ 1) (ht : t ∈ threads)
    (hu : u ∈ threads) (hpt : p t = true) (hpu : p u = true) : t = u := by
  rw [List.countP_eq_length_filter] at h
  have hmem : t ∈ threads.filter p := List.mem_filter.mpr ⟨ht, hpt⟩
  have hmem' : u ∈ threads.filter p := List.mem_filter.mpr ⟨hu, hpu⟩
  obtain ⟨v, hv⟩ := List.length_eq_one_iff.mp (Nat.le_antisymm h (List.length_pos_of_mem hmem))
  rw [hv, List.mem_singleton] at hmem hmem'
  rw [hmem, hmem']

end Threads
