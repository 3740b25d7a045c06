import Mathlib.Algebra.GroupWithZero.Nat
import Mathlib.Data.List.Basic

/-! The part of a circular array that is in use, read as a list, and what single writes and
copies in two pieces do to it. -/
namespace RingWindow

variable {α : Type*} {n : Nat} [NeZero n]

/-- The cell that index `i` names, counting around the array. -/
def cell (v : Vector α n) (i : Nat) : α := v.get (Fin.ofNat n i)

/-- `count` cells from `head` on. -/
def window (v : Vector α n) (head count : Nat) : List α :=
  (List.range count).map fun i => cell v (head + i)

variable {v w : Vector α n} {head count : Nat}

theorem cell_mod (v : Vector α n) (i : Nat) : cell v (i % n) = cell v i := by
  simp [cell, Fin.ofNat]

theorem cell_eq_getElem (v : Vector α n) {i : Nat} (h : i < n) : cell v i = v[i] := by
  simp [cell, Fin.ofNat, Vector.get, Nat.mod_eq_of_lt h]

theorem cell_set (v : Vector α n) {i : Nat} (h : i < n) (a : α) (j : Nat) :
    cell (v.set i a h) j = if j % n = i then a else cell v j := by
  have hj : j % n < n := Nat.mod_lt _ (Nat.pos_of_neZero n)
  rw [← cell_mod, ← cell_mod v j, cell_eq_getElem _ hj, cell_eq_getElem _ hj, Vector.getElem_set]
  simp only [eq_comm]

@[simp] theorem window_zero (v : Vector α n) (head : Nat) : window v head 0 = [] := rfl

@[simp] theorem window_length (v : Vector α n) (head count : Nat) :
    (window v head count).length = count := by simp [window]

theorem window_congr (h : ∀ i < count, cell w (head + i) = cell v (head + i)) :
    window w head count = window v head count :=
  List.map_congr_left fun i hi => h i (List.mem_range.mp hi)

theorem window_mod (v : Vector α n) (head count : Nat) :
    window v (head % n) count = window v head count := by
  apply List.map_congr_left
  intro i _
  rw [← cell_mod v (head + i), ← cell_mod, Nat.mod_add_mod]

theorem window_append (v : Vector α n) (head a b : Nat) :
    window v head (a + b) = window v head a ++ window v (head + a) b := by
  simp [window, List.range_add, Nat.add_assoc, Function.comp_def]

/-- The first cell, and the window that is left when it is taken. -/
theorem window_pop (v : Vector α n) (head count : Nat) :
    window v head (count + 1) = cell v head :: window v ((head + 1) % n) count := by
  rw [window_mod, Nat.add_comm count 1, window_append]
  rfl

omit [NeZero n] in
/-- Two indexes less than one turn apart name different cells. -/
theorem index_ne {i j : Nat} (hij : i < j) (hj : j < n) : (head + i) % n ≠ (head + j) % n := by
  intro heq
  have hdvd : n ∣ (head + j) - (head + i) :=
    Nat.dvd_of_mod_eq_zero (Nat.sub_mod_eq_zero_of_mod_eq heq.symm)
  have hzero := Nat.eq_zero_of_dvd_of_lt hdvd (by omega)
  omega

/-- Writing the cell after the window extends it. -/
theorem window_push (v : Vector α n) (head : Nat) (hcount : count < n) (a : α) {i : Nat}
    (hi : i < n) (heq : i = (head + count) % n) :
    window (v.set i a hi) head (count + 1) = window v head count ++ [a] := by
  rw [window_append]
  congr 1
  · apply window_congr
    intro j hj
    rw [cell_set, if_neg (heq ▸ index_ne hj hcount)]
  · simp [window, cell_set, heq]

/-! Copies of whole pieces. -/

/-- memcpy into the array, none when it would leave it. -/
def blit (v : Vector α n) (start : Nat) (xs : List α) : Option (Vector α n) :=
  if start + xs.length ≤ n then
    some (Vector.ofFn fun i => if start ≤ i then (xs[i.val - start]?).getD v[i] else v[i])
  else none

/-- memcpy out of the array, none when it would leave it. -/
def slice (v : Vector α n) (start len : Nat) : Option (List α) :=
  if start + len ≤ n then some ((v.toList.drop start).take len) else none

theorem blit_cell {start : Nat} {xs : List α} (h : blit v start xs = some w) {i : Nat} (hi : i < n) :
    cell w i = if start ≤ i then (xs[i - start]?).getD (cell v i) else cell v i := by
  unfold blit at h
  split at h
  · obtain rfl := Option.some.inj h
    simp [cell_eq_getElem _ hi]
  · cases h

omit [NeZero n] in
/-- An index goes around the array at most once. -/
theorem index_cases {i : Nat} (hhead : head < n) (hi : i ≤ n) :
    head + i < n ∧ (head + i) % n = head + i ∨ n ≤ head + i ∧ (head + i) % n = head + i - n := by
  by_cases hlt : head + i < n
  · exact Or.inl ⟨hlt, Nat.mod_eq_of_lt hlt⟩
  · have hle := Nat.le_of_not_lt hlt
    refine Or.inr ⟨hle, ?_⟩
    rw [Nat.mod_eq_sub_mod hle, Nat.mod_eq_of_lt (by omega)]

section wrapped
variable {start first : Nat} {xs : List α} {v₁ v₂ : Vector α n} (hhead : head < n)
  (hfree : count + xs.length ≤ n) (hstart : start = (head + count) % n)
  (hfirst : first = min xs.length (n - start))
include hhead hfree hstart hfirst

omit hhead in
/-- Both pieces of a copy that starts after the window stay inside the array. -/
theorem blit_wrapped_isSome (v : Vector α n) :
    ∃ v₁ v₂, blit v start (xs.take first) = some v₁ ∧ blit v₁ 0 (xs.drop first) = some v₂ := by
  have hlt : start < n := hstart ▸ Nat.mod_lt _ (Nat.pos_of_neZero n)
  refine ⟨_, _, if_pos ?_, if_pos ?_⟩
  · rw [List.length_take]
    omega
  · rw [List.length_drop]
    omega

variable (h₁ : blit v start (xs.take first) = some v₁) (h₂ : blit v₁ 0 (xs.drop first) = some v₂)
include h₁ h₂

omit hhead in
theorem blit_wrapped_new {j : Nat} (hj : j < xs.length) : cell v₂ (start + j) = xs[j] := by
  have hlt : start < n := hstart ▸ Nat.mod_lt _ (Nat.pos_of_neZero n)
  have hp : (start + j) % n < n := Nat.mod_lt _ (Nat.pos_of_neZero n)
  rw [← cell_mod, blit_cell h₂ hp, blit_cell h₁ hp, if_pos (Nat.zero_le _), Nat.sub_zero,
    List.getElem?_drop, List.getElem?_take]
  rcases index_cases hlt (show j ≤ n by omega) with ⟨hin, hmod⟩ | ⟨hout, hmod⟩
  · -- still in the first piece
    rw [hmod, List.getElem?_eq_none (by omega), if_pos (by omega), if_pos (by omega),
      Nat.add_sub_cancel_left, List.getElem?_eq_getElem hj]
    rfl
  · have hindex : first + (start + j) % n = j := by omega
    rw [hindex, List.getElem?_eq_getElem hj]
    rfl

theorem blit_wrapped_old {i : Nat} (hi : i < count) : cell v₂ (head + i) = cell v (head + i) := by
  have hlt : start < n := hstart ▸ Nat.mod_lt _ (Nat.pos_of_neZero n)
  have hp : (head + i) % n < n := Nat.mod_lt _ (Nat.pos_of_neZero n)
  have hboth := index_cases hhead (show count ≤ n by omega)
  have hone := index_cases hhead (show i ≤ n by omega)
  rw [← cell_mod, blit_cell h₂ hp, blit_cell h₁ hp, if_pos (Nat.zero_le _), Nat.sub_zero,
    List.getElem?_drop, List.getElem?_take, List.getElem?_eq_none (by omega), Option.getD_none,
    cell_mod]
  split_ifs
  · omega
  · rfl
  · rfl

/-- A copy in two pieces after the window extends it and overwrites none of it. -/
theorem window_blit_wrapped :
    window v₂ head (count + xs.length) = window v head count ++ xs := by
  rw [window_append]
  congr 1
  · exact window_congr fun i hi => blit_wrapped_old hhead hfree hstart hfirst h₁ h₂ hi
  · rw [← window_mod, ← hstart]
    apply List.ext_getElem
    · simp
    · intro j hj _
      rw [window_length] at hj
      simpa [window] using blit_wrapped_new hfree hstart hfirst h₁ h₂ hj

end wrapped

theorem slice_eq_window (v : Vector α n) {start len : Nat} (h : start + len ≤ n) :
    slice v start len = some (window v start len) := by
  rw [slice, if_pos h]
  congr 1
  apply List.ext_getElem
  · simp
    omega
  · intro j hj hj'
    rw [window_length] at hj'
    simp [window, cell_eq_getElem v (show start + j < n by omega)]

/-- A copy out in two pieces reads the window. -/
theorem slice_wrapped (v : Vector α n) {start first len : Nat} (hstart : start < n) (hlen : len ≤ n)
    (hfirst : first = min len (n - start)) :
    ∃ xs ys, slice v start first = some xs ∧ slice v 0 (len - first) = some ys ∧
      xs ++ ys = window v start len := by
  refine ⟨_, _, slice_eq_window v (by omega), slice_eq_window v (by omega), ?_⟩
  have hsplit : window v start len = window v start first ++ window v (start + first) (len - first) := by
    rw [← window_append, Nat.add_sub_cancel' (by omega)]
  rw [hsplit]
  congr 1
  by_cases hmore : len ≤ first
  · rw [Nat.sub_eq_zero_of_le hmore, window_zero, window_zero]
  · -- the first piece ends at the end of the array
    have hend : start + first = n := by omega
    rw [← window_mod v (start + first), hend, Nat.mod_self]

end RingWindow
