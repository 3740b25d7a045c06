import Mathlib.Data.List.Basic

/-! A buffer that is filled from the front, one element after the other. -/

namespace Buffer

variable {α : Type*} {n : Nat}

theorem toList_set_eq (v : Vector α n) {i : Nat} (h : i < n) (a : α) :
    (v.set i a).toList = v.toList.take i ++ a :: v.toList.drop (i + 1) := by
  rw [Vector.toList_set, List.set_eq_take_append_cons_drop, if_pos (by simpa using h)]

theorem take_set (v : Vector α n) {i : Nat} (h : i < n) (a : α) :
    (v.set i a).toList.take (i + 1) = v.toList.take i ++ [a] := by
  have hlen : (v.toList.take i).length = i := by simp; omega
  rw [toList_set_eq v h, List.take_append, hlen, List.take_take]
  simp

theorem drop_set (v : Vector α n) {i : Nat} (h : i < n) (a : α) :
    (v.set i a).toList.drop (i + 1) = v.toList.drop (i + 1) := by
  rw [Vector.toList_set, List.drop_set_of_lt (Nat.lt_succ_self i)]

/-- `out[i++] = a`, none when it leaves the buffer. -/
def put (s : Vector α n × Nat) (a : α) : Option (Vector α n × Nat) :=
  if h : s.2 < n then some (s.1.set s.2 a h, s.2 + 1) else none

/-- What is written stands in order behind what was there, and the rest is left alone. -/
theorem puts_eq (v : Vector α n) {i : Nat} {as : List α} (h : i + as.length ≤ n) :
    ∃ w, as.foldlM put (v, i) = some (w, i + as.length) ∧
      w.toList = v.toList.take i ++ as ++ v.toList.drop (i + as.length) := by
  induction as generalizing v i with
  | nil => exact ⟨v, rfl, by simp⟩
  | cons a as ih =>
    rw [List.length_cons] at h ⊢
    have hi : i < n := by omega
    obtain ⟨w, hrun, hw⟩ := @ih (v.set i a) (i + 1) (by omega)
    have hlen : i + 1 + as.length = i + (as.length + 1) := by omega
    rw [hlen] at hrun hw
    refine ⟨w, ?_, ?_⟩
    · rw [List.foldlM_cons, put, dif_pos hi]
      exact hrun
    · have hrest : (v.set i a).toList.drop (i + (as.length + 1)) =
          v.toList.drop (i + (as.length + 1)) := by
        rw [← hlen, ← List.drop_drop, drop_set v hi, List.drop_drop]
      rw [hw, take_set v hi, hrest, List.append_assoc, List.append_assoc, List.append_assoc]
      rfl

end Buffer
