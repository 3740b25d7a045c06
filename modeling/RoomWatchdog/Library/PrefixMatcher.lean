import Mathlib.Data.List.Infix

/-! Hunting for a pattern whose first symbol occurs nowhere else in it: after a mismatch
only that first symbol can start a new attempt. -/
namespace PrefixMatcher

variable {α : Type*} [DecidableEq α]

/-- The number of pattern symbols matched after one more symbol. -/
def step (pat : List α) (pos : Nat) (a : α) : Nat :=
  if pat[pos]? = some a then pos + 1 else if pat.head? = some a then 1 else 0

theorem step_match {pat : List α} {pos : Nat} {a : α} (h : pat[pos]? = some a) :
    step pat pos a = pos + 1 := if_pos h

theorem step_le (pat : List α) (pos : Nat) (a : α) (h : pos < pat.length) :
    step pat pos a ≤ pat.length := by
  unfold step
  split_ifs <;> omega

/-- What has been matched stays a suffix of what was read. -/
theorem take_step_suffix (pat read : List α) (pos : Nat) (a : α)
    (h : pat.take pos <:+ read) : pat.take (step pat pos a) <:+ read ++ [a] := by
  unfold step
  split_ifs with hm hf
  · obtain ⟨t, rfl⟩ := h
    refine ⟨t, ?_⟩
    rw [List.take_add_one, hm]
    simp
  · cases pat with
    | nil => simp at hf
    | cons b bs =>
      have hb : b = a := by simpa using hf
      subst hb
      exact ⟨read, by simp⟩
  · simp

/-- The first symbol starts an attempt wherever the matcher stands. -/
theorem step_first {b : α} {bs : List α} (hb : b ∉ bs) (pos : Nat) :
    step (b :: bs) pos b = 1 := by
  unfold step
  split_ifs with hm hf
  · cases pos with
    | zero => rfl
    | succ pos =>
      have hmem : b ∈ bs := List.mem_of_getElem? (by simpa using hm)
      exact absurd hmem hb
  · rfl
  · simp at hf

/-- An occurrence of a pattern has a first one: nothing before it contains the pattern. -/
theorem exists_first_infix {pat l : List α} (he : pat ≠ []) (h : pat <:+: l) :
    ∃ g rest, l = g ++ pat ++ rest ∧ ¬ pat <:+: g := by
  induction l with
  | nil => exact absurd (List.infix_nil.mp h) he
  | cons a l ih =>
    by_cases hp : pat <+: a :: l
    · obtain ⟨rest, hrest⟩ := hp
      exact ⟨[], rest, by simp [hrest], fun hn => he (List.infix_nil.mp hn)⟩
    · have ht : pat <:+: l := (List.infix_cons_iff.mp h).resolve_left hp
      obtain ⟨g, rest, hl, hn⟩ := ih ht
      refine ⟨a :: g, rest, by simp [hl], ?_⟩
      intro hi
      rcases List.infix_cons_iff.mp hi with hi | hi
      · -- a pattern that starts `a :: g` would start the whole list
        apply hp
        exact hi.trans ⟨pat ++ rest, by simp [hl]⟩
      · exact hn hi

end PrefixMatcher
