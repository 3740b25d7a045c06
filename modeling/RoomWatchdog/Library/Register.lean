import Mathlib.Data.List.Basic

/-! A cell that one task writes whole and others copy whole, with the history that tells the
copies apart. -/
namespace Register

/-- `written` are the values after the first one; an observation carries how many of them were
there before it. -/
structure State (α : Type*) where
  value : α
  written : List α := []
  observed : List (Nat × α) := []

variable {α : Type*}

namespace State

def write (s : State α) (value : α) : State α where
  value
  written := s.written ++ [value]
  observed := s.observed

def observe (s : State α) : State α :=
  { s with observed := s.observed ++ [(s.written.length, s.value)] }

/-- Each copy is one of the values written, and no later copy is of an earlier value. -/
structure Faithful (initial : α) (s : State α) : Prop where
  value : (initial :: s.written)[s.written.length]? = some s.value
  each : ∀ o ∈ s.observed, (initial :: s.written)[o.1]? = some o.2
  ordered : s.observed.Pairwise fun o o' => o.1 ≤ o'.1

variable {s : State α} {initial : α}

theorem faithful_boot (initial : α) : Faithful initial { value := initial } where
  value := rfl
  each := by simp
  ordered := List.Pairwise.nil

theorem Faithful.write (hs : s.Faithful initial) (value : α) :
    (s.write value).Faithful initial where
  value := by simp [State.write]
  each := by
    intro o ho
    have hold := hs.each o ho
    obtain ⟨hlt, -⟩ := List.getElem?_eq_some_iff.mp hold
    show (initial :: (s.written ++ [value]))[o.1]? = some o.2
    rw [← List.cons_append, List.getElem?_append_left hlt, hold]
  ordered := hs.ordered

theorem Faithful.observe (hs : s.Faithful initial) : s.observe.Faithful initial where
  value := hs.value
  each := by
    intro o ho
    rcases List.mem_append.mp ho with hold | hnew
    · exact hs.each o hold
    · obtain rfl := List.mem_singleton.mp hnew
      exact hs.value
  ordered := by
    apply List.pairwise_append.mpr
    refine ⟨hs.ordered, List.pairwise_singleton _ _, ?_⟩
    intro o ho o' ho'
    obtain rfl := List.mem_singleton.mp ho'
    obtain ⟨hlt, -⟩ := List.getElem?_eq_some_iff.mp (hs.each o ho)
    exact Nat.le_of_lt_succ hlt

end State

end Register
