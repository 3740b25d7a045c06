import Mathlib.Data.List.Basic

/-! A flag that many raise and one takes by an exchange: what is raised between two takes is
served together. -/
namespace Latch

/-- `waiting` are the raises that no take has met yet, `served` those of each take that found
the flag set. -/
structure State (α : Type*) where
  flag : Bool := false
  waiting : List α := []
  served : List (List α) := []

variable {α : Type*}

namespace State

def raise (s : State α) (a : α) : State α :=
  { s with flag := true, waiting := s.waiting ++ [a] }

/-- `flag.exchange(false)`, with what it gives. -/
def exchange (s : State α) : State α × Bool :=
  if s.flag then ({ served := s.served ++ [s.waiting] }, true) else (s, false)

/-- Every raise is served once, in order, by the first take behind it, and no take for nothing. -/
structure Sound (raised : List α) (s : State α) : Prop where
  all : s.served.flatten ++ s.waiting = raised
  flag : s.flag = true ↔ s.waiting ≠ []
  caused : ∀ round ∈ s.served, round ≠ []

variable {s : State α} {raised : List α}

theorem sound_boot : Sound ([] : List α) {} where
  all := rfl
  flag := by simp
  caused := by simp

theorem Sound.raise (hs : s.Sound raised) (a : α) : (s.raise a).Sound (raised ++ [a]) where
  all := by rw [← hs.all, State.raise, List.append_assoc]
  flag := by simp [State.raise]
  caused := hs.caused

theorem exchange_set (h : s.flag = true) :
    s.exchange = ({ served := s.served ++ [s.waiting] }, true) := if_pos h

theorem exchange_clear (h : s.flag = false) : s.exchange = (s, false) := if_neg (by simp [h])

theorem Sound.exchange (hs : s.Sound raised) : s.exchange.1.Sound raised := by
  cases hflag : s.flag with
  | false =>
    rw [exchange_clear hflag]
    exact hs
  | true =>
    rw [exchange_set hflag]
    refine ⟨?_, by simp, ?_⟩
    · rw [← hs.all]
      simp
    · intro round hround
      rcases List.mem_append.mp hround with hearlier | hnow
      · exact hs.caused round hearlier
      · rw [List.mem_singleton.mp hnow]
        exact hs.flag.mp hflag

end State

end Latch
