import Mathlib.Logic.Relation

/-! A binary semaphore as a doorbell. Producers put something behind a lock and ring
afterwards; the one consumer looks behind the lock, and goes to sleep on the bell if it has
found nothing ready. -/
namespace Doorbell

/-- `owed` counts the producers that have put something and not rung yet. -/
structure State where
  ready : Bool := false
  asleep : Bool := false
  bell : Bool := false
  owed : Nat := 0

/-- What one critical section, or one call on the semaphore, can do. -/
inductive Turn : State → State → Prop where
  | put (s : State) (ready : Bool) : Turn s { s with ready, owed := s.owed + 1 }
  | take (s : State) {ready : Bool} (h : ready = true → s.ready = true) : Turn s { s with ready }
  | ring (s : State) {owed : Nat} (h : s.owed = owed + 1) : Turn s { s with bell := true, owed }
  | sleep (s : State) (h : s.ready = false) : Turn s { s with asleep := true }
  | wake (s : State) : Turn s { s with asleep := false, bell := false }
  | timeOut (s : State) : Turn s { s with asleep := false }
  | silence (s : State) (h : s.asleep = false) : Turn s { s with bell := false }

/-- Whoever sleeps although something is ready is woken by the bell or by one still owed. -/
def Alert (s : State) : Prop := s.asleep = true → s.ready = true → s.bell = true ∨ 0 < s.owed

variable {s t : State}

theorem alert_of_awake (h : s.asleep = false) : Alert s := by
  intro hasleep
  exact absurd (h.symm.trans hasleep) Bool.false_ne_true

theorem Turn.alert (h : Turn s t) (hs : Alert s) : Alert t := by
  cases h with
  | put ready =>
    intro _ _
    exact Or.inr (Nat.succ_pos _)
  | take hless =>
    intro hasleep hready
    exact hs hasleep (hless hready)
  | ring howed =>
    intro _ _
    exact Or.inl rfl
  | sleep hidle =>
    intro _ hready
    exact absurd (hidle.symm.trans hready) Bool.false_ne_true
  | wake => exact alert_of_awake rfl
  | timeOut => exact alert_of_awake rfl
  | silence hawake => exact alert_of_awake hawake

/-- Once every producer has rung, a sleeper with something ready hears the bell. -/
theorem Alert.rung (hs : Alert s) (hasleep : s.asleep = true) (hready : s.ready = true)
    (howed : s.owed = 0) : s.bell = true := by
  rcases hs hasleep hready with hbell | hlater
  · exact hbell
  · rw [howed] at hlater
    exact absurd hlater (Nat.lt_irrefl 0)

theorem Turn.alerts (h : Relation.ReflTransGen Turn s t) (hs : Alert s) : Alert t := by
  induction h with
  | refl => exact hs
  | tail _ hlast ih => exact hlast.alert ih

end Doorbell
