import RoomWatchdog.Config
import RoomWatchdog.Library.WrapClock

namespace RoomWatchdog.Net
open WrapClock (read)

/-- The two atomics behind pushBackingOff(). -/
structure PushHealth where
  lastFailureMs : UInt32 := 0
  hadFailure : Bool := false
  deriving DecidableEq

/-- What one call of pushGotify meets, and the true time when it is over. -/
structure Attempt where
  connected : Bool
  began : Bool
  code : Int
  time : Nat

/-- What each failing branch records. -/
def PushHealth.failed (time : Nat) : PushHealth := ⟨read time, true⟩

def pushGotify (s : PushHealth) (a : Attempt) : PushHealth × Bool :=
  if a.connected = false then (.failed a.time, false)
  else if a.began = false then (.failed a.time, false)
  else
    let ok := decide (a.code ≥ 200 ∧ a.code < 300)
    (if ok then { s with hadFailure := false } else .failed a.time, ok)

/-- `backoffMs` is GOTIFY_RETRY_BACKOFF_MS. -/
def pushBackingOff (backoffMs : UInt32) (s : PushHealth) (nowMs : UInt32) : Bool :=
  s.hadFailure && nowMs - s.lastFailureMs < backoffMs

/-- The outcome of an attempt does not depend on those before it. -/
def Attempt.ok (a : Attempt) : Bool := a.connected && a.began && (200 ≤ a.code && a.code < 300)

/-- Where a list of attempts leaves the two atomics. -/
def pushHealth (attempts : List Attempt) : PushHealth :=
  attempts.foldl (fun s a => (pushGotify s a).1) {}

theorem pushGotify_eq (s : PushHealth) (a : Attempt) :
    pushGotify s a =
      (if a.ok then { s with hadFailure := false } else .failed a.time, a.ok) := by
  unfold pushGotify Attempt.ok
  cases a.connected <;> cases a.began <;> simp

theorem pushBackingOff_iff {backoffMs : UInt32} {s : PushHealth} {nowMs : UInt32} :
    pushBackingOff backoffMs s nowMs = true ↔
      s.hadFailure = true ∧ ¬ backoffMs ≤ nowMs - s.lastFailureMs := by
  rw [pushBackingOff, Bool.and_eq_true_iff, decide_eq_true_iff, UInt32.not_le]

/-- Only the last attempt counts. -/
theorem pushHealth_append (attempts : List Attempt) (a : Attempt) :
    (pushHealth (attempts ++ [a])).hadFailure = !a.ok ∧
    (a.ok = false → (pushHealth (attempts ++ [a])).lastFailureMs = read a.time) := by
  have hrun : pushHealth (attempts ++ [a]) = (pushGotify (pushHealth attempts) a).1 :=
    List.foldl_append
  rw [hrun, pushGotify_eq]
  cases a.ok <;> simp [PushHealth.failed]

end RoomWatchdog.Net
