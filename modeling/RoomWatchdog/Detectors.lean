import Mathlib.Data.Nat.Basic

namespace RoomWatchdog

/-- Raw radar pin readings turned into debounced events. -/
structure PresenceMonitor where
  debounceMs : UInt32
  candidate : Bool := false
  notified : Bool := false
  candidateSinceMs : UInt32 := 0
  deriving DecidableEq

namespace PresenceMonitor

inductive Event where
  | none
  | detected
  | cleared
  deriving DecidableEq

variable {m : PresenceMonitor} {present : Bool} {nowMs : UInt32}

/-- Feed one raw reading. -/
def onSample (m : PresenceMonitor) (present : Bool) (nowMs : UInt32) : PresenceMonitor × Event :=
  if present ≠ m.candidate then
    ({ m with candidate := present, candidateSinceMs := nowMs }, .none)
  else if m.candidate ≠ m.notified ∧ nowMs - m.candidateSinceMs ≥ m.debounceMs then
    (m, if m.candidate then .detected else .cleared)
  else
    (m, .none)

/-- Record a delivered notification for the pending state. -/
def notificationSent (m : PresenceMonitor) : PresenceMonitor := { m with notified := m.candidate }

def notifiedState (m : PresenceMonitor) : Bool := m.notified

theorem onSample_edge (h : present ≠ m.candidate) :
    m.onSample present nowMs = ({ m with candidate := present, candidateSinceMs := nowMs }, .none) :=
  if_pos h

theorem onSample_due (h : present = m.candidate) (hn : m.candidate ≠ m.notified)
    (ht : m.debounceMs ≤ nowMs - m.candidateSinceMs) :
    m.onSample present nowMs = (m, if present then .detected else .cleared) := by
  rw [onSample, if_neg (not_not.mpr h), if_pos ⟨hn, ht⟩, h]

theorem onSample_quiet (h : present = m.candidate)
    (hn : ¬ (m.candidate ≠ m.notified ∧ m.debounceMs ≤ nowMs - m.candidateSinceMs)) :
    m.onSample present nowMs = (m, .none) := by
  rw [onSample, if_neg (not_not.mpr h), if_neg hn]

end PresenceMonitor

/-- When a present target's distance change warrants an update. -/
structure DistanceTracker where
  deltaCm : UInt16
  minIntervalMs : UInt32
  baselineCm : UInt16 := 0
  hasBaseline : Bool := false
  lastEventMs : UInt32 := 0
  deriving DecidableEq

namespace DistanceTracker

/-- Distance between two readings, without unsigned wraparound. -/
def gap (a b : UInt16) : UInt16 := if a > b then a - b else b - a

/-- Feed the current target distance (0 = no target). -/
def onDistance (t : DistanceTracker) (distanceCm : UInt16) (nowMs : UInt32) :
    DistanceTracker × Bool :=
  if distanceCm = 0 then
    (t, false)
  else if t.hasBaseline = false then
    ({ t with baselineCm := distanceCm, hasBaseline := true, lastEventMs := nowMs }, false)
  else
    (t, gap distanceCm t.baselineCm ≥ t.deltaCm ∧ nowMs - t.lastEventMs ≥ t.minIntervalMs)

/-- A delivered update; its distance becomes the new baseline. -/
def notificationSent (t : DistanceTracker) (distanceCm : UInt16) (nowMs : UInt32) :
    DistanceTracker :=
  { t with baselineCm := distanceCm, lastEventMs := nowMs }

def reset (t : DistanceTracker) : DistanceTracker := { t with hasBaseline := false }

section branches
variable {t : DistanceTracker} {distanceCm : UInt16} {nowMs : UInt32}

theorem onDistance_zero : t.onDistance 0 nowMs = (t, false) := rfl

theorem onDistance_first (hcm : distanceCm ≠ 0) (h : t.hasBaseline = false) :
    t.onDistance distanceCm nowMs =
      ({ t with baselineCm := distanceCm, hasBaseline := true, lastEventMs := nowMs }, false) := by
  rw [onDistance, if_neg hcm, if_pos h]

theorem onDistance_later (hcm : distanceCm ≠ 0) (h : t.hasBaseline = true) :
    t.onDistance distanceCm nowMs =
      (t, decide (t.deltaCm ≤ gap distanceCm t.baselineCm ∧
        t.minIntervalMs ≤ nowMs - t.lastEventMs)) := by
  rw [onDistance, if_neg hcm, if_neg (by simp [h])]

end branches

theorem gap_toNat (a b : UInt16) : (gap a b).toNat = (a.toNat - b.toNat) + (b.toNat - a.toNat) := by
  unfold gap
  split_ifs with h
  · have hlt := UInt16.lt_iff_toNat_lt.mp h
    rw [UInt16.toNat_sub_of_le _ _ (UInt16.le_iff_toNat_le.mpr (Nat.le_of_lt hlt))]
    omega
  · have hle := Nat.le_of_not_lt fun hlt => h (UInt16.lt_iff_toNat_lt.mpr hlt)
    rw [UInt16.toNat_sub_of_le _ _ (UInt16.le_iff_toNat_le.mpr hle)]
    omega

end DistanceTracker

/-- When a loudness reading warrants a notification. -/
structure SoundDetector where
  ppThreshold : Int
  cooldownMs : UInt32
  lastNotifyMs : UInt32 := 0
  notified : Bool := false
  deriving DecidableEq

namespace SoundDetector

def shouldNotify (d : SoundDetector) (peakToPeak : Int) (nowMs : UInt32) : Bool :=
  if peakToPeak < d.ppThreshold then false
  else d.notified = false ∨ nowMs - d.lastNotifyMs ≥ d.cooldownMs

/-- A delivered notification starts the cooldown. -/
def notificationSent (d : SoundDetector) (nowMs : UInt32) : SoundDetector :=
  { d with notified := true, lastNotifyMs := nowMs }

theorem shouldNotify_iff {d : SoundDetector} {peakToPeak : Int} {nowMs : UInt32} :
    d.shouldNotify peakToPeak nowMs = true ↔
      d.ppThreshold ≤ peakToPeak ∧ (d.notified = true → d.cooldownMs ≤ nowMs - d.lastNotifyMs) := by
  unfold shouldNotify
  split_ifs with h
  · simp [Int.not_le.mpr h]
  · cases hn : d.notified <;> simp [Int.not_lt.mp h]

end SoundDetector

/-- Minimum and maximum over one window of 12-bit ADC readings. -/
structure LevelWindow where
  minLevel : Int := 4095
  maxLevel : Int := 0
  deriving DecidableEq, Repr

namespace LevelWindow

def add (w : LevelWindow) (level : Int) : LevelWindow :=
  let w := if level < w.minLevel then { w with minLevel := level } else w
  if level > w.maxLevel then { w with maxLevel := level } else w

def isEmpty (w : LevelWindow) : Bool := w.maxLevel < w.minLevel

def peakToPeak (w : LevelWindow) : Int := if w.isEmpty then 0 else w.maxLevel - w.minLevel

end LevelWindow

end RoomWatchdog
