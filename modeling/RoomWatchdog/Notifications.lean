import RoomWatchdog.Config
import RoomWatchdog.Detectors
import RoomWatchdog.Ld2412.Parser

namespace RoomWatchdog.Notifications
open Ld2412 (Report)

inductive EventType where
  | boot
  | presence
  | cleared
  | moved
  | sound
  | calibration
  deriving DecidableEq

/-- One event handed out. An alert goes to the socket and to the push queue, a live event
to the socket only. -/
structure Emission where
  pushed : Bool
  type : EventType
  message : String
  deriving DecidableEq

def alert (type : EventType) (message : String) : Emission := ⟨true, type, message⟩

def live (type : EventType) (message : String) : Emission := ⟨false, type, message⟩

/-- The file's three detector objects. -/
structure Detectors where
  soundDetector : SoundDetector
  presenceMonitor : PresenceMonitor
  distanceTracker : DistanceTracker

/-- The constructor arguments of the three objects. -/
structure Tuning where
  soundPpThreshold : Int
  soundCooldownMs : UInt32
  debounceMs : UInt32
  deltaCm : UInt16
  minIntervalMs : UInt32

def Tuning.config : Tuning where
  soundPpThreshold := Config.soundPpThreshold
  soundCooldownMs := Config.soundNotifyCooldownMs
  debounceMs := Config.presenceDebounceMs
  deltaCm := Config.distanceDeltaCm
  minIntervalMs := Config.distanceUpdateMinIntervalMs

def Detectors.boot (t : Tuning) : Detectors where
  soundDetector := { ppThreshold := t.soundPpThreshold, cooldownMs := t.soundCooldownMs }
  presenceMonitor := { debounceMs := t.debounceMs }
  distanceTracker := { deltaCm := t.deltaCm, minIntervalMs := t.minIntervalMs }

-- `String(cm / 100.0f, 1)` of the Arduino core: metres with one decimal
variable (metres : UInt16 → String)

def radarDescribeTarget (report : Report) : String :=
  if report.hasTarget = false then ""
  else metres report.primaryDistanceCm ++ "m" ++ (if report.isMoving then " (moving)" else " (still)")

def personDetectedMessage (report : Report) : String :=
  let position := radarDescribeTarget metres report
  if position.isEmpty then "Person detected" else "Person detected at " ++ position

/-- `sampleMs` and `confirmMs` are the two readings of millis(), `report` the published radar
report, which only the loop task itself replaces. -/
def notifyPresenceChanges (d : Detectors) (presentNow : Bool) (report : Report)
    (sampleMs confirmMs : UInt32) : Detectors × Option Emission :=
  let (monitor, event) := d.presenceMonitor.onSample presentNow sampleMs
  match event with
  | .none => ({ d with presenceMonitor := monitor }, none)
  | .detected =>
    ({ d with
        presenceMonitor := monitor.notificationSent
        distanceTracker := d.distanceTracker.notificationSent report.primaryDistanceCm confirmMs },
      some (alert .presence (personDetectedMessage metres report)))
  | .cleared =>
    ({ d with
        presenceMonitor := monitor.notificationSent
        distanceTracker := d.distanceTracker.reset },
      some (alert .cleared "Presence cleared"))

/-- Movement is only meaningful in the confirmed present state. -/
def notifyMovement (d : Detectors) (report : Report) (readMs confirmMs : UInt32) :
    Detectors × Option Emission :=
  if d.presenceMonitor.notifiedState = false then
    (d, none)
  else
    let distanceCm := report.primaryDistanceCm
    let (tracker, update) := d.distanceTracker.onDistance distanceCm readMs
    if update then
      ({ d with distanceTracker := tracker.notificationSent distanceCm confirmMs },
        some (live .moved ("Person moved to " ++ radarDescribeTarget metres report)))
    else
      ({ d with distanceTracker := tracker }, none)

def notifyLoudSounds (d : Detectors) (mic : LevelWindow) (readMs confirmMs : UInt32) :
    Detectors × Option Emission :=
  if d.soundDetector.shouldNotify mic.peakToPeak readMs then
    ({ d with soundDetector := d.soundDetector.notificationSent confirmMs },
      some (alert .sound ("Sound detected (level " ++ toString mic.peakToPeak ++ ")")))
  else
    (d, none)

section branches
variable {metres} {d : Detectors} {presentNow : Bool} {report : Report} {mic : LevelWindow}
  {readMs confirmMs : UInt32} {m : PresenceMonitor} {t : DistanceTracker}

theorem notifyPresenceChanges_none (h : d.presenceMonitor.onSample presentNow readMs = (m, .none)) :
    notifyPresenceChanges metres d presentNow report readMs confirmMs =
      ({ d with presenceMonitor := m }, none) := by
  simp only [notifyPresenceChanges, h]

theorem notifyPresenceChanges_detected
    (h : d.presenceMonitor.onSample presentNow readMs = (m, .detected)) :
    notifyPresenceChanges metres d presentNow report readMs confirmMs =
      ({ d with
          presenceMonitor := m.notificationSent
          distanceTracker := d.distanceTracker.notificationSent report.primaryDistanceCm confirmMs },
        some (alert .presence (personDetectedMessage metres report))) := by
  simp only [notifyPresenceChanges, h]

theorem notifyPresenceChanges_cleared
    (h : d.presenceMonitor.onSample presentNow readMs = (m, .cleared)) :
    notifyPresenceChanges metres d presentNow report readMs confirmMs =
      ({ d with
          presenceMonitor := m.notificationSent, distanceTracker := d.distanceTracker.reset },
        some (alert .cleared "Presence cleared")) := by
  simp only [notifyPresenceChanges, h]

theorem notifyMovement_absent (h : d.presenceMonitor.notified = false) :
    notifyMovement metres d report readMs confirmMs = (d, none) := if_pos h

theorem notifyMovement_quiet (hpresent : d.presenceMonitor.notified = true)
    (h : d.distanceTracker.onDistance report.primaryDistanceCm readMs = (t, false)) :
    notifyMovement metres d report readMs confirmMs = ({ d with distanceTracker := t }, none) := by
  simp [notifyMovement, PresenceMonitor.notifiedState, hpresent, h]

theorem notifyMovement_update (hpresent : d.presenceMonitor.notified = true)
    (h : d.distanceTracker.onDistance report.primaryDistanceCm readMs = (t, true)) :
    notifyMovement metres d report readMs confirmMs =
      ({ d with distanceTracker := t.notificationSent report.primaryDistanceCm confirmMs },
        some (live .moved ("Person moved to " ++ radarDescribeTarget metres report))) := by
  simp [notifyMovement, PresenceMonitor.notifiedState, hpresent, h]

theorem notifyLoudSounds_quiet (h : d.soundDetector.shouldNotify mic.peakToPeak readMs = false) :
    notifyLoudSounds d mic readMs confirmMs = (d, none) := by
  simp [notifyLoudSounds, h]

theorem notifyLoudSounds_alert (h : d.soundDetector.shouldNotify mic.peakToPeak readMs = true) :
    notifyLoudSounds d mic readMs confirmMs =
      ({ d with soundDetector := d.soundDetector.notificationSent confirmMs },
        some (alert .sound ("Sound detected (level " ++ toString mic.peakToPeak ++ ")"))) :=
  if_pos h

end branches

end RoomWatchdog.Notifications
