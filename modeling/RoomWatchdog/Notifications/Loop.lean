import RoomWatchdog.Library.Mealy
import RoomWatchdog.Library.WrapClock
import RoomWatchdog.Notifications

namespace RoomWatchdog.Notifications
open Ld2412 (Report)

/-- What one pass of loop() meets. The `to..` fields are how long the true clock runs before
each reading of millis() and before each event. -/
structure Pass where
  presentNow : Bool := false
  report : Report := {}
  mic : LevelWindow := {}
  calibrationRequested : Bool := false
  toCalibration : Nat := 0
  toSample : Nat := 0
  toAlert : Nat := 0
  toAlertConfirm : Nat := 0
  toDistance : Nat := 0
  toMoved : Nat := 0
  toMovedConfirm : Nat := 0
  toLevel : Nat := 0
  toSound : Nat := 0
  toSoundConfirm : Nat := 0

/-- The detectors and the true time. -/
structure Loop where
  clock : Nat
  detectors : Detectors

/-- A line of the loop's history: an event with the published distance and the true time at
which it went out, or a pass taking note of the published distance. -/
inductive Mark where
  | event (type : EventType) (distanceCm : UInt16) (time : Nat)
  | reading (distanceCm : UInt16) (time : Nat)
  deriving DecidableEq

def Mark.stamp (p : Pass) (time : Nat) (emission : Option Emission) : List Mark :=
  emission.toList.map fun e => .event e.type p.report.primaryDistanceCm time

@[simp] theorem Mark.stamp_none (p : Pass) (time : Nat) : Mark.stamp p time none = [] := rfl

@[simp] theorem Mark.stamp_some (p : Pass) (time : Nat) (e : Emission) :
    Mark.stamp p time (some e) = [.event e.type p.report.primaryDistanceCm time] := rfl

namespace Loop
variable (metres : UInt16 → String)

def boot (t : Tuning) : Loop := ⟨0, .boot t⟩

/-- pollCalibrationRequest, which leaves the detectors alone. -/
def calibration (s : Loop) (p : Pass) : Loop × List Mark :=
  let time := s.clock + p.toCalibration
  ({ s with clock := time }, Mark.stamp p time
    (if p.calibrationRequested then
      some (alert .calibration "Radar calibration starts in 10s - leave the room! (takes ~2 min)")
    else none))

def presence (s : Loop) (p : Pass) : Loop × List Mark :=
  let sampled := s.clock + p.toSample
  let alerted := sampled + p.toAlert
  let confirmed := alerted + p.toAlertConfirm
  let (detectors, emission) := notifyPresenceChanges metres s.detectors p.presentNow p.report
    (WrapClock.read sampled) (WrapClock.read confirmed)
  (⟨confirmed, detectors⟩, Mark.stamp p alerted emission)

def movement (s : Loop) (p : Pass) : Loop × List Mark :=
  let noted := s.clock + p.toDistance
  let moved := noted + p.toMoved
  let confirmed := moved + p.toMovedConfirm
  let (detectors, emission) := notifyMovement metres s.detectors p.report
    (WrapClock.read noted) (WrapClock.read confirmed)
  (⟨confirmed, detectors⟩,
    .reading p.report.primaryDistanceCm noted :: Mark.stamp p moved emission)

def sound (s : Loop) (p : Pass) : Loop × List Mark :=
  let heard := s.clock + p.toLevel
  let alerted := heard + p.toSound
  let confirmed := alerted + p.toSoundConfirm
  let (detectors, emission) := notifyLoudSounds s.detectors p.mic
    (WrapClock.read heard) (WrapClock.read confirmed)
  (⟨confirmed, detectors⟩, Mark.stamp p alerted emission)

/-- One pass of loop(), from the calibration request to the sound alert. -/
def pass (s : Loop) (p : Pass) : Loop × List Mark :=
  let (s, calibrations) := s.calibration p
  let (s, edges) := s.presence metres p
  let (s, moves) := s.movement metres p
  let (s, sounds) := s.sound p
  (s, calibrations ++ edges ++ moves ++ sounds)

/-- Everything a run of passes hands out, in order. -/
def trace (t : Tuning) (passes : List Pass) : List Mark :=
  (Mealy.outputs (pass metres) (.boot t) passes).flatten

end Loop

end RoomWatchdog.Notifications
