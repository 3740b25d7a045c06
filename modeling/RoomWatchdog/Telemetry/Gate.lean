import Mathlib.Data.Nat.Basic

namespace RoomWatchdog

/-- Everything a telemetry frame reports except the uptime, in the order of the packed
struct. -/
structure SensorSnapshot where
  presence : UInt8
  targetState : UInt8
  movingDistanceCm : UInt16
  movingEnergy : UInt8
  stationaryDistanceCm : UInt16
  stationaryEnergy : UInt8
  micPeakToPeak : Int16
  micMin : Int16
  micMax : Int16
  audioDroppedSamples : UInt32
  pushLost : UInt32
  audioStreaming : UInt8
  pushBackingOff : UInt8
  deriving DecidableEq

namespace SensorSnapshot

def bytes16 (v : UInt16) : List UInt8 := [v.toUInt8, (v >>> 8).toUInt8]

def bytes32 (v : UInt32) : List UInt8 :=
  [v.toUInt8, (v >>> 8).toUInt8, (v >>> 16).toUInt8, (v >>> 24).toUInt8]

/-- The struct as it lies in memory, little-endian and without padding. -/
def bytes (s : SensorSnapshot) : List UInt8 :=
  [s.presence, s.targetState] ++ bytes16 s.movingDistanceCm ++ [s.movingEnergy] ++
    bytes16 s.stationaryDistanceCm ++ [s.stationaryEnergy] ++ bytes16 s.micPeakToPeak.toUInt16 ++
    bytes16 s.micMin.toUInt16 ++ bytes16 s.micMax.toUInt16 ++ bytes32 s.audioDroppedSamples ++
    bytes32 s.pushLost ++ [s.audioStreaming, s.pushBackingOff]

end SensorSnapshot

/-- FNV-1a over the payload bytes. -/
def telemetryFingerprint (data : List UInt8) : UInt32 :=
  data.foldl (fun hash byte => (hash ^^^ byte.toUInt32) * 16777619) 2166136261

/-- Decides when the live telemetry socket should receive a new frame. -/
structure TelemetryGate where
  minIntervalMs : UInt32
  heartbeatMs : UInt32
  lastFingerprint : UInt32 := 0
  lastSentMs : UInt32 := 0
  hasSent : Bool := false
  deriving DecidableEq

namespace TelemetryGate

def shouldSend (g : TelemetryGate) (fingerprint nowMs : UInt32) : Bool :=
  if g.hasSent = false then true
  else
    let sinceMs := nowMs - g.lastSentMs
    if sinceMs ≥ g.heartbeatMs then true
    else fingerprint ≠ g.lastFingerprint ∧ sinceMs ≥ g.minIntervalMs

/-- A delivered frame. -/
def sent (g : TelemetryGate) (fingerprint nowMs : UInt32) : TelemetryGate :=
  { g with lastFingerprint := fingerprint, lastSentMs := nowMs, hasSent := true }

def reset (g : TelemetryGate) : TelemetryGate := { g with hasSent := false }

variable {g : TelemetryGate} {fingerprint nowMs : UInt32}

theorem shouldSend_first (h : g.hasSent = false) : g.shouldSend fingerprint nowMs = true :=
  if_pos h

theorem shouldSend_later (h : g.hasSent = true) :
    g.shouldSend fingerprint nowMs = true ↔
      (fingerprint ≠ g.lastFingerprint ∧ g.minIntervalMs ≤ nowMs - g.lastSentMs) ∨
        g.heartbeatMs ≤ nowMs - g.lastSentMs := by
  rw [shouldSend, if_neg (by simp [h])]
  by_cases hbeat : nowMs - g.lastSentMs ≥ g.heartbeatMs
  · simp [hbeat]
  · simp only [if_neg hbeat, decide_eq_true_eq]
    constructor
    · exact Or.inl
    · exact fun h => h.resolve_right hbeat

/-- A payload other than the last one delivered waits for no more than the minimum interval. -/
theorem shouldSend_changed {sentMs last : UInt32} (h : last ≠ fingerprint) :
    (g.sent last sentMs).shouldSend fingerprint nowMs = true ↔
      g.minIntervalMs ≤ nowMs - sentMs ∨ g.heartbeatMs ≤ nowMs - sentMs := by
  rw [shouldSend_later rfl]
  exact or_congr_left (and_iff_right h.symm)

end TelemetryGate

end RoomWatchdog
