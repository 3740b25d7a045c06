import RoomWatchdog.Config
import RoomWatchdog.Library.WrapClock
import RoomWatchdog.Telemetry.Gate

namespace RoomWatchdog.Ws
open WrapClock (read)

/-- The two variables that only the sensor loop touches. -/
structure Publisher where
  gate : TelemetryGate
  servedClientId : UInt32 := 0
  deriving DecidableEq

/-- What one pass finds: the slot, the snapshot, the true time at millis(), and the answers
of availableForWrite() and text(). -/
structure Pass where
  id : UInt32
  snapshot : SensorSnapshot
  time : Nat
  availableForWrite : Bool
  text : Bool

/-- A frame the socket took; `time` is the true time of its pass. -/
structure Frame where
  id : UInt32
  snapshot : SensorSnapshot
  uptimeMs : UInt32
  time : Nat
  deriving DecidableEq

def Pass.fingerprint (p : Pass) : UInt32 := telemetryFingerprint p.snapshot.bytes

def Frame.fingerprint (f : Frame) : UInt32 := telemetryFingerprint f.snapshot.bytes

def Pass.frame (p : Pass) : Frame := ⟨p.id, p.snapshot, read p.time, p.time⟩

@[simp] theorem Pass.frame_fingerprint (p : Pass) : p.frame.fingerprint = p.fingerprint := rfl

/-- The socket takes what this pass offers it. -/
def Pass.accepts (p : Pass) : Bool := p.availableForWrite && p.text

namespace Publisher

def boot (minIntervalMs heartbeatMs : UInt32) : Publisher where
  gate := { minIntervalMs, heartbeatMs }

/-- A different client than last pass starts with a full frame. -/
def serve (s : Publisher) (id : UInt32) : Publisher :=
  if id ≠ s.servedClientId then { gate := s.gate.reset, servedClientId := id } else s

theorem serve_self {s : Publisher} : s.serve s.servedClientId = s :=
  if_neg (not_not.mpr rfl)

theorem serve_of_ne {s : Publisher} {id : UInt32} (h : id ≠ s.servedClientId) :
    s.serve id = { gate := s.gate.reset, servedClientId := id } := if_pos h

@[simp] theorem serve_servedClientId {s : Publisher} {id : UInt32} :
    (s.serve id).servedClientId = id := by
  by_cases h : id = s.servedClientId
  · rw [h, serve_self]
  · rw [serve_of_ne h]

/-- Serving one client on the way to another new one makes no difference. -/
theorem serve_serve {s : Publisher} {a b : UInt32} (h : b ≠ s.servedClientId) :
    (s.serve a).serve b = s.serve b := by
  by_cases ha : a = s.servedClientId
  · rw [ha, serve_self]
  · rw [serve_of_ne ha, serve_of_ne h]
    by_cases hb : b = a
    · rw [hb, serve]
      exact if_neg (not_not.mpr rfl)
    · exact serve_of_ne hb

end Publisher

def wsPublishTelemetry (s : Publisher) (p : Pass) : Publisher × Option Frame :=
  if p.id = 0 then (s, none)
  else
    let s := s.serve p.id
    let now := read p.time
    if s.gate.shouldSend p.fingerprint now = false ∨ p.availableForWrite = false then (s, none)
    else if p.text then ({ s with gate := s.gate.sent p.fingerprint now }, some p.frame)
    else (s, none)

section step
variable {s : Publisher} {p : Pass}

theorem publish_idle (h : p.id = 0) : wsPublishTelemetry s p = (s, none) := if_pos h

theorem publish_sends (hid : p.id ≠ 0) (haccepts : p.accepts = true)
    (hdue : (s.serve p.id).gate.shouldSend p.fingerprint (read p.time) = true) :
    wsPublishTelemetry s p = (
      { gate := (s.serve p.id).gate.sent p.fingerprint (read p.time), servedClientId := p.id },
      some p.frame) := by
  obtain ⟨havailable, htext⟩ := Bool.and_eq_true_iff.mp haccepts
  rw [wsPublishTelemetry, if_neg hid]
  simp [hdue, havailable, htext]

theorem publish_holds (hid : p.id ≠ 0)
    (h : ¬ (p.accepts = true ∧
      (s.serve p.id).gate.shouldSend p.fingerprint (read p.time) = true)) :
    wsPublishTelemetry s p = (s.serve p.id, none) := by
  rw [wsPublishTelemetry, if_neg hid]
  dsimp only
  split_ifs with hquiet htext
  · rfl
  · exfalso
    apply h
    obtain ⟨hdue, havailable⟩ := not_or.mp hquiet
    exact ⟨Bool.and_eq_true_iff.mpr ⟨by simpa using havailable, htext⟩, by simpa using hdue⟩
  · rfl

/-- With a client, delivery takes a socket that accepts and a gate that opens. -/
theorem publish_delivers_iff (hid : p.id ≠ 0) :
    (wsPublishTelemetry s p).2 = some p.frame ↔ p.accepts = true ∧
      (s.serve p.id).gate.shouldSend p.fingerprint (read p.time) = true := by
  constructor
  · intro hout
    by_contra hhold
    rw [publish_holds hid hhold] at hout
    cases hout
  · rintro ⟨haccepts, hdue⟩
    rw [publish_sends hid haccepts hdue]

/-- Without delivery all that happens is that the client is served. -/
theorem publish_silent (hid : p.id ≠ 0) (hout : (wsPublishTelemetry s p).2 = none) :
    (wsPublishTelemetry s p).1 = s.serve p.id := by
  have hhold := mt (@publish_delivers_iff s p hid).mpr
  rw [hout] at hhold
  rw [publish_holds hid (hhold (by simp))]

/-- A pass with a client depends on the publisher only as it serves that client. -/
theorem publish_congr {t : Publisher} (hid : p.id ≠ 0) (h : s.serve p.id = t.serve p.id) :
    wsPublishTelemetry s p = wsPublishTelemetry t p := by
  rw [wsPublishTelemetry, wsPublishTelemetry, if_neg hid, if_neg hid, h]

/-- A pass delivers its own frame or none. -/
theorem publish_output (s : Publisher) (p : Pass) :
    (wsPublishTelemetry s p).2 = some p.frame ∨ (wsPublishTelemetry s p).2 = none := by
  unfold wsPublishTelemetry
  dsimp only
  split_ifs
  · exact Or.inr rfl
  · exact Or.inr rfl
  · exact Or.inl rfl
  · exact Or.inr rfl

end step

end RoomWatchdog.Ws
