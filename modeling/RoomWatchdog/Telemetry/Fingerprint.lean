import Mathlib.Data.List.Basic
import RoomWatchdog.Library.Fnv1a
import RoomWatchdog.Telemetry.Gate

namespace RoomWatchdog

namespace SensorSnapshot

/-- The fields in the order of the struct. -/
inductive Field where
  | presence
  | targetState
  | movingDistanceCm
  | movingEnergy
  | stationaryDistanceCm
  | stationaryEnergy
  | micPeakToPeak
  | micMin
  | micMax
  | audioDroppedSamples
  | pushLost
  | audioStreaming
  | pushBackingOff
  deriving DecidableEq

namespace Field

def all : List Field :=
  [presence, targetState, movingDistanceCm, movingEnergy, stationaryDistanceCm, stationaryEnergy,
    micPeakToPeak, micMin, micMax, audioDroppedSamples, pushLost, audioStreaming, pushBackingOff]

theorem mem_all (f : Field) : f ∈ all := by cases f <;> decide

theorem all_nodup : all.Nodup := by decide

/-- sizeof the field. -/
def size : Field → Nat
  | presence | targetState | movingEnergy | stationaryEnergy | audioStreaming | pushBackingOff => 1
  | movingDistanceCm | stationaryDistanceCm | micPeakToPeak | micMin | micMax => 2
  | audioDroppedSamples | pushLost => 4

end Field

/-- What a field holds, as a number. -/
def value (s : SensorSnapshot) : Field → Int
  | .presence => s.presence.toNat
  | .targetState => s.targetState.toNat
  | .movingDistanceCm => s.movingDistanceCm.toNat
  | .movingEnergy => s.movingEnergy.toNat
  | .stationaryDistanceCm => s.stationaryDistanceCm.toNat
  | .stationaryEnergy => s.stationaryEnergy.toNat
  | .micPeakToPeak => s.micPeakToPeak.toInt
  | .micMin => s.micMin.toInt
  | .micMax => s.micMax.toInt
  | .audioDroppedSamples => s.audioDroppedSamples.toNat
  | .pushLost => s.pushLost.toNat
  | .audioStreaming => s.audioStreaming.toNat
  | .pushBackingOff => s.pushBackingOff.toNat

/-- Where a field lies in memory. -/
def fieldBytes (s : SensorSnapshot) : Field → List UInt8
  | .presence => [s.presence]
  | .targetState => [s.targetState]
  | .movingDistanceCm => bytes16 s.movingDistanceCm
  | .movingEnergy => [s.movingEnergy]
  | .stationaryDistanceCm => bytes16 s.stationaryDistanceCm
  | .stationaryEnergy => [s.stationaryEnergy]
  | .micPeakToPeak => bytes16 s.micPeakToPeak.toUInt16
  | .micMin => bytes16 s.micMin.toUInt16
  | .micMax => bytes16 s.micMax.toUInt16
  | .audioDroppedSamples => bytes32 s.audioDroppedSamples
  | .pushLost => bytes32 s.pushLost
  | .audioStreaming => [s.audioStreaming]
  | .pushBackingOff => [s.pushBackingOff]

variable {s t : SensorSnapshot} {f : Field}

theorem bytes_eq (s : SensorSnapshot) : s.bytes = Field.all.flatMap s.fieldBytes := by
  simp only [bytes, Field.all, fieldBytes, List.flatMap_cons, List.flatMap_nil, List.append_assoc,
    List.cons_append, List.nil_append, List.append_nil]

theorem fieldBytes_length (s : SensorSnapshot) (f : Field) : (s.fieldBytes f).length = f.size := by
  cases f <;> rfl

theorem toNat8_inj {a b : UInt8} : (a.toNat : Int) = b.toNat ↔ a = b :=
  Int.ofNat_inj.trans UInt8.toNat_inj

theorem toNat16_inj {a b : UInt16} : (a.toNat : Int) = b.toNat ↔ a = b :=
  Int.ofNat_inj.trans UInt16.toNat_inj

theorem toNat32_inj {a b : UInt32} : (a.toNat : Int) = b.toNat ↔ a = b :=
  Int.ofNat_inj.trans UInt32.toNat_inj

/-- The fields' values are the snapshot. -/
theorem ext_value (h : ∀ f, s.value f = t.value f) : s = t := by
  have hpresence := toNat8_inj.mp (h .presence)
  have htargetState := toNat8_inj.mp (h .targetState)
  have hmovingDistanceCm := toNat16_inj.mp (h .movingDistanceCm)
  have hmovingEnergy := toNat8_inj.mp (h .movingEnergy)
  have hstationaryDistanceCm := toNat16_inj.mp (h .stationaryDistanceCm)
  have hstationaryEnergy := toNat8_inj.mp (h .stationaryEnergy)
  have hmicPeakToPeak := Int16.toInt_inj.mp (h .micPeakToPeak)
  have hmicMin := Int16.toInt_inj.mp (h .micMin)
  have hmicMax := Int16.toInt_inj.mp (h .micMax)
  have haudioDroppedSamples := toNat32_inj.mp (h .audioDroppedSamples)
  have hpushLost := toNat32_inj.mp (h .pushLost)
  have haudioStreaming := toNat8_inj.mp (h .audioStreaming)
  have hpushBackingOff := toNat8_inj.mp (h .pushBackingOff)
  cases s
  cases t
  congr

/-- Equal values lie in memory as equal bytes. -/
theorem fieldBytes_congr (h : s.value f = t.value f) : s.fieldBytes f = t.fieldBytes f := by
  cases f <;> simp only [value, toNat8_inj, toNat16_inj, toNat32_inj, Int16.toInt_inj] at h <;>
    simp only [fieldBytes, h]

theorem bytes16_injective {v w : UInt16} (h : bytes16 v = bytes16 w) : v = w := by
  simp only [bytes16, List.cons.injEq, and_true] at h
  have hlow := congrArg UInt8.toNat h.1
  have hhigh := congrArg UInt8.toNat h.2
  rw [UInt16.toNat_toUInt8, UInt16.toNat_toUInt8] at hlow hhigh
  rw [UInt16.toNat_shiftRight, UInt16.toNat_shiftRight] at hhigh
  change v.toNat >>> 8 % 256 = w.toNat >>> 8 % 256 at hhigh
  rw [Nat.shiftRight_eq_div_pow, Nat.shiftRight_eq_div_pow] at hhigh
  have hv := v.toNat_lt
  have hw := w.toNat_lt
  apply UInt16.toNat_inj.mp
  omega

theorem signed16_injective {v w : Int16} (h : bytes16 v.toUInt16 = bytes16 w.toUInt16) :
    v = w := by
  have hsame := congrArg UInt16.toInt16 (bytes16_injective h)
  rwa [Int16.toInt16_toUInt16, Int16.toInt16_toUInt16] at hsame

/-- A field of at most 16 bits can be read back from its bytes. -/
theorem value_of_fieldBytes (hsize : f.size ≤ 2) (h : s.fieldBytes f = t.fieldBytes f) :
    s.value f = t.value f := by
  cases f
  case audioDroppedSamples => exact absurd hsize (by decide)
  case pushLost => exact absurd hsize (by decide)
  case movingDistanceCm => exact toNat16_inj.mpr (bytes16_injective h)
  case stationaryDistanceCm => exact toNat16_inj.mpr (bytes16_injective h)
  case micPeakToPeak => exact Int16.toInt_inj.mpr (signed16_injective h)
  case micMin => exact Int16.toInt_inj.mpr (signed16_injective h)
  case micMax => exact Int16.toInt_inj.mpr (signed16_injective h)
  all_goals exact toNat8_inj.mpr (List.cons_eq_cons.mp h).1

/-- Snapshots that agree but for one field lie in memory alike around that field. -/
theorem bytes_around (hothers : ∀ g, g ≠ f → s.value g = t.value g) : ∃ pre suf,
    s.bytes = pre ++ s.fieldBytes f ++ suf ∧ t.bytes = pre ++ t.fieldBytes f ++ suf := by
  obtain ⟨before, after, hsplit⟩ := List.append_of_mem f.mem_all
  have hnodup := Field.all_nodup
  rw [hsplit, List.nodup_append, List.nodup_cons] at hnodup
  obtain ⟨-, ⟨hafter, -⟩, hbefore⟩ := hnodup
  have hsame : ∀ fields : List Field, f ∉ fields →
      fields.flatMap t.fieldBytes = fields.flatMap s.fieldBytes := by
    intro fields hnot
    apply List.flatMap_congr
    intro g hg
    apply (fieldBytes_congr (hothers g _)).symm
    rintro rfl
    exact hnot hg
  have hnot : f ∉ before := by
    intro hmem
    exact hbefore f hmem f List.mem_cons_self rfl
  refine ⟨before.flatMap s.fieldBytes, after.flatMap s.fieldBytes, ?_, ?_⟩
  · rw [bytes_eq, hsplit, List.flatMap_append, List.flatMap_cons, List.append_assoc]
  · rw [bytes_eq, hsplit, List.flatMap_append, List.flatMap_cons, List.append_assoc,
      hsame before hnot, hsame after hafter]

end SensorSnapshot

theorem telemetryFingerprint_eq (data : List UInt8) :
    telemetryFingerprint data = Fnv1a.hash data := rfl

theorem fingerprint_pair_ne (pre suf : List UInt8) {a1 a2 b1 b2 : UInt8}
    (hne : (a1, a2) ≠ (b1, b2)) :
    telemetryFingerprint (pre ++ [a1, a2] ++ suf) ≠
      telemetryFingerprint (pre ++ [b1, b2] ++ suf) := by
  intro h
  rw [telemetryFingerprint_eq, telemetryFingerprint_eq, Fnv1a.hash_pair_inj] at h
  apply hne
  rw [h.1, h.2]

/-- A change of one byte or of two adjacent ones changes the fingerprint. -/
theorem fingerprint_word_ne (pre suf : List UInt8) {old new : List UInt8} {size : Nat}
    (hold : old.length = size) (hnew : new.length = size) (hsize : size ≤ 2) (hne : old ≠ new) :
    telemetryFingerprint (pre ++ old ++ suf) ≠ telemetryFingerprint (pre ++ new ++ suf) := by
  match old, new with
  | [], [] => exact absurd rfl hne
  | [a], [b] =>
    intro h
    rw [telemetryFingerprint_eq, telemetryFingerprint_eq, Fnv1a.hash_byte_inj] at h
    exact hne (congrArg (fun c => [c]) h)
  | [a1, a2], [b1, b2] =>
    apply fingerprint_pair_ne
    intro h
    apply hne
    obtain ⟨rfl, rfl⟩ := Prod.mk.inj h
    rfl
  | [], _ :: _ | _ :: _, [] | [_], _ :: _ :: _ | _ :: _ :: _, [_] =>
    simp only [List.length_cons, List.length_nil] at hold hnew
    omega
  | _ :: _ :: _ :: _, _ | _, _ :: _ :: _ :: _ =>
    simp only [List.length_cons] at hold hnew
    omega

/-- Two different pairs of adjacent bytes never leave the same fingerprint, whatever stands
around them. So a snapshot that differs from the last one sent in one field of 8 or 16 bits
has another fingerprint, and the gate lets it through as soon as an interval has passed. -/
theorem change_never_missed :
    (∀ (pre suf : List UInt8) (a1 a2 b1 b2 : UInt8), (a1, a2) ≠ (b1, b2) →
      telemetryFingerprint (pre ++ [a1, a2] ++ suf) ≠
        telemetryFingerprint (pre ++ [b1, b2] ++ suf)) ∧
    ∀ (s t : SensorSnapshot) (f : SensorSnapshot.Field), f.size ≤ 2 → s ≠ t →
      (∀ g, g ≠ f → s.value g = t.value g) →
      telemetryFingerprint s.bytes ≠ telemetryFingerprint t.bytes ∧
      ∀ (gate : TelemetryGate) (sentMs nowMs : UInt32),
        (gate.sent (telemetryFingerprint s.bytes) sentMs).shouldSend
          (telemetryFingerprint t.bytes) nowMs = true ↔
        gate.minIntervalMs ≤ nowMs - sentMs ∨ gate.heartbeatMs ≤ nowMs - sentMs := by
  refine ⟨fun pre suf _ _ _ _ => fingerprint_pair_ne pre suf, ?_⟩
  intro s t f hsize hne hothers
  have hbytes : s.fieldBytes f ≠ t.fieldBytes f := by
    intro hsame
    apply hne
    apply SensorSnapshot.ext_value
    intro g
    by_cases hg : g = f
    · rw [hg]
      exact SensorSnapshot.value_of_fieldBytes hsize hsame
    · exact hothers g hg
  have hchange : telemetryFingerprint s.bytes ≠ telemetryFingerprint t.bytes := by
    obtain ⟨pre, suf, hs, ht⟩ := SensorSnapshot.bytes_around hothers
    rw [hs, ht]
    exact fingerprint_word_ne pre suf (s.fieldBytes_length f) (t.fieldBytes_length f) hsize hbytes
  refine ⟨hchange, ?_⟩
  intro gate sentMs nowMs
  exact TelemetryGate.shouldSend_changed hchange

end RoomWatchdog
