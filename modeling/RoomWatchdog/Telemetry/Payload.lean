import RoomWatchdog.ArduinoString
import RoomWatchdog.Library.FlatJson
import RoomWatchdog.Telemetry.Fingerprint

namespace RoomWatchdog
open FlatJson (ascii Member Plain Value parse objectText membersText)

def sensorJsonBytes : Nat := 320

def flagText (flag : UInt8) : List UInt8 := ascii (if flag ≠ 0 then "true" else "false")

/-- The right sides of the += in appendSensorFields. -/
def sensorPieces (snapshot : SensorSnapshot) (uptimeMs : UInt32) : List (List UInt8) := [
  ascii "\"presence\":" ++ flagText snapshot.presence,
  ascii ",\"targetState\":" ++ Decimal.write snapshot.targetState.toNat,
  ascii ",\"movingDistanceCm\":" ++ Decimal.write snapshot.movingDistanceCm.toNat,
  ascii ",\"movingEnergy\":" ++ Decimal.write snapshot.movingEnergy.toNat,
  ascii ",\"stationaryDistanceCm\":" ++ Decimal.write snapshot.stationaryDistanceCm.toNat,
  ascii ",\"stationaryEnergy\":" ++ Decimal.write snapshot.stationaryEnergy.toNat,
  ascii ",\"micPeakToPeak\":" ++ Decimal.write snapshot.micPeakToPeak.toInt,
  ascii ",\"micMin\":" ++ Decimal.write snapshot.micMin.toInt,
  ascii ",\"micMax\":" ++ Decimal.write snapshot.micMax.toInt,
  ascii ",\"audioStreaming\":" ++ flagText snapshot.audioStreaming,
  ascii ",\"audioDroppedSamples\":" ++ Decimal.write snapshot.audioDroppedSamples.toNat,
  ascii ",\"pushBackingOff\":" ++ flagText snapshot.pushBackingOff,
  ascii ",\"pushLost\":" ++ Decimal.write snapshot.pushLost.toNat,
  ascii ",\"uptimeMs\":" ++ Decimal.write uptimeMs.toNat]

variable (room : Nat → Nat)

def appendSensorFields (json : Text) (snapshot : SensorSnapshot) (uptimeMs : UInt32) : Text :=
  (json.reserve room (json.contents.length + sensorJsonBytes)).appendAll room
    (sensorPieces snapshot uptimeMs)

def telemetryOpening : Text := Growable.Buffer.append room {} (ascii "\x7b\"type\":\"telemetry\",")

def telemetryJson (snapshot : SensorSnapshot) (nowMs : UInt32) : Text :=
  (appendSensorFields room (telemetryOpening room) snapshot nowMs).append room (ascii "\x7d")

namespace SensorSnapshot

/-- The three fields that only say yes or no. -/
def Flags (s : SensorSnapshot) : Prop :=
  (s.presence = 0 ∨ s.presence = 1) ∧ (s.audioStreaming = 0 ∨ s.audioStreaming = 1) ∧
    (s.pushBackingOff = 0 ∨ s.pushBackingOff = 1)

namespace Field

def name : Field → String
  | presence => "presence"
  | targetState => "targetState"
  | movingDistanceCm => "movingDistanceCm"
  | movingEnergy => "movingEnergy"
  | stationaryDistanceCm => "stationaryDistanceCm"
  | stationaryEnergy => "stationaryEnergy"
  | micPeakToPeak => "micPeakToPeak"
  | micMin => "micMin"
  | micMax => "micMax"
  | audioDroppedSamples => "audioDroppedSamples"
  | pushLost => "pushLost"
  | audioStreaming => "audioStreaming"
  | pushBackingOff => "pushBackingOff"

def key (f : Field) : List UInt8 := ascii f.name

def isFlag : Field → Bool
  | presence | audioStreaming | pushBackingOff => true
  | _ => false

/-- The longest rendering of a value. -/
def width : Field → Nat
  | presence | audioStreaming | pushBackingOff => 5
  | targetState | movingEnergy | stationaryEnergy => 3
  | movingDistanceCm | stationaryDistanceCm => 5
  | micPeakToPeak | micMin | micMax => 6
  | audioDroppedSamples | pushLost => 10

/-- The order of the payload, with the uptime behind. -/
def rendered : List Field :=
  [presence, targetState, movingDistanceCm, movingEnergy, stationaryDistanceCm, stationaryEnergy,
    micPeakToPeak, micMin, micMax, audioStreaming, audioDroppedSamples, pushBackingOff, pushLost]

theorem mem_rendered (f : Field) : f ∈ rendered := by cases f <;> decide

theorem key_plain (f : Field) : Plain f.key := by cases f <;> decide

theorem keys_nodup : (rendered.map key ++ [ascii "uptimeMs"]).Nodup := by decide

end Field

/-- What the payload says of a field. -/
def json (s : SensorSnapshot) (f : Field) : Value :=
  if f.isFlag then .bool (s.value f ≠ 0) else .number (s.value f)

def body (s : SensorSnapshot) (f : Field) : List UInt8 :=
  if f.isFlag then ascii (if decide (s.value f ≠ 0) then "true" else "false")
  else Decimal.write (s.value f)

theorem reads_body (s : SensorSnapshot) (f : Field) : FlatJson.Reads (s.body f) (s.json f) := by
  rw [body, json]
  cases f.isFlag with
  | true => exact FlatJson.reads_bool _
  | false => exact FlatJson.reads_number _

def member (s : SensorSnapshot) (f : Field) : Member where
  key := f.key
  body := s.body f
  value := s.json f
  plain := f.key_plain
  reads := s.reads_body f

end SensorSnapshot

def uptimeMember (uptimeMs : UInt32) : Member where
  key := ascii "uptimeMs"
  body := Decimal.write uptimeMs.toNat
  value := .number uptimeMs.toNat
  plain := by decide
  reads := FlatJson.reads_number _

section text
variable {s t : SensorSnapshot} {u v : UInt32}

theorem flagText_eq (flag : UInt8) :
    flagText flag = ascii (if decide ((flag.toNat : Int) ≠ 0) then "true" else "false") := by
  have hzero : (flag.toNat : Int) = 0 ↔ flag = 0 := SensorSnapshot.toNat8_inj (b := 0)
  simp only [flagText, ne_eq, hzero, decide_not, Bool.not_eq_true', decide_eq_false_iff_not]

/-- Each piece is a member, after the first with a comma in front. -/
theorem sensorPieces_eq (s : SensorSnapshot) (u : UInt32) :
    sensorPieces s u = (s.member .presence).text ::
      (SensorSnapshot.Field.rendered.tail.map s.member ++ [uptimeMember u]).map
        fun m => 0x2C :: m.text := by
  simp only [sensorPieces, flagText_eq, SensorSnapshot.Field.rendered, List.tail_cons,
    List.map_cons, List.map_nil, List.cons_append, List.nil_append, List.cons.injEq, and_true]
  refine ⟨?_, ?_, ?_, ?_, ?_, ?_, ?_, ?_, ?_, ?_, ?_, ?_, ?_, ?_⟩
  all_goals rfl

/-- The appended text is the inside of an object. -/
theorem sensorPieces_flatten (s : SensorSnapshot) (u : UInt32) :
    (sensorPieces s u).flatten = membersText (s.member .presence)
      (SensorSnapshot.Field.rendered.tail.map s.member ++ [uptimeMember u]) := by
  rw [sensorPieces_eq, List.flatten_cons, membersText, List.flatMap_def]

theorem unsigned_length_le {n k : Nat} (hk : 0 < k) (h : n < 10 ^ k) :
    (Decimal.write n).length ≤ k := Decimal.natural_length_le hk h

theorem uint8_length_le (n : UInt8) : (Decimal.write n.toNat).length ≤ 3 :=
  unsigned_length_le (by decide) (Nat.lt_trans n.toNat_lt (by decide))

theorem uint16_length_le (n : UInt16) : (Decimal.write n.toNat).length ≤ 5 :=
  unsigned_length_le (by decide) (Nat.lt_trans n.toNat_lt (by decide))

theorem uint32_length_le (n : UInt32) : (Decimal.write n.toNat).length ≤ 10 :=
  unsigned_length_le (by decide) (Nat.lt_trans n.toNat_lt (by decide))

theorem int16_length_le (n : Int16) : (Decimal.write n.toInt).length ≤ 6 := by
  apply Decimal.write_length_le (by decide)
  have hlow := n.le_toInt
  have hhigh := n.toInt_lt
  omega

theorem bool_length_le (b : Bool) : (ascii (if b then "true" else "false")).length ≤ 5 := by
  cases b <;> decide

theorem body_length_le (s : SensorSnapshot) (f : SensorSnapshot.Field) :
    (s.body f).length ≤ f.width := by
  cases f
  case presence => exact bool_length_le _
  case audioStreaming => exact bool_length_le _
  case pushBackingOff => exact bool_length_le _
  case movingDistanceCm => exact uint16_length_le _
  case stationaryDistanceCm => exact uint16_length_le _
  case micPeakToPeak => exact int16_length_le _
  case micMin => exact int16_length_le _
  case micMax => exact int16_length_le _
  case audioDroppedSamples => exact uint32_length_le _
  case pushLost => exact uint32_length_le _
  all_goals exact uint8_length_le _

theorem text_length (m : Member) : m.text.length = m.key.length + m.body.length + 3 := by
  rw [Member.text, List.length_append, List.length_cons, List.length_cons, List.length_cons]
  omega

theorem members_length_le (s : SensorSnapshot) (fields : List SensorSnapshot.Field) :
    ((fields.map s.member).flatMap fun m => 0x2C :: m.text).length ≤
      (fields.map fun f => f.key.length + f.width + 4).sum := by
  induction fields with
  | nil => exact Nat.le_refl _
  | cons f fields ih =>
    have hbody := body_length_le s f
    have htext := text_length (s.member f)
    rw [List.map_cons, List.flatMap_cons, List.length_append, List.length_cons, htext,
      List.map_cons, List.sum_cons]
    change f.key.length + (s.body f).length + 3 + 1 + _ ≤ _
    omega

/-- The fields at their widest fit the reservation. -/
theorem sensorPieces_length_lt (s : SensorSnapshot) (u : UInt32) :
    (sensorPieces s u).flatten.length < sensorJsonBytes := by
  have hfirst := body_length_le s .presence
  have hfields := members_length_le s SensorSnapshot.Field.rendered.tail
  have huptime := uint32_length_le u
  have hkeys : (SensorSnapshot.Field.rendered.tail.map fun f => f.key.length + f.width + 4).sum =
      270 := by decide
  have hpresence : SensorSnapshot.Field.presence.key.length = 8 := by decide
  have hlast : (ascii "uptimeMs").length = 8 := by decide
  rw [hkeys] at hfields
  rw [sensorPieces_flatten, membersText, List.flatMap_append, List.length_append,
    List.length_append, List.flatMap_singleton, List.length_cons, text_length, text_length]
  change SensorSnapshot.Field.presence.key.length + (s.body .presence).length + 3 +
    (_ + ((ascii "uptimeMs").length + (Decimal.write u.toNat).length + 3 + 1)) < 320
  change _ ≤ 5 at hfirst
  omega

theorem appendSensorFields_contents (json : Text) (s : SensorSnapshot) (u : UInt32) :
    (appendSensorFields room json s u).contents =
      json.contents ++ (sensorPieces s u).flatten := by
  rw [appendSensorFields, Growable.Buffer.appendAll_contents, Growable.Buffer.reserve_contents]

theorem parse_fields (s : SensorSnapshot) (u : UInt32) :
    parse (0x7B :: (sensorPieces s u).flatten ++ [0x7D]) =
      some (SensorSnapshot.Field.rendered.map (fun f => (f.key, s.json f)) ++
        [(ascii "uptimeMs", .number u.toNat)]) := by
  have hparse := FlatJson.parse_objectText (s.member .presence)
    (SensorSnapshot.Field.rendered.tail.map s.member ++ [uptimeMember u])
  rw [objectText, ← sensorPieces_flatten] at hparse
  rw [hparse]
  rfl

theorem flag_cases (b : Bool) : ((if b then 1 else 0) : UInt8) = 0 ∨
    ((if b then 1 else 0) : UInt8) = 1 := by cases b <;> decide

theorem flag_inj {a b : UInt8} (ha : a = 0 ∨ a = 1) (hb : b = 0 ∨ b = 1)
    (h : decide ((a.toNat : Int) ≠ 0) = decide ((b.toNat : Int) ≠ 0)) :
    (a.toNat : Int) = b.toNat := by
  rcases ha with rfl | rfl <;> rcases hb with rfl | rfl
  · rfl
  · exact absurd h (by decide)
  · exact absurd h (by decide)
  · rfl

/-- A field can be read off its entry in the payload. -/
theorem value_of_json {f : SensorSnapshot.Field} (hs : s.Flags) (ht : t.Flags)
    (h : s.json f = t.json f) : s.value f = t.value f := by
  cases f
  case presence => exact flag_inj hs.1 ht.1 (Value.bool.inj h)
  case audioStreaming => exact flag_inj hs.2.1 ht.2.1 (Value.bool.inj h)
  case pushBackingOff => exact flag_inj hs.2.2 ht.2.2 (Value.bool.inj h)
  all_goals exact Value.number.inj h

theorem sensorPieces_injective (hs : s.Flags) (ht : t.Flags)
    (h : (sensorPieces s u).flatten = (sensorPieces t v).flatten) : s = t ∧ u = v := by
  have hparse := parse_fields s u
  rw [h, parse_fields t v] at hparse
  obtain ⟨hfields, huptime⟩ := List.append_inj' (Option.some.inj hparse) rfl
  have hlast := Value.number.inj (Prod.mk.inj (List.cons_eq_cons.mp huptime).1).2
  refine ⟨?_, SensorSnapshot.toNat32_inj.mp hlast.symm⟩
  apply SensorSnapshot.ext_value
  intro f
  have hentry := List.map_inj_left.mp hfields f f.mem_rendered
  exact value_of_json hs ht (Prod.mk.inj hentry).2.symm

/-- What follows the reservation of a frame is copied into it, the closing brace too. -/
theorem telemetryJson_moves (hroom : ∀ n, n ≤ room n) (s : SensorSnapshot) (u : UInt32) :
    (telemetryJson room s u).moves = ((telemetryOpening room).reserve room
      ((telemetryOpening room).contents.length + sensorJsonBytes)).moves := by
  let opened := (telemetryOpening room).reserve room
    ((telemetryOpening room).contents.length + sensorJsonBytes)
  have hcapacity : (telemetryOpening room).contents.length + sensorJsonBytes ≤ opened.capacity :=
    Growable.Buffer.reserve_capacity hroom
  have hcontents : opened.contents = (telemetryOpening room).contents :=
    Growable.Buffer.reserve_contents
  have hlength := sensorPieces_length_lt s u
  rw [← hcontents] at hcapacity
  have hfits : opened.contents.length + (sensorPieces s u).flatten.length ≤ opened.capacity := by
    omega
  have hfields : appendSensorFields room (telemetryOpening room) s u =
      { opened with contents := opened.contents ++ (sensorPieces s u).flatten } :=
    Growable.Buffer.appendAll_of_fits hfits
  rw [telemetryJson, hfields, Growable.Buffer.append_of_fits]
  change (opened.contents ++ (sensorPieces s u).flatten).length + 1 ≤ opened.capacity
  rw [List.length_append]
  omega

/-- In braces the fields are an object of fourteen members with different keys, which say
what the snapshot and the uptime are, so no two snapshots look alike. The text fits its
reservation and the frame moves to no further buffer. -/
theorem payload_faithful (room : Nat → Nat) :
    (∀ s u, parse (0x7B :: (appendSensorFields room {} s u).contents ++ [0x7D]) =
      some (SensorSnapshot.Field.rendered.map (fun f => (f.key, s.json f)) ++
        [(ascii "uptimeMs", .number u.toNat)])) ∧
    (SensorSnapshot.Field.rendered.map SensorSnapshot.Field.key ++ [ascii "uptimeMs"]).Nodup ∧
    (SensorSnapshot.Field.rendered.map SensorSnapshot.Field.key ++ [ascii "uptimeMs"]).length =
      14 ∧
    (∀ json s t u v, s.Flags → t.Flags →
      (appendSensorFields room json s u).contents = (appendSensorFields room json t v).contents →
      s = t ∧ u = v) ∧
    (∀ json s u, ∃ appended, (appendSensorFields room json s u).contents =
      json.contents ++ appended ∧ appended.length ≤ sensorJsonBytes) ∧
    ((∀ n, n ≤ room n) → ∀ s u, (telemetryJson room s u).moves =
      ((telemetryOpening room).reserve room
        ((telemetryOpening room).contents.length + sensorJsonBytes)).moves) := by
  refine ⟨?_, SensorSnapshot.Field.keys_nodup, by decide, ?_, ?_, ?_⟩
  · intro s u
    rw [appendSensorFields_contents]
    exact parse_fields s u
  · intro json s t u v hs ht h
    rw [appendSensorFields_contents, appendSensorFields_contents] at h
    exact sensorPieces_injective hs ht (List.append_cancel_left h)
  · intro json s u
    exact ⟨(sensorPieces s u).flatten, appendSensorFields_contents room json s u,
      Nat.le_of_lt (sensorPieces_length_lt s u)⟩
  · intro hroom s u
    exact telemetryJson_moves room hroom s u

end text

end RoomWatchdog
