import RoomWatchdog.JsonEscape
import RoomWatchdog.Telemetry.Payload
import RoomWatchdog.Ws.Command

namespace RoomWatchdog
open FlatJson (ascii Member Value parse objectText membersText)
open Notifications (EventType)

/-- A snapshot as takeSensorSnapshot returns them. -/
structure Sensed extends SensorSnapshot where
  flags : toSensorSnapshot.Flags

variable (room : Nat → Nat)

/-- The body of GET /status. -/
def statusJson (snapshot : SensorSnapshot) (uptimeMs : UInt32) (telemetryClient : Bool) : Text :=
  let json := Growable.Buffer.append room {} (ascii "\x7b")
  let json := appendSensorFields room json snapshot uptimeMs
  let json := json.append room
    (ascii ",\"telemetryClient\":" ++ ascii (if telemetryClient then "true" else "false"))
  json.append room (ascii "\x7d")

/-- The frame of sendHello. -/
def helloJson (uptimeMs : UInt32) : List UInt8 :=
  ascii "\x7b\"type\":\"hello\"" ++
    (ascii ",\"host\":\"" ++ ascii Config.mdnsHostname ++ ascii ".local\"") ++
    (ascii ",\"audioSampleRate\":" ++ Decimal.write Config.audioSampleRateHz) ++
    (ascii ",\"audioPort\":" ++ Decimal.write Config.audioPort.toNat) ++
    (ascii ",\"heartbeatMs\":" ++ Decimal.write Config.wsHeartbeatMs.toNat) ++
    (ascii ",\"minGate\":" ++ Decimal.write Config.radarMinGate.toNat) ++
    (ascii ",\"maxGate\":" ++ Decimal.write Config.radarMaxGate.toNat) ++
    (ascii ",\"uptimeMs\":" ++ Decimal.write uptimeMs.toNat) ++ ascii "\x7d"

/-- An answer that is the same text every time, by its one or two members. -/
inductive Fixed where
  | commandTooLong
  | unknownCommand
  | unauthorized
  | notFound
  | calibrationScheduled
  | streamActive
  | streamFailed
  deriving DecidableEq

namespace Fixed

def json : Fixed → List UInt8
  | commandTooLong => Ws.errorText "command too long"
  | unknownCommand => Ws.errorText "unknown command"
  | unauthorized => ascii "\x7b\"error\":\"missing or wrong API token\"\x7d"
  | notFound => ascii "\x7b\"error\":\"not found\"\x7d"
  | calibrationScheduled => ascii "\x7b\"status\":\"calibration scheduled in 10s\"\x7d"
  | streamActive => ascii "\x7b\"error\":\"an audio stream is already active\"\x7d"
  | streamFailed => ascii "\x7b\"error\":\"audio stream task could not be started\"\x7d"

def meaning : Fixed → List (List UInt8 × Value)
  | commandTooLong =>
    [(ascii "type", .text (ascii "error")), (ascii "message", .text (ascii "command too long"))]
  | unknownCommand =>
    [(ascii "type", .text (ascii "error")), (ascii "message", .text (ascii "unknown command"))]
  | unauthorized => [(ascii "error", .text (ascii "missing or wrong API token"))]
  | notFound => [(ascii "error", .text (ascii "not found"))]
  | calibrationScheduled => [(ascii "status", .text (ascii "calibration scheduled in 10s"))]
  | streamActive => [(ascii "error", .text (ascii "an audio stream is already active"))]
  | streamFailed => [(ascii "error", .text (ascii "audio stream task could not be started"))]

theorem parse_json (f : Fixed) : parse f.json = some f.meaning := by
  cases f <;> decide +kernel

theorem meaning_injective : Function.Injective meaning := by
  intro f g h
  cases f <;> cases g <;> first | rfl | exact absurd h (by decide)

end Fixed

/-- All that the node sends to a client as JSON, and the body of a push. -/
inductive Document where
  | status (snapshot : Sensed) (uptimeMs : UInt32) (telemetryClient : Bool)
  | telemetry (snapshot : Sensed) (uptimeMs : UInt32)
  | hello (uptimeMs : UInt32)
  | event (type : EventType) (message : List UInt8) (uptimeMs : UInt32)
  | push (message : List UInt8)
  | fixed (answer : Fixed)

/-- The kinds, between which a client decides by the first member. -/
inductive Document.Kind where
  | status
  | telemetry
  | hello
  | event
  | push
  | fixed
  deriving DecidableEq

namespace Document

def kind : Document → Kind
  | status _ _ _ => .status
  | telemetry _ _ => .telemetry
  | hello _ => .hello
  | event _ _ _ => .event
  | push _ => .push
  | fixed _ => .fixed

def text : Document → List UInt8
  | status snapshot uptimeMs telemetryClient =>
    (statusJson room snapshot.toSensorSnapshot uptimeMs telemetryClient).contents
  | telemetry snapshot uptimeMs => (telemetryJson room snapshot.toSensorSnapshot uptimeMs).contents
  | hello uptimeMs => helloJson uptimeMs
  | event type message uptimeMs => eventJson type message uptimeMs
  | push message => gotifyBody message
  | fixed answer => answer.json

/-- The members that a status and a frame of telemetry share. -/
def sensorFields (snapshot : SensorSnapshot) (uptimeMs : UInt32) : List (List UInt8 × Value) :=
  SensorSnapshot.Field.rendered.map (fun f => (f.key, snapshot.json f)) ++
    [(ascii "uptimeMs", .number uptimeMs.toNat)]

def meaning : Document → List (List UInt8 × Value)
  | status snapshot uptimeMs telemetryClient =>
    sensorFields snapshot.toSensorSnapshot uptimeMs ++
      [(ascii "telemetryClient", .bool telemetryClient)]
  | telemetry snapshot uptimeMs =>
    (ascii "type", .text (ascii "telemetry")) :: sensorFields snapshot.toSensorSnapshot uptimeMs
  | hello uptimeMs => [
    (ascii "type", .text (ascii "hello")),
    (ascii "host", .text (ascii "watchdog.local")),
    (ascii "audioSampleRate", .number 48000),
    (ascii "audioPort", .number 81),
    (ascii "heartbeatMs", .number 2000),
    (ascii "minGate", .number 1),
    (ascii "maxGate", .number 8),
    (ascii "uptimeMs", .number uptimeMs.toNat)]
  | event type message uptimeMs => [
    (ascii "type", .text (ascii "event")),
    (ascii "event", .text (eventText type)),
    (ascii "message", .text message),
    (ascii "uptimeMs", .number uptimeMs.toNat)]
  | push message => [
    (ascii "title", .text (ascii "ESP32 Room Watchdog")),
    (ascii "message", .text message),
    (ascii "priority", .number 5)]
  | fixed answer => answer.meaning

section text
variable {room} {s t : SensorSnapshot} {u v : UInt32}

theorem sensorFields_members (s : SensorSnapshot) (u : UInt32) :
    sensorFields s u = ((SensorSnapshot.Field.rendered.map s.member) ++ [uptimeMember u]).map
      Member.meaning := by
  rw [sensorFields, List.map_append, List.map_map]
  rfl

theorem parse_status (s : SensorSnapshot) (u : UInt32) (telemetryClient : Bool) :
    parse (statusJson room s u telemetryClient).contents =
      some (sensorFields s u ++ [(ascii "telemetryClient", .bool telemetryClient)]) := by
  let client : Member := ⟨ascii "telemetryClient",
    ascii (if telemetryClient then "true" else "false"), .bool telemetryClient, by decide,
    FlatJson.reads_bool telemetryClient⟩
  have hbody : (statusJson room s u telemetryClient).contents = objectText (s.member .presence)
      (SensorSnapshot.Field.rendered.tail.map s.member ++ [uptimeMember u] ++ [client]) := by
    simp only [statusJson, Growable.Buffer.append_contents, appendSensorFields_contents,
      sensorPieces_flatten, objectText, membersText, List.flatMap_append, List.flatMap_singleton]
    simp only [List.append_assoc, List.cons_append]
    rfl
  rw [hbody, FlatJson.parse_objectText, sensorFields_members]
  rfl

theorem parse_telemetry (s : SensorSnapshot) (u : UInt32) :
    parse (telemetryJson room s u).contents =
      some ((ascii "type", .text (ascii "telemetry")) :: sensorFields s u) := by
  have hbody : (telemetryJson room s u).contents = objectText
      (stringMember (ascii "type") (by decide) (ascii "telemetry"))
      (s.member .presence ::
        (SensorSnapshot.Field.rendered.tail.map s.member ++ [uptimeMember u])) := by
    simp only [telemetryJson, Growable.Buffer.append_contents, appendSensorFields_contents,
      sensorPieces_flatten, telemetryOpening, objectText, membersText, List.flatMap_cons]
    simp only [List.append_assoc, List.cons_append]
    rfl
  rw [hbody, FlatJson.parse_objectText, sensorFields_members]
  rfl

theorem parse_hello (u : UInt32) : parse (helloJson u) = some (meaning (.hello u)) := by
  have hbody : helloJson u = objectText
      (stringMember (ascii "type") (by decide) (ascii "hello"))
      [stringMember (ascii "host") (by decide) (ascii "watchdog.local"),
        numberMember (ascii "audioSampleRate") (by decide) 48000,
        numberMember (ascii "audioPort") (by decide) 81,
        numberMember (ascii "heartbeatMs") (by decide) 2000,
        numberMember (ascii "minGate") (by decide) 1,
        numberMember (ascii "maxGate") (by decide) 8,
        numberMember (ascii "uptimeMs") (by decide) u.toNat] := by
    simp only [helloJson, objectText, membersText, Member.text, stringMember, numberMember,
      List.flatMap_cons, List.flatMap_nil, List.append_assoc, List.cons_append, List.nil_append]
    rfl
  rw [hbody, FlatJson.parse_objectText]
  rfl

theorem parse_text (d : Document) : parse (d.text room) = some d.meaning := by
  cases d with
  | status snapshot uptimeMs telemetryClient => exact parse_status _ _ _
  | telemetry snapshot uptimeMs => exact parse_telemetry _ _
  | hello uptimeMs => exact parse_hello uptimeMs
  | event type message uptimeMs => exact parse_eventJson type message uptimeMs
  | push message => exact parse_gotifyBody message
  | fixed answer => exact answer.parse_json

theorem fixed_nodup (f : Fixed) : (f.meaning.map Prod.fst).Nodup := by cases f <;> decide

/-- No key stands twice, so that it does not matter which of two a client would take. -/
theorem keys_nodup (d : Document) : (d.meaning.map Prod.fst).Nodup := by
  have hfields : ∀ (s : SensorSnapshot) (u : UInt32), (sensorFields s u).map Prod.fst =
      SensorSnapshot.Field.rendered.map SensorSnapshot.Field.key ++ [ascii "uptimeMs"] := by
    intro s u
    rw [sensorFields, List.map_append, List.map_map]
    rfl
  cases d with
  | status snapshot uptimeMs telemetryClient =>
    rw [meaning, List.map_append, hfields]
    show (_ ++ [ascii "telemetryClient"]).Nodup
    decide
  | telemetry snapshot uptimeMs =>
    rw [meaning, List.map_cons, hfields]
    decide
  | hello uptimeMs =>
    show ["type", "host", "audioSampleRate", "audioPort", "heartbeatMs", "minGate", "maxGate",
      "uptimeMs"].map ascii |>.Nodup
    decide
  | event type message uptimeMs =>
    show ["type", "event", "message", "uptimeMs"].map ascii |>.Nodup
    decide
  | push message =>
    show ["title", "message", "priority"].map ascii |>.Nodup
    decide
  | fixed answer => exact fixed_nodup answer

theorem sensorFields_injective (hs : s.Flags) (ht : t.Flags)
    (h : sensorFields s u = sensorFields t v) : s = t ∧ u = v := by
  obtain ⟨hfields, huptime⟩ := List.append_inj' h rfl
  have hlast := Value.number.inj (Prod.mk.inj (List.cons_eq_cons.mp huptime).1).2
  refine ⟨?_, SensorSnapshot.toNat32_inj.mp hlast⟩
  apply SensorSnapshot.ext_value
  intro f
  have hentry := List.map_inj_left.mp hfields f f.mem_rendered
  exact value_of_json hs ht (Prod.mk.inj hentry).2

theorem eventText_injective : Function.Injective eventText := by
  intro a b h
  cases a <;> cases b <;> first | rfl | exact absurd h (by decide)

def kindOf (members : List (List UInt8 × Value)) : Kind :=
  match members with
  | [] => .fixed
  | (key, value) :: _ =>
    if key = ascii "presence" then .status
    else if key = ascii "title" then .push
    else if key ≠ ascii "type" then .fixed
    else if value = .text (ascii "telemetry") then .telemetry
    else if value = .text (ascii "hello") then .hello
    else if value = .text (ascii "event") then .event
    else .fixed

theorem kindOf_meaning (d : Document) : kindOf d.meaning = d.kind := by
  cases d with
  | status snapshot uptimeMs telemetryClient => rfl
  | telemetry snapshot uptimeMs => rfl
  | hello uptimeMs => rfl
  | event type message uptimeMs => rfl
  | push message => rfl
  | fixed answer => cases answer <;> rfl

theorem uptime_inj {u v : UInt32} (h : Value.number u.toNat = Value.number v.toNat) : u = v :=
  SensorSnapshot.toNat32_inj.mp (Value.number.inj h)

theorem sensed_ext {s t : Sensed} (h : s.toSensorSnapshot = t.toSensorSnapshot) : s = t := by
  cases s
  cases t
  congr

/-- Documents of one kind say what they were made from. -/
theorem meaning_injective : Function.Injective meaning := by
  intro d d' h
  have hkind : d.kind = d'.kind := by rw [← kindOf_meaning, h, kindOf_meaning]
  cases d with
  | status s u c =>
    cases d' with
    | status t v b =>
      obtain ⟨hfields, hclient⟩ := List.append_inj' h rfl
      obtain ⟨hsame, rfl⟩ := sensorFields_injective s.flags t.flags hfields
      obtain rfl := sensed_ext hsame
      have hflag := Value.bool.inj (Prod.mk.inj (List.cons.inj hclient).1).2
      rw [hflag]
    | _ => cases hkind
  | telemetry s u =>
    cases d' with
    | telemetry t v =>
      obtain ⟨hsame, rfl⟩ := sensorFields_injective s.flags t.flags (List.cons.inj h).2
      rw [sensed_ext hsame]
    | _ => cases hkind
  | hello u =>
    cases d' with
    | hello v =>
      simp only [meaning, List.cons.injEq, Prod.mk.injEq, true_and, and_true] at h
      rw [uptime_inj h]
    | _ => cases hkind
  | event type message u =>
    cases d' with
    | event type' message' v =>
      simp only [meaning, List.cons.injEq, Prod.mk.injEq, true_and, and_true] at h
      obtain ⟨htype, hmessage, huptime⟩ := h
      obtain rfl := eventText_injective (Value.text.inj htype)
      obtain rfl := Value.text.inj hmessage
      rw [uptime_inj huptime]
    | _ => cases hkind
  | push message =>
    cases d' with
    | push message' =>
      simp only [meaning, List.cons.injEq, Prod.mk.injEq, true_and, and_true] at h
      rw [Value.text.inj h]
    | _ => cases hkind
  | fixed answer =>
    cases d' with
    | fixed answer' => rw [Fixed.meaning_injective h]
    | _ => cases hkind

end text

/-- What handleCommand answers. -/
theorem reply_fixed {info : Option Ws.AwsFrameInfo} {data reply : List UInt8}
    (h : (Ws.handleCommand room info data).reply = some reply) :
    reply = text room (.fixed .commandTooLong) ∨ reply = text room (.fixed .unknownCommand) := by
  by_cases hwhole : Ws.Whole info data
  · rw [Ws.handle_whole hwhole] at h
    split_ifs at h
    · exact Or.inl (Option.some.inj h).symm
    · exact Or.inr (Option.some.inj h).symm
  · rw [Ws.handle_other hwhole] at h
    cases h

/-- Everything the node says in JSON, to any client, is an object in which no key stands twice
and which says exactly what it was made from: its kind shows in the first member, whatever
strings, readings and times it carries, and no two different documents have one text. A status
and a frame of telemetry carry the same members of a snapshot. What the socket code hands out
are such documents. -/
theorem documents_round_trip :
    (∀ d : Document, parse (d.text room) = some d.meaning ∧ (d.meaning.map Prod.fst).Nodup ∧
      kindOf d.meaning = d.kind) ∧
    Function.Injective (text room) ∧
    (∀ s u c, (status s u c).meaning.dropLast = (telemetry s u).meaning.tail) ∧
    (∀ info data reply, (Ws.handleCommand room info data).reply = some reply →
      ∃ answer, reply = text room (.fixed answer)) ∧
    ∀ id availableForWrite type message uptimeMs frame,
      wsPublishEvent id availableForWrite type message uptimeMs = some frame →
      frame = text room (.event type message uptimeMs) := by
  refine ⟨fun d => ⟨parse_text d, keys_nodup d, kindOf_meaning d⟩, ?_, ?_, ?_, ?_⟩
  · intro d d' h
    apply meaning_injective
    apply Option.some.inj
    rw [← @parse_text room, h, parse_text]
  · intro s u c
    exact List.dropLast_concat
  · intro info data reply h
    rcases reply_fixed room h with hlong | hunknown
    · exact ⟨_, hlong⟩
    · exact ⟨_, hunknown⟩
  · intro id availableForWrite type message uptimeMs frame h
    rw [wsPublishEvent] at h
    split_ifs at h
    exact (Option.some.inj h).symm

end Document

end RoomWatchdog
