import RoomWatchdog.Library.FlatJson
import RoomWatchdog.Notifications

namespace RoomWatchdog
open FlatJson (ascii quote backslash readString readValue prepend hexValue)
open Notifications (EventType)

def hexDigit (d : Nat) : UInt8 := if d < 10 then UInt8.ofNat (0x30 + d) else UInt8.ofNat (0x57 + d)

/-- snprintf with "\\u%04x" for a value of 16 bits. -/
def unicodeEscape (v : Nat) : List UInt8 :=
  ascii "\\u" ++ [hexDigit (v / 4096 % 16), hexDigit (v / 256 % 16), hexDigit (v / 16 % 16),
    hexDigit (v % 16)]

/-- What the switch of jsonEscape appends for one character. -/
def escapeCharacter (character : UInt8) : List UInt8 :=
  if character = 0x22 then ascii "\\\""
  else if character = 0x5C then ascii "\\\\"
  else if character = 0x0A then ascii "\\n"
  else if character = 0x0D then ascii "\\r"
  else if character = 0x09 then ascii "\\t"
  else if character < 0x20 then unicodeEscape character.toNat
  else [character]

def jsonEscape (text : List UInt8) : List UInt8 := text.flatMap escapeCharacter

/-- The body of the POST in pushGotify. -/
def gotifyBody (message : List UInt8) : List UInt8 :=
  ascii "\x7b\"title\":\"ESP32 Room Watchdog\",\"message\":\"" ++ jsonEscape message ++
    ascii "\",\"priority\":5\x7d"

/-- The first argument of alert and of live. -/
def eventText : EventType → List UInt8
  | .boot => ascii "boot"
  | .presence => ascii "presence"
  | .cleared => ascii "cleared"
  | .moved => ascii "moved"
  | .sound => ascii "sound"
  | .calibration => ascii "calibration"

/-- The frame that wsPublishEvent builds. -/
def eventJson (type : EventType) (message : List UInt8) (uptimeMs : UInt32) : List UInt8 :=
  ascii "\x7b\"type\":\"event\",\"event\":\"" ++ eventText type ++
    (ascii "\",\"message\":\"" ++ jsonEscape message ++ ascii "\"") ++
    (ascii ",\"uptimeMs\":" ++ Decimal.write uptimeMs.toNat) ++ ascii "\x7d"

/-- What wsPublishEvent hands to the socket, if anything. -/
def wsPublishEvent (id : UInt32) (availableForWrite : Bool) (type : EventType)
    (message : List UInt8) (uptimeMs : UInt32) : Option (List UInt8) :=
  if id = 0 ∨ availableForWrite = false then none else some (eventJson type message uptimeMs)

theorem hexValue_hexDigit {d : Nat} (hd : d < 16) : hexValue (hexDigit d) = some d := by
  have hall : ∀ d < 16, hexValue (hexDigit d) = some d := by decide
  exact hall d hd

/-- Four digits behind \u are read as the byte they stand for. -/
theorem readString_unicodeEscape (c : UInt8) (text : List UInt8) :
    readString .plain (unicodeEscape c.toNat ++ text) = prepend c (readString .plain text) := by
  have hlt := c.toNat_lt
  have h3 : c.toNat / 4096 % 16 = 0 := by omega
  have h2 : c.toNat / 256 % 16 = 0 := by omega
  have h1 := @hexValue_hexDigit (c.toNat / 16 % 16) (by omega)
  have h0 := @hexValue_hexDigit (c.toNat % 16) (by omega)
  have hvalue : 16 * (c.toNat / 16 % 16) + c.toNat % 16 = c.toNat := by omega
  have hplain : ∀ rest, readString .plain (ascii "\\u" ++ rest) = readString (.hex 3 0) rest := by
    intro rest
    rfl
  have hzero : hexValue (hexDigit 0) = some 0 := by decide
  rw [unicodeEscape, List.append_assoc, hplain, h3, h2]
  simp only [List.cons_append, List.nil_append, readString, hzero, h1, h0, Option.bind_eq_bind,
    Option.bind_some, Nat.mul_zero, Nat.add_zero, Nat.zero_add, hvalue, if_pos hlt,
    UInt8.ofNat_toNat]

/-- The reader takes each escape back to its character and is between characters again. -/
theorem readString_escapeCharacter (c : UInt8) (text : List UInt8) :
    readString .plain (escapeCharacter c ++ text) = prepend c (readString .plain text) := by
  rw [escapeCharacter]
  split_ifs with hquote hbackslash hn hr ht hcontrol
  · rw [hquote]
    rfl
  · rw [hbackslash]
    rfl
  · rw [hn]
    rfl
  · rw [hr]
    rfl
  · rw [ht]
    rfl
  · exact readString_unicodeEscape c text
  · have hquote' : c ≠ quote := hquote
    have hbackslash' : c ≠ backslash := hbackslash
    rw [List.singleton_append, readString, if_neg hquote', if_neg hbackslash', if_neg hcontrol]

theorem readString_jsonEscape (s rest : List UInt8) :
    readString .plain (jsonEscape s ++ quote :: rest) = some (s, rest) := by
  induction s with
  | nil => rfl
  | cons c s ih =>
    rw [jsonEscape, List.flatMap_cons, List.append_assoc, readString_escapeCharacter]
    change prepend c (readString .plain (jsonEscape s ++ quote :: rest)) = _
    rw [ih]
    rfl

theorem jsonEscape_injective : Function.Injective jsonEscape := by
  intro s t h
  have hs := readString_jsonEscape s []
  rw [h, readString_jsonEscape t []] at hs
  exact (Prod.mk.inj (Option.some.inj hs)).1.symm

section frames
open FlatJson (Member Plain Reads parse objectText membersText)

def stringMember (key : List UInt8) (hkey : Plain key) (value : List UInt8) : Member where
  key := key
  body := quote :: jsonEscape value ++ [quote]
  value := .text value
  plain := hkey
  reads := FlatJson.reads_text (readString_jsonEscape value)

def numberMember (key : List UInt8) (hkey : Plain key) (n : Int) : Member where
  key := key
  body := Decimal.write n
  value := .number n
  plain := hkey
  reads := FlatJson.reads_number n

theorem parse_gotifyBody (message : List UInt8) :
    parse (gotifyBody message) = some [
      (ascii "title", .text (ascii "ESP32 Room Watchdog")),
      (ascii "message", .text message),
      (ascii "priority", .number 5)] := by
  have hbody : gotifyBody message = objectText
      (stringMember (ascii "title") (by decide) (ascii "ESP32 Room Watchdog"))
      [stringMember (ascii "message") (by decide) message,
        numberMember (ascii "priority") (by decide) 5] := by
    simp only [gotifyBody, objectText, membersText, Member.text, stringMember, numberMember,
      List.flatMap_cons, List.flatMap_nil, List.append_assoc, List.cons_append, List.nil_append]
    rfl
  rw [hbody, FlatJson.parse_objectText]
  rfl

theorem eventText_plain (type : EventType) : jsonEscape (eventText type) = eventText type := by
  cases type <;> decide

theorem parse_eventJson (type : EventType) (message : List UInt8) (uptimeMs : UInt32) :
    parse (eventJson type message uptimeMs) = some [
      (ascii "type", .text (ascii "event")),
      (ascii "event", .text (eventText type)),
      (ascii "message", .text message),
      (ascii "uptimeMs", .number uptimeMs.toNat)] := by
  have hbody : eventJson type message uptimeMs = objectText
      (stringMember (ascii "type") (by decide) (ascii "event"))
      [stringMember (ascii "event") (by decide) (eventText type),
        stringMember (ascii "message") (by decide) message,
        numberMember (ascii "uptimeMs") (by decide) uptimeMs.toNat] := by
    simp only [eventJson, objectText, membersText, Member.text, stringMember, numberMember,
      eventText_plain, List.flatMap_cons, List.flatMap_nil, List.append_assoc, List.cons_append,
      List.nil_append]
    rfl
  rw [hbody, FlatJson.parse_objectText]
  rfl

/-- An escaped text between quotes is read as that text and no further than the quote behind
it. So the escape never maps two texts to one, and a message cannot reach the members around
it: the push and the event frame say what they were built from. -/
theorem json_escape_round_trip :
    (∀ s rest : List UInt8,
      readValue (quote :: jsonEscape s ++ quote :: rest) = some (.text s, rest)) ∧
    Function.Injective jsonEscape ∧
    (∀ message, parse (gotifyBody message) = some [
      (ascii "title", .text (ascii "ESP32 Room Watchdog")),
      (ascii "message", .text message),
      (ascii "priority", .number 5)]) ∧
    ∀ id availableForWrite type message uptimeMs,
      (wsPublishEvent id availableForWrite type message uptimeMs).bind parse =
        if id = 0 ∨ availableForWrite = false then none
        else some [
          (ascii "type", .text (ascii "event")),
          (ascii "event", .text (eventText type)),
          (ascii "message", .text message),
          (ascii "uptimeMs", .number uptimeMs.toNat)] := by
  refine ⟨?_, jsonEscape_injective, parse_gotifyBody, ?_⟩
  · intro s rest
    rw [List.cons_append, readValue, if_pos rfl, readString_jsonEscape]
    rfl
  · intro id availableForWrite type message uptimeMs
    rw [wsPublishEvent]
    split_ifs with hclosed
    · rfl
    · exact parse_eventJson type message uptimeMs

end frames

end RoomWatchdog
