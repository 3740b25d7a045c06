import RoomWatchdog.ArduinoString
import RoomWatchdog.Config
import RoomWatchdog.Library.FlatJson

namespace RoomWatchdog.Ws
open FlatJson (ascii)

/-- The fields of a data event's frame info that handleCommand reads. -/
structure AwsFrameInfo where
  final : UInt8
  opcode : UInt8
  len : UInt64
  index : UInt64

def wsText : UInt8 := 0x01

def errorText (message : String) : List UInt8 :=
  ascii "\x7b\"type\":\"error\",\"message\":\"" ++ ascii message ++ ascii "\"\x7d"

/-- What a data event leads to: the String it is copied into, whether requestCalibration is
called, and the answer to the client. -/
structure Handled where
  command : Text := {}
  requested : Bool := false
  reply : Option (List UInt8) := none

variable (room : Nat → Nat)

/-- The copy loop, one += for each byte. -/
def copyCommand (data : List UInt8) : Text :=
  (Growable.Buffer.reserve room {} data.length).appendAll room (data.map fun byte => [byte])

def handleCommand (info : Option AwsFrameInfo) (data : List UInt8) : Handled :=
  match info with
  | none => {}
  | some info =>
    if info.final = 0 ∨ info.index ≠ 0 ∨ info.len.toNat ≠ data.length ∨ info.opcode ≠ wsText then
      {}
    else if data.length > Config.wsCommandMax then
      { reply := some (errorText "command too long") }
    else
      let command := Text.trim (copyCommand room data)
      if Text.equals command (ascii "calibrate") then
        { command, requested := true }
      else
        { command, reply := some (errorText "unknown command") }

/-- A complete text frame that is a message of its own, and all of it. -/
def Whole (info : Option AwsFrameInfo) (data : List UInt8) : Prop :=
  ∃ i ∈ info, i.final ≠ 0 ∧ i.opcode = wsText ∧ i.index = 0 ∧ i.len.toNat = data.length

/-- The one command, with whitespace around it or without. -/
def Calibrate (info : Option AwsFrameInfo) (data : List UInt8) : Prop :=
  Whole info data ∧ data.length ≤ Config.wsCommandMax ∧
    Strip.Pads isspace data (ascii "calibrate")

/-- Whitespace, the command, and then a NUL with anything behind it. -/
def HiddenTail (data : List UInt8) : Prop :=
  ∃ lead rest : List UInt8, (∀ b ∈ lead, isspace b = true) ∧
    data = lead ++ ascii "calibrate" ++ 0 :: rest

/-- A calibration is requested for the command alone, and a longer frame is refused with
nothing of it copied. -/
structure Exact (info : Option AwsFrameInfo) (data : List UInt8) : Prop where
  requests : (handleCommand room info data).requested = true ↔ Calibrate info data
  refuses : Config.wsCommandMax < data.length → (handleCommand room info data).command = {} ∧
    (Whole info data → (handleCommand room info data).reply = some (errorText "command too long"))

section cases
variable {room} {info : Option AwsFrameInfo} {data : List UInt8}

theorem handle_other (h : ¬ Whole info data) : handleCommand room info data = {} := by
  cases info with
  | none => rfl
  | some info =>
    rw [handleCommand]
    apply if_pos
    by_contra hpass
    push Not at hpass
    obtain ⟨hfinal, hindex, hlen, hopcode⟩ := hpass
    exact h ⟨info, rfl, hfinal, hopcode, hindex, hlen⟩

theorem handle_whole (h : Whole info data) : handleCommand room info data =
    if data.length > Config.wsCommandMax then { reply := some (errorText "command too long") }
    else if Text.equals (Text.trim (copyCommand room data)) (ascii "calibrate") then
      { command := Text.trim (copyCommand room data), requested := true }
    else
      { command := Text.trim (copyCommand room data)
        reply := some (errorText "unknown command") } := by
  obtain ⟨info, rfl, hfinal, hopcode, hindex, hlen⟩ := h
  have hpass : ¬ (info.final = 0 ∨ info.index ≠ 0 ∨ info.len.toNat ≠ data.length ∨
      info.opcode ≠ wsText) := by
    rintro (hzero | hlate | hpart | hother)
    · exact hfinal hzero
    · exact hlate hindex
    · exact hpart hlen
    · exact hother hopcode
  rw [handleCommand, if_neg hpass]

theorem copyCommand_contents : (copyCommand room data).contents = data := by
  rw [copyCommand, Growable.Buffer.appendAll_contents, Growable.Buffer.reserve_contents]
  change [] ++ (data.map fun byte => [byte]).flatten = data
  rw [List.nil_append, ← List.flatMap_def, List.flatMap_singleton']

/-- The reservation is the one allocation. -/
theorem copyCommand_moves (hroom : ∀ n, n ≤ room n) : (copyCommand room data).moves ≤ 1 := by
  have hcapacity : data.length ≤ (Growable.Buffer.reserve room ({} : Text) data.length).capacity :=
    Growable.Buffer.reserve_capacity hroom
  have hlength : (data.map fun byte => [byte]).flatten.length = data.length := by
    rw [← List.flatMap_def, List.flatMap_singleton']
  rw [copyCommand, Growable.Buffer.appendAll_of_fits]
  · rw [Growable.Buffer.reserve]
    split_ifs
    · exact Nat.zero_le 1
    · exact Nat.le_refl 1
  · rw [Growable.Buffer.reserve_contents, hlength]
    change 0 + data.length ≤ _
    omega

theorem calibrate_bare : Strip.Bare isspace (ascii "calibrate") := by decide

theorem hiddenTail_iff : HiddenTail data ↔
    ∃ rest, Strip.strip isspace data = ascii "calibrate" ++ 0 :: rest := by
  have hstem : Strip.Bare isspace (ascii "calibrate" ++ [0]) := by decide
  have hbegins := Strip.strip_begins_iff (l := data) (by simp) hstem
  simp only [List.append_assoc, List.singleton_append] at hbegins
  rw [hbegins, HiddenTail]
  simp only [List.append_assoc]

/-- The comparison takes a NUL behind the word for the end of the String. -/
theorem equals_calibrate_iff :
    Text.equals (Text.trim (copyCommand room data)) (ascii "calibrate") = true ↔
      Strip.Pads isspace data (ascii "calibrate") ∨ HiddenTail data := by
  rw [Text.equals, Text.trim, copyCommand_contents, strcmpEqual_iff (by decide),
    Strip.strip_eq_iff calibrate_bare, hiddenTail_iff]

theorem hiddenTail_not_pads (h : HiddenTail data) :
    ¬ Strip.Pads isspace data (ascii "calibrate") := by
  intro hpads
  obtain ⟨rest, hrest⟩ := hiddenTail_iff.mp h
  rw [(Strip.strip_eq_iff calibrate_bare).mpr hpads] at hrest
  cases List.self_eq_append_right.mp hrest

theorem requested_iff : (handleCommand room info data).requested = true ↔
    Whole info data ∧ data.length ≤ Config.wsCommandMax ∧
      (Strip.Pads isspace data (ascii "calibrate") ∨ HiddenTail data) := by
  by_cases hwhole : Whole info data
  · rw [handle_whole hwhole]
    by_cases hlong : data.length > Config.wsCommandMax
    · rw [if_pos hlong]
      simp [Nat.not_le_of_gt hlong]
    · rw [if_neg hlong]
      by_cases hequal : Text.equals (Text.trim (copyCommand room data)) (ascii "calibrate") = true
      · rw [if_pos hequal]
        simp only [true_iff]
        exact ⟨hwhole, Nat.le_of_not_gt hlong, equals_calibrate_iff.mp hequal⟩
      · rw [if_neg hequal]
        simp only [Bool.false_eq_true, false_iff]
        rintro ⟨-, -, hpayload⟩
        exact hequal (equals_calibrate_iff.mpr hpayload)
  · rw [handle_other hwhole]
    simp [hwhole]

theorem refused (hlong : Config.wsCommandMax < data.length) :
    (handleCommand room info data).command = {} ∧
    (Whole info data →
      (handleCommand room info data).reply = some (errorText "command too long")) := by
  by_cases hwhole : Whole info data
  · rw [handle_whole hwhole, if_pos hlong]
    exact ⟨rfl, fun _ => rfl⟩
  · rw [handle_other hwhole]
    exact ⟨rfl, fun h => absurd h hwhole⟩

/-- No client gets more than one small buffer. -/
theorem command_bounded (hroom : ∀ n, n ≤ room n) :
    (handleCommand room info data).command.contents.length ≤ Config.wsCommandMax ∧
    (handleCommand room info data).command.moves ≤ 1 := by
  by_cases hwhole : Whole info data
  · by_cases hlong : Config.wsCommandMax < data.length
    · rw [(refused hlong).1]
      exact ⟨Nat.zero_le _, Nat.zero_le 1⟩
    · have hcommand : (handleCommand room info data).command =
          Text.trim (copyCommand room data) := by
        rw [handle_whole hwhole, if_neg hlong]
        split_ifs <;> rfl
      have hstripped := Strip.length_strip_le isspace data
      rw [hcommand, Text.trim, copyCommand_contents]
      exact ⟨Nat.le_trans hstripped (Nat.le_of_not_lt hlong), copyCommand_moves hroom⟩
  · rw [handle_other hwhole]
    exact ⟨Nat.zero_le _, Nat.zero_le 1⟩

end cases

/-- On every data event: the calibration is requested for the command alone, and a longer frame
refused uncopied, exactly if the event does not hide a tail behind a NUL. -/
theorem command_exact_iff (info : Option AwsFrameInfo) (data : List UInt8) :
    Exact room info data ↔
      ¬ (Whole info data ∧ data.length ≤ Config.wsCommandMax ∧ HiddenTail data) := by
  constructor
  · rintro ⟨hrequests, -⟩ ⟨hwhole, hshort, hhidden⟩
    rw [requested_iff] at hrequests
    obtain ⟨-, -, hpads⟩ := hrequests.mp ⟨hwhole, hshort, Or.inr hhidden⟩
    exact hiddenTail_not_pads hhidden hpads
  · intro hplain
    refine ⟨?_, refused⟩
    rw [requested_iff, Calibrate]
    constructor
    · rintro ⟨hwhole, hshort, hpads | hhidden⟩
      · exact ⟨hwhole, hshort, hpads⟩
      · exact absurd ⟨hwhole, hshort, hhidden⟩ hplain
    · rintro ⟨hwhole, hshort, hpads⟩
      exact ⟨hwhole, hshort, Or.inl hpads⟩

/-- A NUL and anything behind the word: a payload that is not the command starts it. -/
theorem hidden_tail_accepted :
    let info : Option AwsFrameInfo := some ⟨1, 1, 14, 0⟩
    let data := ascii "calibrate" ++ 0 :: ascii "off!"
    (handleCommand id info data).requested = true ∧ ¬ Calibrate info data ∧
      ¬ Exact id info data := by
  intro info data
  have hrequested : (handleCommand id info data).requested = true := by decide
  have hother : ¬ Calibrate info data := by
    rintro ⟨-, -, hpads⟩
    exact absurd ((Strip.strip_eq_iff calibrate_bare).mpr hpads) (by decide)
  exact ⟨hrequested, hother, fun h => hother (h.requests.mp hrequested)⟩

end RoomWatchdog.Ws
