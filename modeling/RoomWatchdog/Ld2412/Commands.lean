import RoomWatchdog.Ld2412.Frame
import RoomWatchdog.Library.Buffer
import RoomWatchdog.Library.SelfDelimiting

namespace RoomWatchdog.Ld2412Commands
open Ld2412 (leValue lengthBytes leValue_lengthBytes)

def maxFrame : Nat := 32
def gateCount : Nat := 14

/-- A caller's uint8_t[MAX_FRAME] afterwards, and the length of the frame in it. -/
abbrev Built := Option (Vector UInt8 maxFrame × Nat)

/-- FD FC FB FA | len(2, LE) | cmdWord(2, LE) | value[N] | 04 03 02 01 -/
def frame (out : Vector UInt8 maxFrame) (cmdWord : UInt16) (value : List UInt8) : Built := do
  let s ← [0xFD, 0xFC, 0xFB, 0xFA].foldlM Buffer.put (out, 0)
  let dataLen := UInt16.ofNat (2 + value.length)
  let s ← Buffer.put s (dataLen &&& 0xFF).toUInt8
  let s ← Buffer.put s (dataLen >>> 8).toUInt8
  let s ← Buffer.put s (cmdWord &&& 0xFF).toUInt8
  let s ← Buffer.put s (cmdWord >>> 8).toUInt8
  let s ← value.foldlM Buffer.put s
  [0x04, 0x03, 0x02, 0x01].foldlM Buffer.put s

def enableConfig (out : Vector UInt8 maxFrame) : Built := frame out 0x00FF [0x01, 0x00]

def endConfig (out : Vector UInt8 maxFrame) : Built := frame out 0x00FE []

/-- One sensitivity per gate (0-100). -/
def motionSensitivity (out : Vector UInt8 maxFrame) (gates : Vector UInt8 gateCount) : Built :=
  frame out 0x0003 gates.toList

def staticSensitivity (out : Vector UInt8 maxFrame) (gates : Vector UInt8 gateCount) : Built :=
  frame out 0x0004 gates.toList

def basicParams (out : Vector UInt8 maxFrame) (minGate maxGate : UInt8) (unmannedSeconds : UInt16)
    (polarity : UInt8) : Built :=
  frame out 0x0002 [minGate, maxGate, (unmannedSeconds &&& 0xFF).toUInt8,
    (unmannedSeconds >>> 8).toUInt8, polarity]

def backgroundCorrection (out : Vector UInt8 maxFrame) : Built := frame out 0x000B []

/-- A call of one of the builders, less the buffer. -/
inductive Builder where
  | enableConfig
  | endConfig
  | motionSensitivity (gates : Vector UInt8 gateCount)
  | staticSensitivity (gates : Vector UInt8 gateCount)
  | basicParams (minGate maxGate : UInt8) (unmannedSeconds : UInt16) (polarity : UInt8)
  | backgroundCorrection
  deriving DecidableEq

def Builder.build (out : Vector UInt8 maxFrame) : Builder → Built
  | enableConfig => Ld2412Commands.enableConfig out
  | endConfig => Ld2412Commands.endConfig out
  | motionSensitivity gates => Ld2412Commands.motionSensitivity out gates
  | staticSensitivity gates => Ld2412Commands.staticSensitivity out gates
  | basicParams minGate maxGate unmannedSeconds polarity =>
    Ld2412Commands.basicParams out minGate maxGate unmannedSeconds polarity
  | backgroundCorrection => Ld2412Commands.backgroundCorrection out

/-- What sendFrame passes on to the radar. -/
def sent (built : Vector UInt8 maxFrame × Nat) : List UInt8 := built.1.toList.take built.2

/-- A command word with a value that leaves room for the envelope. -/
structure Command where
  cmdWord : UInt16
  value : List UInt8
  fits : value.length ≤ 20
  deriving DecidableEq

def headerBytes : List UInt8 := [0xFD, 0xFC, 0xFB, 0xFA]

def footerBytes : List UInt8 := [0x04, 0x03, 0x02, 0x01]

namespace Command

/-- The frame of a command, both two-byte fields in little-endian order. -/
def bytes (c : Command) : List UInt8 :=
  headerBytes ++ lengthBytes (2 + c.value.length) ++ lengthBytes c.cmdWord.toNat ++ c.value ++
    footerBytes

@[simp] theorem bytes_length (c : Command) : c.bytes.length = 12 + c.value.length := by
  simp only [bytes, headerBytes, footerBytes, List.length_append, Ld2412.lengthBytes_length,
    List.length_cons, List.length_nil]
  omega

end Command

/-- The code's `v & 0xFF` and `v >> 8` are the two bytes of the value. -/
theorem lengthBytes_eq (v : UInt16) :
    lengthBytes v.toNat = [(v &&& 0xFF).toUInt8, (v >>> 8).toUInt8] := by
  have hmask : v.toNat &&& 255 = v.toNat % 256 := Nat.and_two_pow_sub_one_eq_mod v.toNat 8
  have hlow : UInt8.ofNat v.toNat = (v &&& 0xFF).toUInt8 := by
    apply UInt8.toNat_inj.mp
    rw [UInt8.toNat_ofNat', UInt16.toNat_toUInt8, UInt16.toNat_and]
    change v.toNat % 256 = (v.toNat &&& 255) % 256
    omega
  have hhigh : UInt8.ofNat (v.toNat / 256) = (v >>> 8).toUInt8 := by
    apply UInt8.toNat_inj.mp
    rw [UInt8.toNat_ofNat', UInt16.toNat_toUInt8, UInt16.toNat_shiftRight]
    change v.toNat / 256 % 256 = v.toNat >>> 8 % 256
    rw [Nat.shiftRight_eq_div_pow]
  rw [lengthBytes, hlow, hhigh]

theorem lengthBytes_injective {m n : Nat} (hm : m < 2 ^ 16) (hn : n < 2 ^ 16)
    (h : lengthBytes m = lengthBytes n) : m = n := by
  obtain ⟨hlow, hhigh⟩ := List.cons_eq_cons.mp h
  have hhigh' := (List.cons_eq_cons.mp hhigh).1
  rw [← leValue_lengthBytes m hm, ← leValue_lengthBytes n hn, hlow, hhigh']

theorem frame_eq (out : Vector UInt8 maxFrame) (c : Command) :
    frame out c.cmdWord c.value = c.bytes.foldlM Buffer.put (out, 0) := by
  have hdata : (UInt16.ofNat (2 + c.value.length)).toNat = 2 + c.value.length := by
    have hfits := c.fits
    have hlt : 2 + c.value.length < 2 ^ 16 := by omega
    exact UInt16.toNat_ofNat_of_lt' hlt
  rw [Command.bytes, ← hdata, lengthBytes_eq, lengthBytes_eq, List.foldlM_append,
    List.foldlM_append, List.foldlM_append, List.foldlM_append]
  simp only [frame, headerBytes, footerBytes, List.foldlM_cons, List.foldlM_nil, bind_assoc,
    pure_bind]

/-- The frame stands at the front of the buffer, and the rest of it is left alone. -/
theorem frame_spec (out : Vector UInt8 maxFrame) (c : Command) :
    ∃ out', frame out c.cmdWord c.value = some (out', 12 + c.value.length) ∧
      out'.toList = c.bytes ++ out.toList.drop (12 + c.value.length) := by
  have hfits := c.fits
  have hroom : 0 + c.bytes.length ≤ maxFrame := by
    rw [Command.bytes_length, maxFrame]
    omega
  obtain ⟨out', hrun, hbytes⟩ := Buffer.puts_eq out hroom
  rw [Nat.zero_add, Command.bytes_length] at hrun hbytes
  refine ⟨out', ?_, ?_⟩
  · rw [frame_eq, hrun]
  · rw [hbytes, List.take_zero, List.nil_append]

/-- The length field tells where a frame ends, whatever bytes its value holds. -/
theorem bytes_separates : SelfDelimiting.Separates Command.bytes := by
  intro c d s t h
  simp only [Command.bytes, List.append_assoc] at h
  obtain ⟨-, h⟩ := List.append_inj h rfl
  obtain ⟨hlength, h⟩ := List.append_inj h rfl
  obtain ⟨hword, h⟩ := List.append_inj h rfl
  have hc := c.fits
  have hd := d.fits
  have hsize : c.value.length = d.value.length := by
    have hsame := lengthBytes_injective (by omega) (by omega) hlength
    omega
  obtain ⟨hvalue, h⟩ := List.append_inj h hsize
  obtain ⟨-, hrest⟩ := List.append_inj h rfl
  refine ⟨?_, hrest⟩
  have hcmd : c.cmdWord = d.cmdWord := by
    apply UInt16.toNat_inj.mp
    exact lengthBytes_injective c.cmdWord.toNat_lt d.cmdWord.toNat_lt hword
  cases c
  cases d
  congr

theorem bytes_ne_nil (c : Command) : c.bytes ≠ [] := by
  intro h
  have hlen := c.bytes_length
  rw [h, List.length_nil] at hlen
  omega

theorem gates_fit (gates : Vector UInt8 gateCount) : gates.toList.length ≤ 20 := by
  rw [Vector.length_toList]
  decide

/-- What each builder hands to frame. -/
def Builder.command : Builder → Command
  | enableConfig => ⟨0x00FF, [0x01, 0x00], by decide⟩
  | endConfig => ⟨0x00FE, [], by decide⟩
  | motionSensitivity gates => ⟨0x0003, gates.toList, gates_fit gates⟩
  | staticSensitivity gates => ⟨0x0004, gates.toList, gates_fit gates⟩
  | basicParams minGate maxGate unmannedSeconds polarity =>
    ⟨0x0002, [minGate, maxGate, (unmannedSeconds &&& 0xFF).toUInt8,
      (unmannedSeconds >>> 8).toUInt8, polarity], by simp⟩
  | backgroundCorrection => ⟨0x000B, [], by decide⟩

theorem build_eq (out : Vector UInt8 maxFrame) (b : Builder) :
    b.build out = frame out b.command.cmdWord b.command.value := by
  cases b <;> rfl

theorem sent_build (out : Vector UInt8 maxFrame) (b : Builder) :
    ∃ built, b.build out = some built ∧ sent built = b.command.bytes := by
  obtain ⟨out', hframe, hbytes⟩ := frame_spec out b.command
  refine ⟨_, (build_eq out b).trans hframe, ?_⟩
  rw [sent, hbytes, ← Command.bytes_length, List.take_left]

theorem seconds_injective {v w : UInt16} (hlow : (v &&& 0xFF).toUInt8 = (w &&& 0xFF).toUInt8)
    (hhigh : (v >>> 8).toUInt8 = (w >>> 8).toUInt8) : v = w := by
  apply UInt16.toNat_inj.mp
  apply lengthBytes_injective v.toNat_lt w.toNat_lt
  rw [lengthBytes_eq, lengthBytes_eq, hlow, hhigh]

theorem command_injective : Function.Injective Builder.command := by
  intro b c h
  cases b <;> cases c <;> simp only [Builder.command, Command.mk.injEq] at h
  all_goals first
    | rfl
    | exact absurd h.1 (by decide)
    | exact congrArg _ (Vector.toList_inj.mp h.2)
    | skip
  obtain ⟨-, h⟩ := h
  simp only [List.cons.injEq, and_true] at h
  obtain ⟨rfl, rfl, hlow, hhigh, rfl⟩ := h
  rw [seconds_injective hlow hhigh]

/-- Every command fits the buffer as header, little-endian length and command word, value and
footer. A sequence of frames determines its commands, no frame begins another, and what a
builder sends determines the builder and all of its arguments. -/
theorem commands_decodable :
    (∀ (out : Vector UInt8 maxFrame) (c : Command), 12 + c.value.length ≤ maxFrame ∧
      ∃ out', frame out c.cmdWord c.value = some (out', 12 + c.value.length) ∧
        out'.toList = c.bytes ++ out.toList.drop (12 + c.value.length)) ∧
    (∀ cs ds : List Command, cs.flatMap Command.bytes = ds.flatMap Command.bytes → cs = ds) ∧
    (∀ c d : Command, c.bytes <+: d.bytes → c = d) ∧
    ∀ (out out' : Vector UInt8 maxFrame) (b c : Builder), ∃ built built',
      b.build out = some built ∧ c.build out' = some built' ∧ (sent built = sent built' → b = c) := by
  refine ⟨?_, ?_, ?_, ?_⟩
  · intro out c
    have hfits := c.fits
    refine ⟨?_, frame_spec out c⟩
    rw [maxFrame]
    omega
  · intro cs ds
    exact bytes_separates.flatMap_injective bytes_ne_nil
  · intro c d
    exact bytes_separates.eq_of_prefix
  · intro out out' b c
    obtain ⟨built, hb, hbytes⟩ := sent_build out b
    obtain ⟨built', hc, hbytes'⟩ := sent_build out' c
    refine ⟨built, built', hb, hc, ?_⟩
    intro hsame
    rw [hbytes, hbytes'] at hsame
    exact command_injective (bytes_separates.injective hsame)

/-- The data sheet's example of the basic parameters. -/
example : (Builder.basicParams 1 12 5 0).command.bytes =
    [0xFD, 0xFC, 0xFB, 0xFA, 0x07, 0x00, 0x02, 0x00, 0x01, 0x0C, 0x05, 0x00, 0x00,
      0x04, 0x03, 0x02, 0x01] := by
  decide

end RoomWatchdog.Ld2412Commands
