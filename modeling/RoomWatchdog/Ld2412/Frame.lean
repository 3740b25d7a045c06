import RoomWatchdog.Ld2412.Parser
import Mathlib.Data.List.Infix

namespace RoomWatchdog.Ld2412

/-- The bytes between length field and footer of one frame. -/
structure Payload where
  bytes : List UInt8
  min_le : 9 ≤ bytes.length
  le_max : bytes.length ≤ 64
  deriving DecidableEq

/-- Value of a two-byte little-endian field. -/
def leValue (lo hi : UInt8) : Nat := lo.toNat + 256 * hi.toNat

def lengthBytes (n : Nat) : List UInt8 := [UInt8.ofNat n, UInt8.ofNat (n / 256)]

/-- F4 F3 F2 F1 | len (LE) | data | F8 F7 F6 F5 -/
def Payload.frame (d : Payload) : List UInt8 :=
  headerBytes ++ lengthBytes d.bytes.length ++ d.bytes ++ footerBytes

/-- Mode 01 or 02 followed by the marker AA. -/
def IsReport (bytes : List UInt8) : Prop :=
  (bytes.getD 0 0 = 0x01 ∨ bytes.getD 0 0 = 0x02) ∧ bytes.getD 1 0 = 0xAA

instance (bytes : List UInt8) : Decidable (IsReport bytes) :=
  inferInstanceAs (Decidable (_ ∧ _))

/-- The values a report frame carries in its data bytes 2 to 8. -/
def reportOf (bytes : List UInt8) : Report where
  targetState := bytes.getD 2 0
  movingDistanceCm := UInt16.ofNat (leValue (bytes.getD 3 0) (bytes.getD 4 0))
  movingEnergy := bytes.getD 5 0
  stationaryDistanceCm := UInt16.ofNat (leValue (bytes.getD 6 0) (bytes.getD 7 0))
  stationaryEnergy := bytes.getD 8 0

/-- What one frame reports: nothing when its data is not a report. -/
def Payload.decode (d : Payload) : Option Report :=
  if IsReport d.bytes then some (reportOf d.bytes) else none

/-- A payload that carries a report. -/
structure ReportPayload extends Payload where
  isReport : IsReport bytes
  deriving DecidableEq

theorem ReportPayload.decode_eq (d : ReportPayload) :
    d.toPayload.decode = some (reportOf d.bytes) := if_pos d.isReport

theorem leValue_lt (lo hi : UInt8) : leValue lo hi < 2 ^ 16 := by
  have hl := lo.toNat_lt
  have hh := hi.toNat_lt
  unfold leValue
  omega

/-- The code's `lo | hi << 8` is the little-endian value. -/
theorem littleEndian_toNat (lo hi : UInt8) :
    (Ld2412Parser.littleEndian lo hi).toNat = leValue lo hi := by
  have hl := lo.toNat_lt
  have hh := hi.toNat_lt
  have hshift : hi.toNat <<< 8 % 2 ^ 16 = hi.toNat <<< 8 := by
    rw [Nat.shiftLeft_eq]
    omega
  have hor := Nat.shiftLeft_add_eq_or_of_lt hl hi.toNat
  simp only [Ld2412Parser.littleEndian, UInt16.toNat_or, UInt16.toNat_shiftLeft,
    UInt8.toNat_toUInt16]
  change lo.toNat ||| hi.toNat <<< 8 % 2 ^ 16 = _
  rw [hshift, Nat.or_comm, ← hor, Nat.shiftLeft_eq, leValue]
  omega

theorem littleEndian_eq (lo hi : UInt8) :
    Ld2412Parser.littleEndian lo hi = UInt16.ofNat (leValue lo hi) := by
  apply UInt16.toNat_inj.mp
  rw [littleEndian_toNat, UInt16.toNat_ofNat_of_lt' (leValue_lt lo hi)]

/-- A two-byte field reads back as the value that was written. -/
theorem leValue_lengthBytes (n : Nat) (h : n < 2 ^ 16) :
    leValue (UInt8.ofNat n) (UInt8.ofNat (n / 256)) = n := by
  rw [leValue, UInt8.toNat_ofNat', UInt8.toNat_ofNat']
  omega

/-- Only one pair of length bytes stands for a length. -/
theorem lengthBytes_leValue (lo hi : UInt8) : lengthBytes (leValue lo hi) = [lo, hi] := by
  have hl := lo.toNat_lt
  have hh := hi.toNat_lt
  have hlo : UInt8.ofNat (leValue lo hi) = lo := by
    apply UInt8.toNat_inj.mp
    rw [leValue, UInt8.toNat_ofNat']
    omega
  have hhi : leValue lo hi / 256 = hi.toNat := by
    rw [leValue]
    omega
  rw [lengthBytes, hlo, hhi, UInt8.ofNat_toNat]

@[simp] theorem lengthBytes_length (n : Nat) : (lengthBytes n).length = 2 := rfl

@[simp] theorem Payload.frame_length (d : Payload) : d.frame.length = d.bytes.length + 10 := by
  simp only [frame, headerBytes, footerBytes, List.length_append, lengthBytes_length,
    List.length_cons, List.length_nil]
  omega

end RoomWatchdog.Ld2412
