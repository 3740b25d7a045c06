import RoomWatchdog.Library.Growable
import RoomWatchdog.Library.Strip

namespace RoomWatchdog

-- a String of the Arduino core
abbrev Text := Growable.Buffer UInt8

/-- What c_str() of a String points to: its characters, then the terminator. -/
def cStr (s : List UInt8) : List UInt8 := s ++ [0]

/-- isspace of the C locale. -/
def isspace (byte : UInt8) : Bool := byte = 0x20 ∨ (0x09 ≤ byte ∧ byte ≤ 0x0D)

/-- strcmp(a, b) == 0 of two arrays that hold a NUL. -/
def strcmpEqual : List UInt8 → List UInt8 → Bool
  | a :: as, b :: bs => if a ≠ b then false else if a = 0 then true else strcmpEqual as bs
  | _, _ => false

namespace Text

def trim (s : Text) : Text := { s with contents := Strip.strip isspace s.contents }

/-- operator== against a C string. -/
def equals (s : Text) (cstr : List UInt8) : Bool := strcmpEqual (cStr s.contents) (cStr cstr)

end Text

variable {word : List UInt8}

/-- The comparison ends at the first NUL of the stored characters, wherever they end. -/
theorem strcmpEqual_iff (hword : 0 ∉ word) (s : List UInt8) :
    strcmpEqual (cStr s) (cStr word) = true ↔ s = word ∨ ∃ rest, s = word ++ 0 :: rest := by
  induction word generalizing s with
  | nil =>
    cases s with
    | nil => simp [cStr, strcmpEqual]
    | cons a s => simp [cStr, strcmpEqual]
  | cons b word ih =>
    obtain ⟨hb, hword⟩ := not_or.mp (mt List.mem_cons.mpr hword)
    cases s with
    | nil => simp [cStr, strcmpEqual, hb]
    | cons a s =>
      have htail := ih hword s
      simp only [cStr] at htail
      by_cases hab : a = b
      · simp [cStr, strcmpEqual, hab, Ne.symm hb, htail]
      · simp [cStr, strcmpEqual, hab]

end RoomWatchdog
