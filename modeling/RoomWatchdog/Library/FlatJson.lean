import RoomWatchdog.Library.Decimal

/-! JSON objects without white space whose values are strings, integers or booleans, read
from bytes. A string stands for the bytes it decodes to. -/

namespace FlatJson

def ascii (s : String) : List UInt8 := s.toList.map Char.toUInt8

theorem ascii_append (s t : String) : ascii (s ++ t) = ascii s ++ ascii t := by
  rw [ascii, String.toList_append, List.map_append]
  rfl

theorem ascii_repr (n : Nat) : ascii n.repr = Decimal.natural n := by
  rw [ascii, Nat.repr, String.toList_ofList]
  rfl

theorem ascii_toString (z : Int) : ascii (toString z) = Decimal.write z := by
  cases z with
  | ofNat n => exact ascii_repr n
  | negSucc n =>
    show ascii ("-" ++ (n + 1).repr) = _
    rw [ascii_append, ascii_repr]
    rfl

def quote : UInt8 := 0x22

def backslash : UInt8 := 0x5C

/-- What a backslash and the byte `c` stand for together. -/
def unescape (c : UInt8) : Option UInt8 :=
  if c = quote then some quote
  else if c = backslash then some backslash
  else if c = 0x6E then some 0x0A
  else if c = 0x72 then some 0x0D
  else if c = 0x74 then some 0x09
  else none

def hexValue (c : UInt8) : Option Nat :=
  if 0x30 ≤ c ∧ c ≤ 0x39 then some (c.toNat - 0x30)
  else if 0x61 ≤ c ∧ c ≤ 0x66 then some (c.toNat - 0x57)
  else if 0x41 ≤ c ∧ c ≤ 0x46 then some (c.toNat - 0x37)
  else none

/-- Where the reader of a string stands: between characters, behind a backslash, or before a
digit of \u, with so many to come after it and the value of those read. -/
inductive Place where
  | plain
  | escaped
  | hex (left value : Nat)

/-- A character in front of what is read after it. -/
def prepend (c : UInt8) : Option (List UInt8 × List UInt8) → Option (List UInt8 × List UInt8) :=
  Option.map fun (s, rest) => (c :: s, rest)

/-- Reads up to the closing quote; the opening one has been read. -/
def readString : Place → List UInt8 → Option (List UInt8 × List UInt8)
  | _, [] => none
  | .plain, c :: text =>
    if c = quote then some ([], text)
    else if c = backslash then readString .escaped text
    else if c < 0x20 then none
    else prepend c (readString .plain text)
  | .escaped, c :: text =>
    if c = 0x75 then readString (.hex 3 0) text
    else do prepend (← unescape c) (readString .plain text)
  | .hex left value, c :: text => do
    let value := 16 * value + (← hexValue c)
    match left with
    | left + 1 => readString (.hex left value) text
    | 0 => if value < 256 then prepend (UInt8.ofNat value) (readString .plain text) else none

inductive Value where
  | text (bytes : List UInt8)
  | number (n : Int)
  | bool (b : Bool)
  deriving DecidableEq

/-- Reads the literal `word` if the text begins with it. -/
def readWord (word : List UInt8) (value : Value) (text : List UInt8) :
    Option (Value × List UInt8) :=
  if word <+: text then some (value, text.drop word.length) else none

def readValue : List UInt8 → Option (Value × List UInt8)
  | [] => none
  | c :: text =>
    if c = quote then (readString .plain text).map fun (s, rest) => (.text s, rest)
    else if c = 0x74 then readWord (ascii "true") (.bool true) (c :: text)
    else if c = 0x66 then readWord (ascii "false") (.bool false) (c :: text)
    else (Decimal.read (c :: text)).map fun (n, rest) => (.number n, rest)

/-- A key in quotes, a colon and a value. -/
def readMember : List UInt8 → Option ((List UInt8 × Value) × List UInt8)
  | 0x22 :: text => do
    match ← readString .plain text with
    | (key, 0x3A :: text) => do
      let (value, rest) ← readValue text
      some ((key, value), rest)
    | _ => none
  | _ => none

/-- At most `fuel` members, up to the closing brace. -/
def readMembers : Nat → List UInt8 → Option (List (List UInt8 × Value) × List UInt8)
  | 0, _ => none
  | fuel + 1, text => do
    match ← readMember text with
    | (member, 0x2C :: text) => do
      let (members, rest) ← readMembers fuel text
      some (member :: members, rest)
    | (member, 0x7D :: rest) => some ([member], rest)
    | _ => none

/-- The members of the object that the whole text is. -/
def parse : List UInt8 → Option (List (List UInt8 × Value))
  | [0x7B, 0x7D] => some []
  | 0x7B :: text => do
    match ← readMembers text.length text with
    | (members, []) => some members
    | _ => none
  | _ => none

/-- Characters that a string holds as they are. -/
def Plain (s : List UInt8) : Prop := ∀ c ∈ s, c ≠ quote ∧ c ≠ backslash ∧ ¬ c < 0x20

instance (s : List UInt8) : Decidable (Plain s) := List.decidableBAll _ s

/-- `body` is read as `value` inside an object, where a comma or the closing brace follows. -/
def Reads (body : List UInt8) (value : Value) : Prop :=
  ∀ c rest, c = 0x2C ∨ c = 0x7D → readValue (body ++ c :: rest) = some (value, c :: rest)

/-- A member as it is written: a key that needs no escape, and a body that stands for a value. -/
structure Member where
  key : List UInt8
  body : List UInt8
  value : Value
  plain : Plain key
  reads : Reads body value

namespace Member

def text (m : Member) : List UInt8 := quote :: m.key ++ quote :: 0x3A :: m.body

def meaning (m : Member) : List UInt8 × Value := (m.key, m.value)

end Member

/-- Members in a row, a comma before each but the first. -/
def membersText (m : Member) (ms : List Member) : List UInt8 :=
  m.text ++ ms.flatMap fun m => 0x2C :: m.text

def objectText (m : Member) (ms : List Member) : List UInt8 := 0x7B :: membersText m ms ++ [0x7D]

theorem readString_plain {s : List UInt8} (h : Plain s) (rest : List UInt8) :
    readString .plain (s ++ quote :: rest) = some (s, rest) := by
  induction s with
  | nil => exact if_pos rfl
  | cons c s ih =>
    obtain ⟨hquote, hbackslash, hcontrol⟩ := h c List.mem_cons_self
    rw [List.cons_append, readString, if_neg hquote, if_neg hbackslash, if_neg hcontrol,
      ih fun d hd => h d (List.mem_cons_of_mem c hd)]
    rfl

theorem readMember_text (m : Member) {c : UInt8} (hc : c = 0x2C ∨ c = 0x7D) (rest : List UInt8) :
    readMember (m.text ++ c :: rest) = some (m.meaning, c :: rest) := by
  have hkey := readString_plain m.plain (0x3A :: (m.body ++ c :: rest))
  have hbody := m.reads c rest hc
  simp only [Member.text, quote, List.cons_append, List.append_assoc] at hkey ⊢
  simp only [readMember, hkey, hbody, Option.bind_eq_bind, Option.bind_some]
  rfl

theorem readMembers_text (m : Member) (ms : List Member) (rest : List UInt8) {fuel : Nat}
    (hfuel : ms.length < fuel) :
    readMembers fuel (membersText m ms ++ 0x7D :: rest) =
      some (m.meaning :: ms.map Member.meaning, rest) := by
  induction ms generalizing m fuel with
  | nil =>
    obtain ⟨fuel, rfl⟩ := Nat.exists_eq_succ_of_ne_zero (Nat.ne_of_gt hfuel)
    rw [membersText, List.flatMap_nil, List.append_nil, readMembers,
      readMember_text m (Or.inr rfl) rest]
    rfl
  | cons next ms ih =>
    obtain ⟨fuel, rfl⟩ := Nat.exists_eq_succ_of_ne_zero (Nat.ne_of_gt (Nat.lt_of_le_of_lt (Nat.zero_le _) hfuel))
    have hnext := ih next (Nat.lt_of_succ_lt_succ hfuel)
    have hsplit : membersText m (next :: ms) ++ 0x7D :: rest =
        m.text ++ 0x2C :: (membersText next ms ++ 0x7D :: rest) := by
      simp only [membersText, List.flatMap_cons, List.append_assoc, List.cons_append]
    rw [hsplit, readMembers, readMember_text m (Or.inl rfl)]
    simp only [Option.bind_eq_bind, Option.bind_some, hnext]
    rfl

theorem length_le_flatMap (ms : List Member) :
    ms.length ≤ (ms.flatMap fun m => 0x2C :: m.text).length := by
  induction ms with
  | nil => exact Nat.le_refl _
  | cons m ms ih =>
    rw [List.flatMap_cons, List.length_append, List.length_cons, List.length_cons]
    omega

/-- An object says what its members say, each of them once and in order. -/
theorem parse_objectText (m : Member) (ms : List Member) :
    parse (objectText m ms) = some (m.meaning :: ms.map Member.meaning) := by
  have hfuel : ms.length < (membersText m ms ++ [0x7D]).length := by
    have hle := length_le_flatMap ms
    rw [membersText, List.length_append, List.length_append, List.length_singleton]
    omega
  have hread := readMembers_text m ms [] hfuel
  rw [objectText, List.cons_append, parse]
  · rw [hread]
    rfl
  · intro h
    have hhead := congrArg List.head? h
    exact absurd (Option.some.inj hhead) (by decide)

/-- The values that are written without escapes. -/
theorem reads_number (n : Int) : Reads (Decimal.write n) (.number n) := by
  intro c rest hc
  have hend : Decimal.isDigit c = false := by
    rcases hc with rfl | rfl <;> decide
  have hread := Decimal.read_write n hend rest
  obtain ⟨d, ds, hdigits, hstart⟩ := Decimal.write_cons n
  rw [hdigits, List.cons_append] at hread ⊢
  have hquote : d ≠ quote := by
    rintro rfl
    exact absurd hstart (by decide)
  have htrue : d ≠ 0x74 := by
    rintro rfl
    exact absurd hstart (by decide)
  have hfalse : d ≠ 0x66 := by
    rintro rfl
    exact absurd hstart (by decide)
  rw [readValue, if_neg hquote, if_neg htrue, if_neg hfalse, hread]
  rfl

theorem readWord_append (word : List UInt8) (value : Value) (rest : List UInt8) :
    readWord word value (word ++ rest) = some (value, rest) := by
  rw [readWord, if_pos (List.prefix_append _ _), List.drop_left]

theorem reads_bool (b : Bool) : Reads (ascii (if b then "true" else "false")) (.bool b) := by
  intro c rest _
  cases b with
  | true => exact readWord_append (ascii "true") (.bool true) (c :: rest)
  | false => exact readWord_append (ascii "false") (.bool false) (c :: rest)

/-- A string in quotes stands for what the reader makes of it. -/
theorem reads_text {escaped bytes : List UInt8}
    (h : ∀ rest, readString .plain (escaped ++ quote :: rest) = some (bytes, rest)) :
    Reads (quote :: escaped ++ [quote]) (.text bytes) := by
  intro c rest _
  have hread := h (c :: rest)
  rw [List.cons_append, List.cons_append, List.append_assoc, readValue, if_pos rfl,
    List.singleton_append, hread]
  rfl

end FlatJson
