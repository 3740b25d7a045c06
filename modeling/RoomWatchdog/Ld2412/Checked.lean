import RoomWatchdog.Library.Faulting
import RoomWatchdog.Ld2412.Soundness

namespace RoomWatchdog.Ld2412
namespace Ld2412Parser

/-- The range of each counter where it is used. Outside `header` headerPos_ is left at 4. -/
def Inv (p : Ld2412Parser) : Prop :=
  match p.state with
  | .header => p.headerPos ≤ 3 ∧ p.length.toNat = 0
  | .length => p.lengthPos ≤ 1 ∧ p.length.toNat ≤ 255
  | .data => 9 ≤ p.length.toNat ∧ p.length.toNat ≤ 64 ∧ p.dataPos < p.length.toNat
  | .footer => 9 ≤ p.length.toNat ∧ p.length.toNat ≤ 64 ∧ p.dataPos = p.length.toNat ∧
      p.footerPos ≤ 3

section inv
variable {p : Ld2412Parser}

theorem inv_header (hs : p.state = .header) :
    p.Inv ↔ p.headerPos ≤ 3 ∧ p.length.toNat = 0 := by
  rw [Inv, hs]

theorem inv_length (hs : p.state = .length) :
    p.Inv ↔ p.lengthPos ≤ 1 ∧ p.length.toNat ≤ 255 := by
  rw [Inv, hs]

theorem inv_data (hs : p.state = .data) :
    p.Inv ↔ 9 ≤ p.length.toNat ∧ p.length.toNat ≤ 64 ∧ p.dataPos < p.length.toNat := by
  rw [Inv, hs]

theorem inv_footer (hs : p.state = .footer) :
    p.Inv ↔ 9 ≤ p.length.toNat ∧ p.length.toNat ≤ 64 ∧ p.dataPos = p.length.toNat ∧
      p.footerPos ≤ 3 := by
  rw [Inv, hs]

theorem inv_reset (p : Ld2412Parser) : p.reset.Inv := ⟨Nat.zero_le 3, rfl⟩

/-- The match moves on by one, completes the header, or starts again. -/
theorem inv_matchHeader (hs : p.state = .header) (h : p.Inv) (byte : UInt8) :
    (p.matchHeader byte).Inv := by
  obtain ⟨hpos, hlength⟩ := (inv_header hs).mp h
  simp only [matchHeader]
  split_ifs with hmatch hlast hfirst
  · refine (inv_length rfl).mpr ⟨Nat.zero_le 1, ?_⟩
    show p.length.toNat ≤ 255
    omega
  · refine (inv_header ?_).mpr ⟨?_, hlength⟩
    · exact hs
    · show p.headerPos + 1 ≤ 3
      omega
  · refine (inv_header ?_).mpr ⟨Nat.le_of_ble_eq_true rfl, hlength⟩
    exact hs
  · refine (inv_header ?_).mpr ⟨Nat.zero_le 3, hlength⟩
    exact hs

/-- A byte keeps every counter in its range. -/
theorem inv_feed (h : p.Inv) (byte : UInt8) : (p.feed byte).1.Inv := by
  cases hs : p.state with
  | header =>
    rw [feed_header hs]
    exact inv_matchHeader hs h byte
  | length =>
    obtain ⟨hpos, hlength⟩ := (inv_length hs).mp h
    by_cases hp : p.lengthPos = 0
    · rw [feed_length_low hs hp]
      refine (inv_length ?_).mpr ⟨Nat.le_refl 1, ?_⟩
      · exact hs
      · have := byte.toNat_lt
        show byte.toUInt16.toNat ≤ 255
        rw [UInt8.toNat_toUInt16]
        omega
    · by_cases hl : p.length ||| (byte.toUInt16 <<< 8) < minDataLen ∨
          p.length ||| (byte.toUInt16 <<< 8) > maxDataLen
      · rw [feed_length_reject hs hp hl]
        exact inv_reset p
      · rw [feed_length_accept hs hp hl]
        rw [gt_iff_lt, UInt16.lt_iff_toNat_lt, UInt16.lt_iff_toNat_lt, not_or, not_lt, not_lt] at hl
        obtain ⟨hmin, hmax⟩ := hl
        have hzero : 0 < minDataLen.toNat := by decide
        exact (inv_data rfl).mpr ⟨hmin, hmax, Nat.lt_of_lt_of_le hzero hmin⟩
  | data =>
    obtain ⟨hmin, hmax, hpos⟩ := (inv_data hs).mp h
    by_cases hl : p.dataPos + 1 = p.length.toNat
    · rw [feed_data_last hs hl]
      exact (inv_footer rfl).mpr ⟨hmin, hmax, hl, Nat.zero_le 3⟩
    · rw [feed_data_more hs hl]
      refine (inv_data ?_).mpr ⟨hmin, hmax, ?_⟩
      · exact hs
      · show p.dataPos + 1 < p.length.toNat
        omega
  | footer =>
    obtain ⟨hmin, hmax, hdata, hpos⟩ := (inv_footer hs).mp h
    by_cases hb : byte = footerByte p.footerPos
    · by_cases hp : p.footerPos + 1 = 4
      · rw [feed_footer_last hs hb hp]
        exact inv_reset _
      · rw [feed_footer_more hs hb hp]
        refine (inv_footer ?_).mpr ⟨hmin, hmax, hdata, ?_⟩
        · exact hs
        · show p.footerPos + 1 ≤ 3
          omega
    · rw [feed_footer_mismatch hs hb]
      exact inv_matchHeader rfl (inv_reset p) byte

theorem inv_after (bytes : List UInt8) : (after bytes).Inv := by
  induction bytes using List.reverseRecOn with
  | nil => exact ⟨Nat.zero_le 3, rfl⟩
  | append_singleton bytes byte ih =>
    rw [after, Mealy.run_append]
    exact inv_feed ih byte

end inv

end Ld2412Parser

/-- The parser with its counters at their own widths. `written` is history: the cells of
data_ that the bytes of the current frame have gone to. -/
structure CheckedParser where
  state : State := .header
  headerPos : UInt8 := 0
  lengthPos : UInt8 := 0
  length : UInt16 := 0
  dataPos : UInt16 := 0
  footerPos : UInt8 := 0
  data : Vector UInt8 64 := Vector.replicate 64 0
  report : Report := {}
  written : List Nat := []

namespace CheckedParser

/-! The parser's functions, none where they would leave a table or data_, or read a cell
that the current frame has not written. -/

def headerByte (i : UInt8) : Option UInt8 := headerBytes[i.toNat]?
def footerByte (i : UInt8) : Option UInt8 := footerBytes[i.toNat]?

def matchHeader (p : CheckedParser) (byte : UInt8) : Option CheckedParser := do
  let expected ← headerByte p.headerPos
  if byte = expected then
    let p := { p with headerPos := p.headerPos + 1 }
    if p.headerPos = 4 then some { p with state := .length, lengthPos := 0 } else some p
  else
    let first ← headerByte 0
    some { p with headerPos := if byte = first then 1 else 0 }

def reset (p : CheckedParser) : CheckedParser :=
  { p with state := .header, headerPos := 0, lengthPos := 0, dataPos := 0, footerPos := 0,
           length := 0 }

/-- `data_[dataPos_++] = byte` -/
def write (p : CheckedParser) (byte : UInt8) : Option CheckedParser :=
  if h : p.dataPos.toNat < 64 then
    some { p with data := p.data.set p.dataPos.toNat byte h, dataPos := p.dataPos + 1,
                  written := p.dataPos.toNat :: p.written }
  else none

def read (p : CheckedParser) (i : Nat) : Option UInt8 :=
  if i ∈ p.written then p.data[i]? else none

def decodeData (p : CheckedParser) : Option (CheckedParser × Bool) := do
  let mode ← p.read 0
  if ¬ (mode = modeBasic ∨ mode = modeEngineering) then
    some (p, false)
  else
    let marker ← p.read 1
    if marker ≠ dataHeadMarker then
      some (p, false)
    else
      let targetState ← p.read 2
      let movingLow ← p.read 3
      let movingHigh ← p.read 4
      let movingEnergy ← p.read 5
      let stationaryLow ← p.read 6
      let stationaryHigh ← p.read 7
      let stationaryEnergy ← p.read 8
      some ({ p with report :=
        { targetState
          movingDistanceCm := Ld2412Parser.littleEndian movingLow movingHigh
          movingEnergy
          stationaryDistanceCm := Ld2412Parser.littleEndian stationaryLow stationaryHigh
          stationaryEnergy } }, true)

def feed (p : CheckedParser) (byte : UInt8) : Option (CheckedParser × Bool) :=
  match p.state with
  | .header => do
    let p ← p.matchHeader byte
    some (p, false)
  | .length =>
    if p.lengthPos = 0 then
      some ({ p with length := byte.toUInt16, lengthPos := 1 }, false)
    else
      let p := { p with length := p.length ||| (byte.toUInt16 <<< 8) }
      if p.length < minDataLen ∨ p.length > maxDataLen then
        some (p.reset, false)
      else
        -- a frame begins, and none of its bytes is in data_
        some ({ p with state := .data, dataPos := 0, written := [] }, false)
  | .data => do
    let p ← p.write byte
    if p.dataPos = p.length then
      some ({ p with state := .footer, footerPos := 0 }, false)
    else
      some (p, false)
  | .footer => do
    let expected ← footerByte p.footerPos
    if byte ≠ expected then
      let p ← p.reset.matchHeader byte
      some (p, false)
    else
      let p := { p with footerPos := p.footerPos + 1 }
      if p.footerPos = 4 then
        let (p, valid) ← p.decodeData
        some (p.reset, valid)
      else
        some (p, false)

/-- The same parser without its widths and its history. -/
def parser (p : CheckedParser) : Ld2412Parser where
  state := p.state
  headerPos := p.headerPos.toNat
  lengthPos := p.lengthPos.toNat
  length := p.length
  dataPos := p.dataPos.toNat
  footerPos := p.footerPos.toNat
  data := p.data
  report := p.report

/-- The cells below dataPos_ hold bytes of the current frame. -/
def Covered (p : CheckedParser) : Prop :=
  p.state = .data ∨ p.state = .footer → ∀ i < p.dataPos.toNat, i ∈ p.written

variable {p : CheckedParser} {byte : UInt8}

theorem tableByte_eq {table : List UInt8} {i : Nat} (h : i < table.length) :
    table[i]? = some (table.getD i 0) := by
  rw [List.getD_eq_getElem?_getD, List.getElem?_eq_getElem h, Option.getD_some]

theorem headerByte_eq {i : UInt8} (h : i.toNat ≤ 3) :
    headerByte i = some (Ld2412.headerByte i.toNat) := tableByte_eq (Nat.lt_succ_of_le h)

theorem footerByte_eq {i : UInt8} (h : i.toNat ≤ 3) :
    footerByte i = some (Ld2412.footerByte i.toNat) := tableByte_eq (Nat.lt_succ_of_le h)

/-- Below 4 a counter of one byte counts on without wrapping. -/
theorem succ_toNat {i : UInt8} (h : i.toNat ≤ 3) : (i + 1).toNat = i.toNat + 1 := by
  rw [UInt8.toNat_add]
  exact Nat.mod_eq_of_lt (by simp only [UInt8.toNat_one]; omega)

theorem succ_eq_four {i : UInt8} (h : i.toNat ≤ 3) : i + 1 = 4 ↔ i.toNat + 1 = 4 := by
  rw [← UInt8.toNat_inj, succ_toNat h]
  rfl

/-- The match stays in its table, and either goes on in the same state or leaves for the
length. -/
theorem matchHeader_spec (h : p.headerPos.toNat ≤ 3) (byte : UInt8) :
    ∃ p', p.matchHeader byte = some p' ∧ p'.parser = p.parser.matchHeader byte ∧
      (p'.state = p.state ∨ p'.state = .length) := by
  have hexpected := headerByte_eq h
  have hfirst : headerByte 0 = some (Ld2412.headerByte 0) := rfl
  have hnext := succ_toNat h
  by_cases hmatch : byte = Ld2412.headerByte p.headerPos.toNat
  · by_cases hlast : p.headerPos.toNat + 1 = 4
    · have hfour := (succ_eq_four h).mpr hlast
      refine ⟨{ p with headerPos := p.headerPos + 1, state := .length, lengthPos := 0 }, ?_, ?_,
        Or.inr rfl⟩
      · simp [matchHeader, hexpected, ← hmatch, hfour]
      · simp [Ld2412Parser.matchHeader, parser, ← hmatch, hlast, hnext]
    · have hfour := mt (succ_eq_four h).mp hlast
      refine ⟨{ p with headerPos := p.headerPos + 1 }, ?_, ?_, Or.inl rfl⟩
      · simp [matchHeader, hexpected, ← hmatch, hfour]
      · simp [Ld2412Parser.matchHeader, parser, ← hmatch, hlast, hnext]
  · refine ⟨{ p with headerPos := if byte = Ld2412.headerByte 0 then 1 else 0 }, ?_, ?_,
      Or.inl rfl⟩
    · simp [matchHeader, hexpected, hmatch, hfirst]
    · simp only [Ld2412Parser.matchHeader, parser, hmatch, if_false]
      split_ifs <;> rfl

/-- A report is decoded from cells that the frame has written. -/
theorem decodeData_spec (h : ∀ i < 9, i ∈ p.written) :
    ∃ p', p.decodeData = some (p', p.parser.decodeData.2) ∧ p'.parser = p.parser.decodeData.1 := by
  have hread (i : Nat) (hi : i < 9) : p.read i = some p.data[i] := by
    rw [read, if_pos (h i hi), Vector.getElem?_eq_getElem]
  simp only [decodeData, hread 0 (by decide), hread 1 (by decide), hread 2 (by decide),
    hread 3 (by decide), hread 4 (by decide), hread 5 (by decide), hread 6 (by decide),
    hread 7 (by decide), hread 8 (by decide), Option.bind_eq_bind, Option.bind_some]
  by_cases hmode : p.data[0] = modeBasic ∨ p.data[0] = modeEngineering
  · by_cases hmarker : p.data[1] = dataHeadMarker
    · simp [Ld2412Parser.decodeData, parser, hmode, hmarker]
    · simp [Ld2412Parser.decodeData, parser, hmode, hmarker]
  · simp [Ld2412Parser.decodeData, parser, hmode]

theorem write_spec (h : p.dataPos.toNat < 64) (byte : UInt8) :
    ∃ p', p.write byte = some p' ∧ p'.parser = { p.parser with
        data := p.data.setIfInBounds p.dataPos.toNat byte, dataPos := p.dataPos.toNat + 1 } ∧
      p'.length = p.length ∧ p'.dataPos.toNat = p.dataPos.toNat + 1 ∧
      p'.written = p.dataPos.toNat :: p.written := by
  have hnext : (p.dataPos + 1).toNat = p.dataPos.toNat + 1 := by
    rw [UInt16.toNat_add]
    exact Nat.mod_eq_of_lt (by simp only [UInt16.toNat_one]; omega)
  have hset : p.data.setIfInBounds p.dataPos.toNat byte = p.data.set p.dataPos.toNat byte h := by
    ext j hj
    rw [Vector.getElem_setIfInBounds, Vector.getElem_set]
  refine ⟨_, dif_pos h, ?_, rfl, hnext, rfl⟩
  simp only [parser, hset, hnext]

/-- A byte is taken, and as the unchecked parser takes it. -/
def Follows (p : CheckedParser) (byte : UInt8) : Prop :=
  ∃ p', p.feed byte = some (p', (p.parser.feed byte).2) ∧
    p'.parser = (p.parser.feed byte).1 ∧ p'.Covered

/-! One lemma for each state. -/

theorem follows_header (hs : p.state = .header) (hinv : p.parser.Inv) (byte : UInt8) :
    p.Follows byte := by
  obtain ⟨hpos, -⟩ := (Ld2412Parser.inv_header hs).mp hinv
  obtain ⟨p', hrun, hparser, hstate⟩ := matchHeader_spec hpos byte
  rw [Follows, Ld2412Parser.feed_header hs]
  refine ⟨p', ?_, hparser, ?_⟩
  · simp [feed, hs, hrun]
  · intro hlater
    rw [hs] at hstate
    rcases hstate with hstate | hstate <;> simp [hstate] at hlater

theorem follows_length (hs : p.state = .length) (byte : UInt8) : p.Follows byte := by
  rw [Follows]
  by_cases hp : p.lengthPos = 0
  · have hzero : p.parser.lengthPos = 0 := congrArg UInt8.toNat hp
    rw [Ld2412Parser.feed_length_low hs hzero]
    refine ⟨{ p with length := byte.toUInt16, lengthPos := 1 }, ?_, rfl, ?_⟩
    · simp [feed, hs, hp]
    · simp [Covered, hs]
  · have hzero : p.parser.lengthPos ≠ 0 := fun h => hp (UInt8.toNat_inj.mp h)
    by_cases hl : p.length ||| (byte.toUInt16 <<< 8) < minDataLen ∨
        p.length ||| (byte.toUInt16 <<< 8) > maxDataLen
    · rw [Ld2412Parser.feed_length_reject hs hzero hl]
      refine ⟨p.reset, ?_, rfl, ?_⟩
      · simp [feed, hs, hp, hl, reset]
      · simp [Covered, reset]
    · rw [Ld2412Parser.feed_length_accept hs hzero hl]
      refine ⟨{ p with length := p.length ||| (byte.toUInt16 <<< 8), state := .data,
                       dataPos := 0, written := [] }, ?_, rfl, ?_⟩
      · simp [feed, hs, hp, hl]
      · simp [Covered]

theorem follows_data (hs : p.state = .data) (hinv : p.parser.Inv) (hcovered : p.Covered)
    (byte : UInt8) : p.Follows byte := by
  obtain ⟨-, hmax, hpos⟩ := (Ld2412Parser.inv_data hs).mp hinv
  have hlt : p.dataPos.toNat < 64 := Nat.lt_of_lt_of_le hpos hmax
  obtain ⟨p', hrun, hparser, hlength, hdata, hwritten⟩ := write_spec hlt byte
  have hcells : ∀ i < p'.dataPos.toNat, i ∈ p'.written := by
    intro i hi
    rw [hwritten, List.mem_cons]
    rw [hdata] at hi
    rcases Nat.lt_or_eq_of_le (Nat.le_of_lt_succ hi) with hbefore | hlast
    · exact Or.inr (hcovered (Or.inl hs) i hbefore)
    · exact Or.inl hlast
  have hfull : p'.dataPos = p'.length ↔ p.dataPos.toNat + 1 = p.length.toNat := by
    rw [← UInt16.toNat_inj, hdata, hlength]
  rw [Follows]
  by_cases hl : p.dataPos.toNat + 1 = p.length.toNat
  · rw [Ld2412Parser.feed_data_last hs hl]
    refine ⟨{ p' with state := .footer, footerPos := 0 }, ?_, ?_, fun _ => hcells⟩
    · simp [feed, hs, hrun, hfull.mpr hl]
    · exact congrArg (fun q : Ld2412Parser => { q with state := .footer, footerPos := 0 }) hparser
  · rw [Ld2412Parser.feed_data_more hs hl]
    refine ⟨p', ?_, hparser, fun _ => hcells⟩
    simp [feed, hs, hrun, mt hfull.mp hl]

theorem follows_footer (hs : p.state = .footer) (hinv : p.parser.Inv) (hcovered : p.Covered)
    (byte : UInt8) : p.Follows byte := by
  obtain ⟨hmin, -, hdata, hpos⟩ := (Ld2412Parser.inv_footer hs).mp hinv
  have hexpected := footerByte_eq hpos
  rw [Follows]
  by_cases hb : byte = Ld2412.footerByte p.footerPos.toNat
  · by_cases hp : p.footerPos.toNat + 1 = 4
    · have hcells : ∀ i < 9, i ∈ p.written := by
        intro i hi
        have hbelow : i < p.dataPos.toNat := by
          change p.dataPos.toNat = p.length.toNat at hdata
          change 9 ≤ p.length.toNat at hmin
          omega
        exact hcovered (Or.inr hs) i hbelow
      have hfour := (succ_eq_four hpos).mpr hp
      obtain ⟨p', hrun, hparser⟩ := decodeData_spec (p := { p with footerPos := 4 }) hcells
      rw [Ld2412Parser.feed_footer_last hs hb hp]
      refine ⟨p'.reset, ?_, ?_, ?_⟩
      · rw [hs] at hrun
        simp [feed, hs, hexpected, ← hb, hfour, hrun, parser]
      · exact congrArg Ld2412Parser.reset hparser
      · simp [Covered, reset]
    · have hfour := mt (succ_eq_four hpos).mp hp
      rw [Ld2412Parser.feed_footer_more hs hb hp]
      refine ⟨{ p with footerPos := p.footerPos + 1 }, ?_, ?_, hcovered⟩
      · simp [feed, hs, hexpected, ← hb, hfour]
      · simp [parser, succ_toNat hpos]
  · obtain ⟨p', hrun, hparser, hstate⟩ := matchHeader_spec (p := p.reset) (Nat.zero_le 3) byte
    rw [Ld2412Parser.feed_footer_mismatch hs hb]
    refine ⟨p', ?_, hparser, ?_⟩
    · simp [feed, hs, hexpected, hb, hrun]
    · intro hlater
      rcases hstate with hstate | hstate <;> simp [hstate, reset] at hlater

/-- With the counters in range the checks never fail. -/
theorem implements_feed : Faulting.Implements
    (fun (p : CheckedParser) q => p.parser = q ∧ q.Inv ∧ p.Covered) feed Ld2412Parser.feed := by
  rintro p _ byte ⟨rfl, hinv, hcovered⟩
  have hfollows : p.Follows byte := by
    cases hs : p.state with
    | header => exact follows_header hs hinv byte
    | length => exact follows_length hs byte
    | data => exact follows_data hs hinv hcovered byte
    | footer => exact follows_footer hs hinv hcovered byte
  obtain ⟨p', hrun, hparser, hcovered'⟩ := hfollows
  exact ⟨p', hrun, hparser, Ld2412Parser.inv_feed hinv byte, hcovered'⟩

theorem covered_boot : Covered {} := by simp [Covered]

/-- Whatever bytes come, each counter is in its range where it is used; no byte indexes a
table or data_ outside it, and a report is decoded only from what its own frame has written. -/
theorem index_safety (bytes : List UInt8) :
    (Ld2412Parser.after bytes).Inv ∧
    ∃ p, Faulting.exec feed {} bytes = some (p, Mealy.outputs Ld2412Parser.feed {} bytes) ∧
      p.parser = Ld2412Parser.after bytes ∧ p.Covered := by
  refine ⟨Ld2412Parser.inv_after bytes, ?_⟩
  have hboot : Ld2412Parser.Inv {} := Ld2412Parser.inv_after []
  obtain ⟨p, hrun, hparser, -, hcovered⟩ :=
    implements_feed.exec (s := {}) ⟨rfl, hboot, covered_boot⟩ bytes
  exact ⟨p, hrun, hparser, hcovered⟩

end CheckedParser

end RoomWatchdog.Ld2412
