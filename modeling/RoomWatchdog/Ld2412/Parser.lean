import Mathlib.Data.Vector.Basic

namespace RoomWatchdog.Ld2412

/-- One target report, with the parser's field order and defaults. -/
structure Report where
  targetState : UInt8 := 0
  movingDistanceCm : UInt16 := 0
  movingEnergy : UInt8 := 0
  stationaryDistanceCm : UInt16 := 0
  stationaryEnergy : UInt8 := 0
  deriving DecidableEq, Repr

namespace Report

def hasTarget (r : Report) : Bool := r.targetState != 0

def isMoving (r : Report) : Bool := r.targetState &&& 0x01 != 0

def isStationary (r : Report) : Bool := r.targetState &&& 0x02 != 0

/-- The moving target wins: it is the fresher measurement. -/
def primaryDistanceCm (r : Report) : UInt16 :=
  if r.isMoving then r.movingDistanceCm
  else if r.isStationary then r.stationaryDistanceCm
  else 0

end Report

def minDataLen : UInt16 := 9
def maxDataLen : UInt16 := 64

def modeEngineering : UInt8 := 0x01
def modeBasic : UInt8 := 0x02
def dataHeadMarker : UInt8 := 0xAA

def headerBytes : List UInt8 := [0xF4, 0xF3, 0xF2, 0xF1]
def footerBytes : List UInt8 := [0xF8, 0xF7, 0xF6, 0xF5]

/-- The tables have four entries; `Ld2412Parser.Inv` keeps every index inside them. -/
def headerByte (i : Nat) : UInt8 := headerBytes.getD i 0
def footerByte (i : Nat) : UInt8 := footerBytes.getD i 0

inductive State where
  | header
  | length
  | data
  | footer
  deriving DecidableEq, Repr

/-- The parser's fields. `data` is the inline buffer reused by every frame. -/
structure Ld2412Parser where
  state : State := .header
  headerPos : Nat := 0
  lengthPos : Nat := 0
  length : UInt16 := 0
  dataPos : Nat := 0
  footerPos : Nat := 0
  data : Vector UInt8 64 := Vector.replicate 64 0
  report : Report := {}
  deriving DecidableEq

namespace Ld2412Parser

variable {p : Ld2412Parser} {byte : UInt8}

def matchHeader (p : Ld2412Parser) (byte : UInt8) : Ld2412Parser :=
  if byte = headerByte p.headerPos then
    let p := { p with headerPos := p.headerPos + 1 }
    if p.headerPos = 4 then { p with state := .length, lengthPos := 0 } else p
  else
    { p with headerPos := if byte = headerByte 0 then 1 else 0 }

/-- Everything but the buffer and the last report is cleared. -/
def reset (p : Ld2412Parser) : Ld2412Parser :=
  { p with state := .header, headerPos := 0, lengthPos := 0, dataPos := 0, footerPos := 0,
           length := 0 }

/-- `data_[lo] | data_[hi] << 8` -/
def littleEndian (lo hi : UInt8) : UInt16 := lo.toUInt16 ||| (hi.toUInt16 <<< 8)

def decodeData (p : Ld2412Parser) : Ld2412Parser × Bool :=
  let knownMode := p.data[0] = modeBasic ∨ p.data[0] = modeEngineering
  if ¬ knownMode ∨ p.data[1] ≠ dataHeadMarker then
    (p, false)
  else
    ({ p with report :=
      { targetState := p.data[2]
        movingDistanceCm := littleEndian p.data[3] p.data[4]
        movingEnergy := p.data[5]
        stationaryDistanceCm := littleEndian p.data[6] p.data[7]
        stationaryEnergy := p.data[8] } }, true)

/-- Consumes one byte; true when a complete report is available in `report`. -/
def feed (p : Ld2412Parser) (byte : UInt8) : Ld2412Parser × Bool :=
  match p.state with
  | .header => (p.matchHeader byte, false)
  | .length =>
    if p.lengthPos = 0 then
      ({ p with length := byte.toUInt16, lengthPos := 1 }, false)
    else
      let p := { p with length := p.length ||| (byte.toUInt16 <<< 8) }
      if p.length < minDataLen ∨ p.length > maxDataLen then
        (p.reset, false)
      else
        ({ p with state := .data, dataPos := 0 }, false)
  | .data =>
    let p := { p with data := p.data.setIfInBounds p.dataPos byte, dataPos := p.dataPos + 1 }
    if p.dataPos = p.length.toNat then
      ({ p with state := .footer, footerPos := 0 }, false)
    else
      (p, false)
  | .footer =>
    if byte ≠ footerByte p.footerPos then
      -- the byte may already start the next header
      (p.reset.matchHeader byte, false)
    else
      let p := { p with footerPos := p.footerPos + 1 }
      if p.footerPos = 4 then
        let (p, valid) := p.decodeData
        (p.reset, valid)
      else
        (p, false)

/-! `feed` by state, so that nothing below unfolds it. -/

theorem feed_header (hs : p.state = .header) : p.feed byte = (p.matchHeader byte, false) := by
  simp [feed, hs]

theorem feed_length_low (hs : p.state = .length) (hp : p.lengthPos = 0) :
    p.feed byte = ({ p with length := byte.toUInt16, lengthPos := 1 }, false) := by
  simp [feed, hs, hp]

theorem feed_length_reject (hs : p.state = .length) (hp : p.lengthPos ≠ 0)
    (hl : p.length ||| (byte.toUInt16 <<< 8) < minDataLen ∨
      p.length ||| (byte.toUInt16 <<< 8) > maxDataLen) :
    p.feed byte = (p.reset, false) := by
  simp [feed, hs, hp, hl, reset]

theorem feed_length_accept (hs : p.state = .length) (hp : p.lengthPos ≠ 0)
    (hl : ¬ (p.length ||| (byte.toUInt16 <<< 8) < minDataLen ∨
      p.length ||| (byte.toUInt16 <<< 8) > maxDataLen)) :
    p.feed byte = ({ p with length := p.length ||| (byte.toUInt16 <<< 8), state := .data,
                            dataPos := 0 }, false) := by
  simp [feed, hs, hp, hl]

theorem feed_data_more (hs : p.state = .data) (hl : p.dataPos + 1 ≠ p.length.toNat) :
    p.feed byte = ({ p with data := p.data.setIfInBounds p.dataPos byte,
                            dataPos := p.dataPos + 1 }, false) := by
  simp [feed, hs, hl]

theorem feed_data_last (hs : p.state = .data) (hl : p.dataPos + 1 = p.length.toNat) :
    p.feed byte = ({ p with data := p.data.setIfInBounds p.dataPos byte,
                            dataPos := p.dataPos + 1, state := .footer, footerPos := 0 }, false) := by
  simp [feed, hs, hl]

theorem feed_footer_mismatch (hs : p.state = .footer) (hb : byte ≠ footerByte p.footerPos) :
    p.feed byte = (p.reset.matchHeader byte, false) := by
  simp [feed, hs, hb]

theorem feed_footer_more (hs : p.state = .footer) (hb : byte = footerByte p.footerPos)
    (hp : p.footerPos + 1 ≠ 4) :
    p.feed byte = ({ p with footerPos := p.footerPos + 1 }, false) := by
  simp [feed, hs, hb, hp]

theorem feed_footer_last (hs : p.state = .footer) (hb : byte = footerByte p.footerPos)
    (hp : p.footerPos + 1 = 4) :
    p.feed byte = (({ p with footerPos := 4 } : Ld2412Parser).decodeData.1.reset,
      ({ p with footerPos := 4 } : Ld2412Parser).decodeData.2) := by
  simp [feed, hs, hb, hp]

/-! `feed` leaves the last report alone unless it returns true. -/

@[simp] theorem reset_report : p.reset.report = p.report := rfl

@[simp] theorem matchHeader_report : (p.matchHeader byte).report = p.report := by
  simp only [matchHeader]
  split_ifs <;> rfl

theorem decodeData_rejects (h : p.decodeData.2 = false) : p.decodeData.1 = p := by
  simp only [decodeData] at h ⊢
  split_ifs at h ⊢
  rfl

theorem feed_false_report (h : (p.feed byte).2 = false) : (p.feed byte).1.report = p.report := by
  cases hs : p.state with
  | header => simp [feed_header hs]
  | length =>
    by_cases hp : p.lengthPos = 0
    · rw [feed_length_low hs hp]
    · by_cases hl : p.length ||| (byte.toUInt16 <<< 8) < minDataLen ∨
          p.length ||| (byte.toUInt16 <<< 8) > maxDataLen
      · rw [feed_length_reject hs hp hl, reset_report]
      · rw [feed_length_accept hs hp hl]
  | data =>
    by_cases hl : p.dataPos + 1 = p.length.toNat
    · rw [feed_data_last hs hl]
    · rw [feed_data_more hs hl]
  | footer =>
    by_cases hb : byte = footerByte p.footerPos
    · by_cases hp : p.footerPos + 1 = 4
      · rw [feed_footer_last hs hb hp] at h ⊢
        rw [reset_report, decodeData_rejects h]
      · rw [feed_footer_more hs hb hp]
    · rw [feed_footer_mismatch hs hb, matchHeader_report, reset_report]

end Ld2412Parser

end RoomWatchdog.Ld2412
