import RoomWatchdog.Ld2412.Deframer

namespace RoomWatchdog.Ld2412

/-- The parser's fields describe the phase. Fields the phase does not mention are free:
`headerPos` stays at 4 outside `header`, and the buffer keeps older bytes past `dataPos`. -/
def Refines (p : Ld2412Parser) : Phase → Prop
  | .hunt pos => p.state = .header ∧ p.headerPos = pos
  | .lengthLow => p.state = .length ∧ p.lengthPos = 0
  | .lengthHigh lo => p.state = .length ∧ p.lengthPos = 1 ∧ p.length = lo.toUInt16
  | .fill f => p.state = .data ∧ p.length.toNat = f.len ∧ p.dataPos = f.got.length ∧
      p.data.toList.take f.got.length = f.got
  | .close d pos => p.state = .footer ∧ p.length.toNat = d.bytes.length ∧
      p.dataPos = d.bytes.length ∧ p.footerPos = pos ∧
      p.data.toList.take d.bytes.length = d.bytes

theorem fresh_refines : Refines {} (.hunt 0) := ⟨rfl, rfl⟩

theorem reset_refines (p : Ld2412Parser) : Refines p.reset (.hunt 0) := ⟨rfl, rfl⟩

namespace Ld2412Parser

theorem headerByte_eq_iff (pos : Fin 4) (byte : UInt8) :
    byte = headerByte pos ↔ headerBytes[pos.val]? = some byte := by
  have h : headerBytes[pos.val]? = some (headerByte pos) := by
    revert pos
    decide
  rw [h, Option.some.injEq, eq_comm]

theorem matchHeader_refines {p : Ld2412Parser} {pos : Fin 4} (hs : p.state = .header)
    (hp : p.headerPos = pos) (byte : UInt8) :
    Refines (p.matchHeader byte) (Phase.huntFrom pos byte) := by
  have hfirst : byte = headerByte 0 ↔ headerBytes.head? = some byte := headerByte_eq_iff 0 byte
  by_cases hm : headerBytes[pos.val]? = some byte
  · have hb : byte = headerByte p.headerPos := hp ▸ (headerByte_eq_iff pos byte).mpr hm
    have hstep := PrefixMatcher.step_match hm
    rw [matchHeader, if_pos hb]
    by_cases hlt : pos.val + 1 < 4
    · have hne : pos.val + 1 ≠ 4 := by omega
      rw [Phase.huntFrom_of_lt hstep hlt]
      simp [hp, hne, Refines, hs]
    · have heq : pos.val + 1 = 4 := by omega
      rw [Phase.huntFrom_of_complete (hstep.trans heq)]
      simp [hp, heq, Refines]
  · have hb : ¬ byte = headerByte p.headerPos :=
      fun h => hm ((headerByte_eq_iff pos byte).mp (hp ▸ h))
    rw [matchHeader, if_neg hb]
    by_cases hf : byte = headerByte 0
    · have hstep : PrefixMatcher.step headerBytes pos byte = 1 := by
        rw [PrefixMatcher.step, if_neg hm, if_pos (hfirst.mp hf)]
      rw [Phase.huntFrom_of_lt hstep (by decide)]
      exact ⟨hs, if_pos hf⟩
    · have hstep : PrefixMatcher.step headerBytes pos byte = 0 := by
        rw [PrefixMatcher.step, if_neg hm, if_neg (fun h => hf (hfirst.mpr h))]
      rw [Phase.huntFrom_of_lt hstep (by decide)]
      exact ⟨hs, if_neg hf⟩

/-- The buffer's first bytes are the payload, so decoding never sees an older byte. -/
theorem data_getElem {p : Ld2412Parser} {d : Payload}
    (h : p.data.toList.take d.bytes.length = d.bytes) (i : Nat) (hi : i < 9) :
    p.data[i] = d.bytes.getD i 0 := by
  have hid : i < d.bytes.length := Nat.lt_of_lt_of_le hi d.min_le
  have hget : d.bytes[i]? = p.data.toList[i]? := by
    rw [← h, List.getElem?_take_of_lt hid]
  have hdata : p.data.toList[i]? = some p.data[i] := by simp
  rw [List.getD_eq_getElem?_getD, hget, hdata, Option.getD_some]

theorem decodeData_eq {p : Ld2412Parser} {d : Payload}
    (h : p.data.toList.take d.bytes.length = d.bytes) :
    p.decodeData = if IsReport d.bytes then ({ p with report := reportOf d.bytes }, true)
      else (p, false) := by
  have hget := data_getElem h
  have hvalues : ({ targetState := p.data[2]
                    movingDistanceCm := littleEndian p.data[3] p.data[4]
                    movingEnergy := p.data[5]
                    stationaryDistanceCm := littleEndian p.data[6] p.data[7]
                    stationaryEnergy := p.data[8] } : Report) = reportOf d.bytes := by
    simp only [reportOf, littleEndian_eq, hget 2 (by decide), hget 3 (by decide),
      hget 4 (by decide), hget 5 (by decide), hget 6 (by decide), hget 7 (by decide),
      hget 8 (by decide)]
  have hmode : (¬ (p.data[0] = modeBasic ∨ p.data[0] = modeEngineering) ∨
      p.data[1] ≠ dataHeadMarker) ↔ ¬ IsReport d.bytes := by
    rw [hget 0 (by decide), hget 1 (by decide), IsReport, modeBasic, modeEngineering,
      dataHeadMarker]
    tauto
  simp only [decodeData, hvalues, hmode, ite_not]

/-- One byte as an observer sees it: the report when `feed` returned true. -/
def feedReport (p : Ld2412Parser) (byte : UInt8) : Ld2412Parser × Option Report :=
  let (p', complete) := p.feed byte
  (p', if complete then some p'.report else none)

theorem take_set_append {l : List UInt8} {n : Nat} (h : n < l.length) (b : UInt8) :
    (l.set n b).take (n + 1) = l.take n ++ [b] := by
  rw [List.take_add_one, List.take_set_of_le (Nat.le_refl n)]
  simp [h]

/-- One byte of the parser is one byte of the deframer. -/
theorem feedReport_refines {p : Ld2412Parser} {ph : Phase} (h : Refines p ph) (byte : UInt8) :
    Refines (p.feedReport byte).1 (ph.step byte).1 ∧
    (p.feedReport byte).2 = (ph.step byte).2 := by
  cases ph with
  | hunt pos =>
    obtain ⟨hs, hp⟩ := h
    rw [feedReport, feed_header hs]
    exact ⟨matchHeader_refines hs hp byte, rfl⟩
  | lengthLow =>
    obtain ⟨hs, hp⟩ := h
    rw [feedReport, feed_length_low hs hp]
    exact ⟨⟨hs, rfl, rfl⟩, rfl⟩
  | lengthHigh lo =>
    obtain ⟨hs, hp, hl⟩ := h
    have hne : p.lengthPos ≠ 0 := by omega
    have hlen : (p.length ||| (byte.toUInt16 <<< 8)).toNat = leValue lo byte := by
      rw [hl]
      exact littleEndian_toNat lo byte
    have hrange : (p.length ||| (byte.toUInt16 <<< 8) < minDataLen ∨
        p.length ||| (byte.toUInt16 <<< 8) > maxDataLen) ↔
        ¬ (9 ≤ leValue lo byte ∧ leValue lo byte ≤ 64) := by
      rw [gt_iff_lt, UInt16.lt_iff_toNat_lt, UInt16.lt_iff_toNat_lt, hlen, not_and_or, not_le,
        not_le]
      rfl
    rw [feedReport, Phase.step, Phase.announce]
    by_cases hr : 9 ≤ leValue lo byte ∧ leValue lo byte ≤ 64
    · rw [feed_length_accept hs hne (fun hc => hrange.mp hc hr), dif_pos hr]
      exact ⟨⟨rfl, hlen, rfl, rfl⟩, rfl⟩
    · rw [feed_length_reject hs hne (hrange.mpr hr), dif_neg hr]
      exact ⟨reset_refines p, rfl⟩
  | fill f =>
    obtain ⟨hs, hl, hp, hd⟩ := h
    have hgot := f.got_lt
    have hlt : f.got.length < p.data.toList.length := by
      have := f.le_max
      simp only [Vector.length_toList]
      omega
    have htake := take_set_append hlt byte
    rw [hd] at htake
    rw [feedReport, Phase.step, Filling.push]
    by_cases hmore : f.got.length + 1 < f.len
    · rw [feed_data_more hs (by omega), dif_pos hmore]
      refine ⟨⟨hs, hl, ?_, ?_⟩, rfl⟩
      · simp [hp]
      · simpa [hp] using htake
    · rw [feed_data_last hs (by omega), dif_neg hmore]
      refine ⟨⟨rfl, ?_, ?_, rfl, ?_⟩, rfl⟩
      · simp only [List.length_append, List.length_singleton]
        omega
      · simp [hp]
      · simpa [hp] using htake
  | close d pos =>
    obtain ⟨hs, hl, hp, hf, hd⟩ := h
    rw [feedReport, Phase.step]
    by_cases hb : byte = footerByte pos
    · have hbp : byte = footerByte p.footerPos := by rw [hf, hb]
      rw [if_pos hb]
      by_cases hmore : pos.val + 1 < 4
      · rw [feed_footer_more hs hbp (by omega), dif_pos hmore]
        exact ⟨⟨hs, hl, hp, by simp [hf], hd⟩, rfl⟩
      · rw [feed_footer_last hs hbp (by omega), dif_neg hmore,
          decodeData_eq (p := { p with footerPos := 4 }) hd, Payload.decode]
        split_ifs <;> exact ⟨reset_refines _, rfl⟩
    · have hbp : byte ≠ footerByte p.footerPos := by rwa [hf]
      rw [feed_footer_mismatch hs hbp, if_neg hb]
      have hmatch : Refines (p.reset.matchHeader byte) (Phase.huntFrom (0 : Fin 4) byte) :=
        matchHeader_refines rfl rfl byte
      exact ⟨hmatch, rfl⟩

theorem feed_simulation : Mealy.Simulation Refines feedReport Phase.step :=
  fun _ _ byte h => feedReport_refines h byte

/-- A fresh parser answers as a fresh deframer. -/
theorem outputs_fresh (bytes : List UInt8) :
    Mealy.outputs feedReport {} bytes = Mealy.outputs Phase.step (.hunt 0) bytes :=
  feed_simulation.outputs fresh_refines bytes

end Ld2412Parser

end RoomWatchdog.Ld2412
