import RoomWatchdog.Ld2412.Deframer

namespace RoomWatchdog.Ld2412
namespace Phase

/-- The part of a header already seen while hunting. -/
def pending : Phase → List UInt8
  | .hunt pos => headerBytes.take pos
  | _ => []

theorem huntFrom_receptive (pos : Nat) (byte : UInt8) :
    (huntFrom pos byte).Receptive ∨ PrefixMatcher.step headerBytes pos byte = 4 ∨ 4 ≤ pos := by
  by_cases hpos : pos < 4
  · rcases Nat.lt_or_ge (PrefixMatcher.step headerBytes pos byte) 4 with hlt | hge
    · exact .inl (by rw [huntFrom_of_lt rfl hlt]; trivial)
    · have hle := PrefixMatcher.step_le headerBytes pos byte hpos
      exact .inr (.inl (Nat.le_antisymm hle hge))
  · exact .inr (.inr (by omega))

theorem huntFrom_pending (pos : Nat) (byte : UInt8) (read : List UInt8)
    (h : headerBytes.take pos <:+ read) : (huntFrom pos byte).pending <:+ read ++ [byte] := by
  rcases Nat.lt_or_ge (PrefixMatcher.step headerBytes pos byte) 4 with hlt | hge
  · rw [huntFrom_of_lt rfl hlt]
    exact PrefixMatcher.take_step_suffix headerBytes read pos byte h
  · rw [huntFrom, dif_neg (by omega)]
    exact List.nil_suffix

/-- A receptive phase stays receptive unless the byte completes a header. -/
theorem step_receptive {ph : Phase} (h : ph.Receptive) (byte : UInt8) :
    ((ph.step byte).1.Receptive ∨ headerBytes <:+ ph.pending ++ [byte]) ∧
    (ph.step byte).1.pending <:+ ph.pending ++ [byte] := by
  have hunted (pos : Nat) (hpos : pos < 4) (read : List UInt8)
      (hread : headerBytes.take pos <:+ read) :
      ((huntFrom pos byte).Receptive ∨ headerBytes <:+ read ++ [byte]) ∧
      (huntFrom pos byte).pending <:+ read ++ [byte] := by
    refine ⟨?_, huntFrom_pending pos byte read hread⟩
    rcases huntFrom_receptive pos byte with hr | hfull | hge
    · exact .inl hr
    · have hsuffix := PrefixMatcher.take_step_suffix headerBytes read pos byte hread
      rw [hfull] at hsuffix
      exact .inr hsuffix
    · omega
  cases ph with
  | hunt pos => exact hunted pos pos.isLt _ (List.suffix_refl _)
  | close d pos =>
    simp only [step]
    split_ifs
    · exact ⟨.inl trivial, List.nil_suffix⟩
    · exact ⟨.inl trivial, by simp [pending]⟩
    · exact hunted 0 (by decide) [] (by simp)
  | lengthLow => exact h.elim
  | lengthHigh lo => exact h.elim
  | fill f => exact h.elim

/-- Bytes without a header, the pending part included, leave a receptive phase receptive. -/
theorem run_receptive {ph : Phase} (h : ph.Receptive) (g : List UInt8)
    (hg : ¬ headerBytes <:+: ph.pending ++ g) : (Mealy.run step ph g).Receptive := by
  induction g generalizing ph with
  | nil => exact h
  | cons b g ih =>
    obtain ⟨hstep, hpend⟩ := step_receptive h b
    have hsplit : ph.pending ++ b :: g = ph.pending ++ [b] ++ g := by simp
    rw [hsplit] at hg
    refine ih (hstep.resolve_right ?_) ?_
    · intro hheader
      apply hg
      exact hheader.isInfix.trans (List.prefix_append _ _).isInfix
    · intro hheader
      obtain ⟨t, ht⟩ := hpend
      apply hg
      exact hheader.trans ⟨t, [], by rw [← ht]; simp⟩

/-- Noise without a header is passed over in silence. -/
theorem feed_noise (pos : Fin 4) (g : List UInt8)
    (hg : ¬ headerBytes <:+: headerBytes.take pos ++ g) :
    ∃ pos', Mealy.Runs step (.hunt pos) g (.hunt pos') (List.replicate g.length none) := by
  induction g generalizing pos with
  | nil => exact ⟨pos, .refl _⟩
  | cons b g ih =>
    have hsplit : headerBytes.take pos ++ b :: g = headerBytes.take pos ++ [b] ++ g := by simp
    have hsuffix := PrefixMatcher.take_step_suffix headerBytes _ pos b (List.suffix_refl _)
    rw [hsplit] at hg
    have hlt : PrefixMatcher.step headerBytes pos b < 4 := by
      by_contra hge
      have hle := PrefixMatcher.step_le headerBytes pos b pos.isLt
      rw [show PrefixMatcher.step headerBytes pos b = 4 from
        Nat.le_antisymm hle (Nat.le_of_not_lt hge)] at hsuffix
      apply hg
      exact hsuffix.isInfix.trans (List.prefix_append _ _).isInfix
    have hnext : step (.hunt pos) b = (.hunt ⟨_, hlt⟩, none) := by
      rw [step, huntFrom_of_lt rfl hlt]
    have hrest : ¬ headerBytes <:+:
        headerBytes.take (PrefixMatcher.step headerBytes pos b) ++ g := by
      intro hheader
      obtain ⟨t, ht⟩ := hsuffix
      apply hg
      exact hheader.trans ⟨t, [], by rw [← ht]; simp⟩
    obtain ⟨pos', hruns⟩ := ih ⟨_, hlt⟩ hrest
    exact ⟨pos', Mealy.Runs.cons hnext hruns⟩

/-! What the bytes read so far look like, phase by phase. -/

/-- The bytes read so far end in the part of a frame the phase has seen, and that part
began where a header was welcome. -/
def Traced (read : List UInt8) : Phase → Prop
  | .hunt pos => ∃ u, Opens u ∧ read = u ++ headerBytes.take pos
  | .lengthLow => ∃ u, Opens u ∧ read = u ++ headerBytes
  | .lengthHigh lo => ∃ u, Opens u ∧ read = u ++ headerBytes ++ [lo]
  | .fill f => ∃ u, Opens u ∧ read = u ++ headerBytes ++ lengthBytes f.len ++ f.got
  | .close d pos => ∃ u, Opens u ∧
      read = u ++ headerBytes ++ lengthBytes d.bytes.length ++ d.bytes ++ footerBytes.take pos

theorem traced_huntFrom {read u : List UInt8} {pos : Fin 4} {byte : UInt8} (hu : Opens u)
    (hread : read = u ++ headerBytes.take pos) (hopen : Opens read)
    (hrun : Mealy.run step (.hunt 0) (read ++ [byte]) = huntFrom pos byte) :
    Traced (read ++ [byte]) (huntFrom pos byte) := by
  by_cases hm : headerBytes[pos.val]? = some byte
  · have htake : u ++ headerBytes.take (pos.val + 1) = read ++ [byte] := by
      rw [hread, List.take_add_one, hm]
      simp
    have hstep := PrefixMatcher.step_match hm
    by_cases hlt : pos.val + 1 < 4
    · rw [huntFrom_of_lt hstep hlt]
      exact ⟨u, hu, htake.symm⟩
    · have heq : pos.val + 1 = 4 := by omega
      rw [huntFrom_of_complete (hstep.trans heq)]
      rw [heq] at htake
      exact ⟨u, hu, htake.symm⟩
  · by_cases hf : headerBytes.head? = some byte
    · have hstep : PrefixMatcher.step headerBytes pos byte = 1 := by
        rw [PrefixMatcher.step, if_neg hm, if_pos hf]
      have hbyte : byte = 0xF4 := by simpa [headerBytes, eq_comm] using hf
      rw [huntFrom_of_lt hstep (by decide), hbyte]
      exact ⟨read, hopen, rfl⟩
    · have hstep : PrefixMatcher.step headerBytes pos byte = 0 := by
        rw [PrefixMatcher.step, if_neg hm, if_neg hf]
      rw [huntFrom_of_lt hstep (by decide)] at hrun ⊢
      refine ⟨read ++ [byte], ?_, by simp⟩
      rw [Opens, hrun]
      trivial

/-- The history of a hunting phase with nothing pending. -/
theorem traced_hunt_zero {read : List UInt8} (hrun : Mealy.run step (.hunt 0) read = .hunt 0) :
    Traced read (.hunt 0) :=
  ⟨read, by rw [Opens, hrun]; trivial, by simp⟩

theorem footer_take_succ (pos : Fin 4) :
    footerBytes.take (pos.val + 1) = footerBytes.take pos ++ [footerByte pos] := by
  revert pos
  decide

/-- One byte keeps the history, and a report is that of a frame just completed. -/
theorem traced_step {read : List UInt8} {ph : Phase}
    (hph : Mealy.run step (.hunt 0) read = ph) (h : Traced read ph) (byte : UInt8) :
    Traced (read ++ [byte]) (ph.step byte).1 ∧
    ∀ r, (ph.step byte).2 = some r →
      ∃ (u : List UInt8) (d : Payload), Opens u ∧ read ++ [byte] = u ++ d.frame ∧ d.decode = some r := by
  have hrun : Mealy.run step (.hunt 0) (read ++ [byte]) = (ph.step byte).1 := by
    rw [Mealy.run_append, hph]
    rfl
  cases ph with
  | hunt pos =>
    obtain ⟨u, hu, hread⟩ := h
    have hopen : Opens read := by
      rw [Opens, hph]
      trivial
    exact ⟨traced_huntFrom hu hread hopen hrun, by simp [step]⟩
  | lengthLow =>
    obtain ⟨u, hu, hread⟩ := h
    exact ⟨⟨u, hu, by rw [hread]⟩, by simp [step]⟩
  | lengthHigh lo =>
    obtain ⟨u, hu, hread⟩ := h
    refine ⟨?_, by simp [step]⟩
    simp only [step, announce] at hrun ⊢
    split_ifs at hrun ⊢ with hr
    · refine ⟨u, hu, ?_⟩
      simp [hread, lengthBytes_leValue]
    · exact traced_hunt_zero hrun
  | fill f =>
    obtain ⟨u, hu, hread⟩ := h
    have hgot := f.got_lt
    refine ⟨?_, by simp [step]⟩
    simp only [step, Filling.push]
    split_ifs with hmore
    · exact ⟨u, hu, by simp [hread]⟩
    · have hlen : f.len = (f.got ++ [byte]).length := by
        simp only [List.length_append, List.length_singleton]
        omega
      exact ⟨u, hu, by simp [hread, ← hlen]⟩
  | close d pos =>
    obtain ⟨u, hu, hread⟩ := h
    simp only [step] at hrun ⊢
    split_ifs at hrun ⊢ with hb hmore
    · have htake : footerBytes.take (pos.val + 1) = footerBytes.take pos ++ [byte] := by
        rw [hb, footer_take_succ]
      exact ⟨⟨u, hu, by simp [hread, htake]⟩, by simp⟩
    · have htake : footerBytes = footerBytes.take pos ++ [byte] := by
        rw [hb, ← footer_take_succ, List.take_of_length_le (by simp [footerBytes]; omega)]
      refine ⟨traced_hunt_zero hrun, fun r hr => ⟨u, d, hu, ?_, hr⟩⟩
      rw [Payload.frame, hread]
      conv_rhs => rw [htake]
      simp
    · have hopen : Opens read := by
        rw [Opens, hph]
        trivial
      have hread0 : read = read ++ headerBytes.take (0 : Fin 4).val := by simp
      exact ⟨traced_huntFrom hopen hread0 hopen hrun, by simp⟩

theorem traced_run (read : List UInt8) : Traced read (Mealy.run step (.hunt 0) read) := by
  induction read using List.reverseRecOn with
  | nil => exact traced_hunt_zero rfl
  | append_singleton read byte ih =>
    rw [Mealy.run_append]
    exact (traced_step rfl ih byte).1

/-- A report comes exactly at the last byte of a frame whose header was welcome. -/
theorem report_iff (read : List UInt8) (byte : UInt8) (r : Report) :
    ((Mealy.run step (.hunt 0) read).step byte).2 = some r ↔
      ∃ (u : List UInt8) (d : Payload), Opens u ∧ read ++ [byte] = u ++ d.frame ∧ d.decode = some r := by
  constructor
  · exact (traced_step rfl (traced_run read) byte).2 r
  · rintro ⟨u, d, hu, hsplit, hr⟩
    have hlast : (Mealy.outputs step (.hunt 0) (read ++ [byte])).getLast? = some (some r) := by
      rw [hsplit, Mealy.outputs_append, (feed_frame hu d).2, answers, hr]
      simp
    rw [Mealy.outputs_append] at hlast
    simpa using hlast

end Phase
end RoomWatchdog.Ld2412
