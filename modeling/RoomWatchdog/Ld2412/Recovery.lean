import RoomWatchdog.Ld2412.Soundness

namespace RoomWatchdog.Ld2412

/-- Back-to-back report frames. -/
def reportStream (frames : List ReportPayload) : List UInt8 :=
  frames.flatMap fun f => f.toPayload.frame

def frameStarts (frames : List ReportPayload) : List Nat :=
  (List.range frames.length).map fun k => (reportStream (frames.take k)).length

/-- The header bytes occur nowhere but at frame starts. -/
def HeaderOnlyAtStarts (frames : List ReportPayload) : Prop :=
  ∀ i < (reportStream frames).length,
    headerBytes <+: (reportStream frames).drop i → i ∈ frameStarts frames

instance (frames : List ReportPayload) : Decidable (HeaderOnlyAtStarts frames) :=
  inferInstanceAs (Decidable (∀ i < _, _))

@[simp] theorem reportStream_nil : reportStream [] = [] := rfl

@[simp] theorem reportStream_cons (f : ReportPayload) (frames : List ReportPayload) :
    reportStream (f :: frames) = f.toPayload.frame ++ reportStream frames := rfl

@[simp] theorem reportStream_append (a b : List ReportPayload) :
    reportStream (a ++ b) = reportStream a ++ reportStream b := List.flatMap_append

/-- No frame start lies strictly inside a frame. -/
theorem not_start_inside (a b : List ReportPayload) (f : ReportPayload) {i : Nat}
    (hlo : (reportStream a).length < i)
    (hhi : i < (reportStream a).length + f.toPayload.frame.length) :
    i ∉ frameStarts (a ++ f :: b) := by
  intro hi
  obtain ⟨k, -, rfl⟩ := List.mem_map.mp hi
  rcases Nat.lt_or_ge a.length k with hk | hk
  · obtain ⟨n, rfl⟩ := Nat.exists_eq_add_of_lt hk
    rw [show a.length + n + 1 = a.length + (n + 1) by omega, List.take_length_add_append] at hhi
    simp only [List.take_succ_cons, reportStream_append, reportStream_cons,
      List.length_append] at hhi
    omega
  · have hsplit : reportStream a = reportStream (a.take k) ++ reportStream (a.drop k) := by
      rw [← reportStream_append, List.take_append_drop]
    rw [List.take_append_of_le_length hk] at hlo
    rw [hsplit, List.length_append] at hlo
    omega

/-- So no frame of such a stream holds a second header. -/
theorem no_inner_header {frames : List ReportPayload} (h : HeaderOnlyAtStarts frames)
    {f : ReportPayload} (hf : f ∈ frames) {n : Nat} (hn : 0 < n) :
    ¬ headerBytes <:+: f.toPayload.frame.drop n := by
  rintro ⟨s, t, hst⟩
  obtain ⟨a, b, rfl⟩ := List.append_of_mem hf
  have hlen := congrArg List.length hst
  simp only [List.length_append, List.length_drop, headerBytes, List.length_cons,
    List.length_nil] at hlen
  have hdrop : (reportStream (a ++ f :: b)).drop ((reportStream a).length + (n + s.length)) =
      headerBytes ++ (t ++ reportStream b) := by
    rw [reportStream_append, reportStream_cons, List.drop_length_add_append,
      List.drop_append_of_le_length (by omega), ← List.drop_drop, ← hst]
    simp
  refine not_start_inside a b f (i := (reportStream a).length + (n + s.length)) (by omega)
    (by omega) (h _ ?_ ?_)
  · simp only [reportStream_append, reportStream_cons, List.length_append]
    omega
  · rw [hdrop]
    exact List.prefix_append _ _

namespace Phase

/-- Whatever a phase still expects is over within 64 bytes of a stream that starts with
header bytes. -/
theorem settles (ph : Phase) (rest : List UInt8) (h : 64 ≤ (0xF4 :: 0xF3 :: rest).length) :
    ∃ n ≤ 64, (Mealy.run step ph ((0xF4 :: 0xF3 :: rest).take n)).Receptive ∧
      (n = 0 ∨ (Mealy.run step ph ((0xF4 :: 0xF3 :: rest).take n)).pending = []) := by
  cases ph with
  | hunt pos => exact ⟨0, by decide, trivial, .inl rfl⟩
  | close d pos => exact ⟨0, by decide, trivial, .inl rfl⟩
  | lengthLow => exact ⟨2, by decide, by simp; decide, .inr (by simp; decide)⟩
  | lengthHigh lo =>
    -- the header's first byte as high length byte announces far more than 64 bytes
    have hbig : ¬ (9 ≤ leValue lo 0xF4 ∧ leValue lo 0xF4 ≤ 64) := by
      have h244 : (0xF4 : UInt8).toNat = 244 := rfl
      rw [leValue, h244]
      omega
    have hstep : (step (.lengthHigh lo) 0xF4).1 = .hunt 0 := by
      rw [step, announce, dif_neg hbig]
    refine ⟨1, by decide, ?_, .inr ?_⟩ <;> simp only [List.take_succ_cons, List.take_zero,
      Mealy.run_cons, Mealy.run_nil, hstep]
    · trivial
    · rfl
  | fill f =>
    have hgot := f.got_lt
    have hmax := f.le_max
    refine ⟨f.len - f.got.length, by omega, ?_⟩
    rw [(feed_fill_all f _ (by rw [List.length_take]; omega)).1]
    exact ⟨trivial, .inr rfl⟩

/-- Frames met in a receptive phase leave a receptive phase. -/
theorem run_frames {ph : Phase} (h : ph.Receptive) (frames : List ReportPayload) :
    (Mealy.run step ph (reportStream frames)).Receptive := by
  induction frames generalizing ph with
  | nil => exact h
  | cons f frames ih =>
    rw [reportStream_cons, Mealy.run_append, (feed_frame h f.toPayload).1]
    exact ih trivial

/-- A receptive phase anywhere in the stream is receptive at every later frame start. -/
theorem run_rest {ph : Phase} (h : ph.Receptive) (hp : ph.pending = [])
    (frames : List ReportPayload)
    (hframes : ∀ f ∈ frames, ∀ n, 0 < n → ¬ headerBytes <:+: f.toPayload.frame.drop n)
    (n : Nat) : (Mealy.run step ph ((reportStream frames).drop n)).Receptive := by
  induction frames generalizing n with
  | nil => simpa using h
  | cons f frames ih =>
    rcases Nat.eq_zero_or_pos n with hn | hn
    · subst hn
      simpa using run_frames h (f :: frames)
    · have hrest := ih (fun g hg => hframes g (List.mem_cons_of_mem f hg))
        (n - f.toPayload.frame.length)
      rw [reportStream_cons, List.drop_append, Mealy.run_append]
      rcases Nat.lt_or_ge n f.toPayload.frame.length with hin | hout
      · have hinner := run_receptive h (f.toPayload.frame.drop n)
          (by simpa [hp] using hframes f (by simp) n hn)
        rw [Nat.sub_eq_zero_of_le (by omega), List.drop_zero]
        exact run_frames hinner frames
      · rw [List.drop_eq_nil_of_le hout]
        exact hrest

/-- From any phase, every frame start from offset 64 on is met receptive. -/
theorem receptive_after_64 (ph : Phase) (before : List ReportPayload)
    (hframes : ∀ f ∈ before, ∀ n, 0 < n → ¬ headerBytes <:+: f.toPayload.frame.drop n)
    (h : 64 ≤ (reportStream before).length) :
    (Mealy.run step ph (reportStream before)).Receptive := by
  obtain ⟨rest, hrest⟩ : ∃ rest, reportStream before = 0xF4 :: 0xF3 :: rest := by
    cases before with
    | nil => simp at h
    | cons f before => exact ⟨_, rfl⟩
  obtain ⟨n, -, hsettled, hn⟩ := settles ph rest (hrest ▸ h)
  rw [← hrest] at hsettled hn
  rcases hn with rfl | hpend
  · exact run_frames (by simpa using hsettled) before
  · have hrun := run_rest hsettled hpend before hframes n
    rwa [← Mealy.run_append, List.take_append_drop] at hrun

end Phase

namespace Ld2412Parser

/-- Bounded recovery: after any bytes whatever, a stream of report frames is decoded from
its first frame start at offset 64 or later on, each frame at its last byte and nowhere
else. -/
theorem feed_recovers (history : List UInt8) (before : List ReportPayload) (f : ReportPayload)
    (rest : List ReportPayload) (h : HeaderOnlyAtStarts (before ++ f :: rest))
    (hoffset : maxDataLen.toNat ≤ (reportStream before).length) :
    Mealy.outputs feedReport (after (history ++ reportStream before)) f.toPayload.frame =
      List.replicate (f.toPayload.frame.length - 1) none ++ [some (reportOf f.bytes)] := by
  have hframes : ∀ g ∈ before, ∀ n, 0 < n → ¬ headerBytes <:+: g.toPayload.frame.drop n :=
    fun g hg n hn => no_inner_header h (List.mem_append_left _ hg) hn
  have hopen : Phase.Opens (history ++ reportStream before) := by
    rw [Phase.Opens, Mealy.run_append]
    exact Phase.receptive_after_64 _ before hframes hoffset
  rw [feed_simulation.outputs (after_refines _) f.toPayload.frame, (Phase.feed_frame hopen _).2,
    Phase.answers, f.decode_eq]

/-- Moving and stationary target: 81 cm at energy 60 and 100 cm at energy 40. -/
def sampleReport : ReportPayload where
  bytes := [0x02, 0xAA, 0x03, 0x51, 0x00, 0x3C, 0x64, 0x00, 0x28]
  min_le := by decide
  le_max := by decide
  isReport := by decide

/-- The fifth frame after a header that announced 64 bytes which never came. -/
theorem feed_recovers_from_lost_burst :
    Mealy.outputs feedReport
        (after ([0xF4, 0xF3, 0xF2, 0xF1, 0x40, 0x00] ++
          reportStream (List.replicate 4 sampleReport))) sampleReport.toPayload.frame =
      List.replicate 18 none ++ [some (reportOf sampleReport.bytes)] :=
  feed_recovers [0xF4, 0xF3, 0xF2, 0xF1, 0x40, 0x00] (List.replicate 4 sampleReport) sampleReport []
    (by decide +kernel) (by decide)

end Ld2412Parser

end RoomWatchdog.Ld2412
