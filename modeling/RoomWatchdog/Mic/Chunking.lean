import Mathlib.Data.List.Induction
import RoomWatchdog.Mic.AdcTask

namespace RoomWatchdog.Mic

/-- Minimum and maximum of a block, as the accumulator finds them. -/
def levels (block : List (BitVec 12)) : LevelWindow :=
  block.foldl (fun window data => window.add (level data)) {}

namespace Sampler

/-- One sample in exact arithmetic. -/
def exact (window : Nat) (s : Sampler) (data : BitVec 12) :
    Sampler × (Int16 × Option LevelWindow) :=
  let levels := s.window.add (level data)
  let encoder := s.encoder.track (raw data)
  let pcm := Int16.ofInt (s.encoder.pcm (raw data))
  if s.samplesInWindow + 1 = window then (⟨encoder, {}, 0⟩, pcm, some levels)
  else (⟨encoder, levels, s.samplesInWindow + 1⟩, pcm, none)

variable {window channel : Nat} {s : Sampler}

theorem exact_encoder (s : Sampler) (data : BitVec 12) :
    (exact window s data).1.encoder = s.encoder.track (raw data) := by
  unfold exact
  dsimp only
  split_ifs <;> rfl

theorem exact_pcm (s : Sampler) (data : BitVec 12) :
    (exact window s data).2.1 = Int16.ofInt (s.encoder.pcm (raw data)) := by
  unfold exact
  dsimp only
  split_ifs <;> rfl

theorem take_eq (h : s.encoder.InRange) (data : BitVec 12) :
    s.take window data = some (exact window s data) := by
  rw [take, PcmEncoder.encode_eq h]
  simp only [exact]
  dsimp only [Option.bind_eq_bind, Option.bind_some]
  split_ifs <;> rfl

theorem run_inRange (h : s.encoder.InRange) (xs : List (BitVec 12)) :
    (Mealy.run (exact window) s xs).encoder.InRange := by
  induction xs generalizing s with
  | nil => exact h
  | cons data xs ih =>
    apply ih
    rw [exact_encoder]
    exact PcmEncoder.track_inRange h _

/-- The records of the microphone among the first `n`. -/
def pick (channel n : Nat) (records : List Record) : List (BitVec 12) :=
  ((records.take n).filter fun record => record.unit = .unit1 ∧ record.channel = channel).map
    Record.data

theorem pick_cons_mic {record : Record} (h : record.unit = .unit1 ∧ record.channel = channel)
    (n : Nat) (records : List Record) :
    pick channel (n + 1) (record :: records) = record.data :: pick channel n records := by
  simp [pick, h]

theorem pick_cons_other {record : Record} (h : record.unit ≠ .unit1 ∨ record.channel ≠ channel)
    (n : Nat) (records : List Record) :
    pick channel (n + 1) (record :: records) = pick channel n records := by
  have hno : ¬ (record.unit = .unit1 ∧ record.channel = channel) := by
    rwa [not_and_or]
  simp [pick, hno]

/-- The loop over a read is a run over the microphone's samples in it. -/
theorem scan_eq (h : s.encoder.InRange) (bytesRead offset : Nat) (records : List Record) :
    s.scan window channel bytesRead offset records =
      let xs := pick channel ((bytesRead - offset) / resultBytes) records
      some (Mealy.run (exact window) s xs, (Mealy.outputs (exact window) s xs).map Prod.fst,
        (Mealy.outputs (exact window) s xs).filterMap Prod.snd) := by
  induction records generalizing s offset with
  | nil => simp [scan, pick]
  | cons record records ih =>
    rw [scan]
    by_cases hin : offset + resultBytes ≤ bytesRead
    · have hcount : (bytesRead - offset) / resultBytes =
          (bytesRead - (offset + resultBytes)) / resultBytes + 1 := by
        simp only [resultBytes] at *
        omega
      rw [if_pos hin, hcount]
      by_cases hother : record.unit ≠ .unit1 ∨ record.channel ≠ channel
      · rw [if_pos hother, ih h, pick_cons_other hother]
      · have hmic : record.unit = .unit1 ∧ record.channel = channel := by
          rwa [← not_and_or, not_not] at hother
        have hnext : (exact window s record.data).1.encoder.InRange := by
          rw [exact_encoder]
          exact PcmEncoder.track_inRange h _
        rw [if_neg hother, take_eq h, pick_cons_mic hmic]
        simp only [Option.bind_eq_bind, Option.bind_some, ih hnext, Mealy.run_cons,
          Mealy.outputs_cons, List.map_cons, List.filterMap_cons]
        cases (exact window s record.data).2.2 <;> rfl
    · have hcount : (bytesRead - offset) / resultBytes = 0 := by
        simp only [resultBytes] at *
        omega
      rw [if_neg hin, hcount]
      simp [pick]

end Sampler

section runs
variable {window channel : Nat} {t : AdcTask}
open Sampler (exact)

/-- A read that is skipped leaves everything as it was. -/
theorem micAdcTask_skips {read : DmaRead} (h : read.processed = false) :
    micAdcTask window channel t read = some (t, {}) := by
  simp only [micAdcTask]
  simp only [DmaRead.processed] at h
  cases hresult : read.result <;> simp_all

/-- A read that is processed takes its samples through the sampler. -/
theorem micAdcTask_processes (h : t.encoder.InRange) {read : DmaRead}
    (hprocessed : read.processed = true) :
    ∃ overflowReported turn, micAdcTask window channel t read =
      some (⟨Mealy.run (exact window) t.toSampler (read.samples channel), overflowReported⟩, turn) ∧
      turn.published =
        (Mealy.outputs (exact window) t.toSampler (read.samples channel)).filterMap Prod.snd ∧
      turn.appended =
        some ((Mealy.outputs (exact window) t.toSampler (read.samples channel)).map Prod.fst) := by
  have hscan := @Sampler.scan_eq window channel t.toSampler h read.bytesRead 0
    read.dmaBuffer.toList
  refine ⟨t.overflowReported || read.result = .invalidState, ⟨_, _⟩, ?_, rfl, rfl⟩
  simp only [micAdcTask]
  simp only [DmaRead.processed] at hprocessed
  rw [if_neg, if_neg, hscan]
  · rfl
  · rintro ⟨hok, hinvalid⟩
    simp [hok, hinvalid] at hprocessed
  · intro htimeout
    simp [htimeout] at hprocessed

theorem samples_cons (read : DmaRead) (reads : List DmaRead) :
    samples channel (read :: reads) =
      (if read.processed then read.samples channel else []) ++ samples channel reads := by
  simp only [samples]
  cases h : read.processed <;> simp [h]

/-- All reads together take all samples through the sampler, wherever one read ends. -/
theorem exec_eq (h : t.encoder.InRange) (reads : List DmaRead) :
    ∃ t' turns, Faulting.exec (micAdcTask window channel) t reads = some (t', turns) ∧
      t'.toSampler = Mealy.run (exact window) t.toSampler (samples channel reads) ∧
      turns.flatMap Turn.published =
        (Mealy.outputs (exact window) t.toSampler (samples channel reads)).filterMap Prod.snd ∧
      (turns.filterMap Turn.appended).flatten =
        (Mealy.outputs (exact window) t.toSampler (samples channel reads)).map Prod.fst := by
  induction reads generalizing t with
  | nil => exact ⟨t, [], rfl, rfl, rfl, rfl⟩
  | cons read reads ih =>
    rw [samples_cons]
    cases hprocessed : read.processed with
    | false =>
      obtain ⟨t', turns, hexec, hstate, hpublished, happended⟩ := ih h
      refine ⟨t', {} :: turns, ?_, hstate, hpublished, happended⟩
      rw [Faulting.exec, micAdcTask_skips hprocessed]
      simp [hexec]
    | true =>
      obtain ⟨overflowReported, turn, hturn, hwindows, hchunk⟩ :=
        @micAdcTask_processes window channel t h read hprocessed
      obtain ⟨t', turns, hexec, hstate, hpublished, happended⟩ :=
        @ih ⟨Mealy.run (exact window) t.toSampler (read.samples channel), overflowReported⟩
          (Sampler.run_inRange h _)
      refine ⟨t', turn :: turns, ?_, ?_, ?_, ?_⟩
      · rw [Faulting.exec, hturn]
        simp only [Option.bind_eq_bind, Option.bind_some, hexec]
      · rw [hstate, if_pos rfl, Mealy.run_append]
      · rw [List.flatMap_cons, hwindows, hpublished, if_pos rfl, Mealy.outputs_append,
          List.filterMap_append]
      · rw [List.filterMap_cons_some hchunk, List.flatten_cons, happended, if_pos rfl,
          Mealy.outputs_append, List.map_append]

/-- The PCM values are those of the encoder alone, one for each sample. -/
theorem encoder_outputs (s : Sampler) (xs : List (BitVec 12)) :
    Mealy.outputs PcmEncoder.exact s.encoder (xs.map fun data => .encode (raw data)) =
      ((Mealy.outputs (exact window) s xs).map Prod.fst).map some ∧
    Mealy.run PcmEncoder.exact s.encoder (xs.map fun data => .encode (raw data)) =
      (Mealy.run (exact window) s xs).encoder := by
  induction xs generalizing s with
  | nil => exact ⟨rfl, rfl⟩
  | cons data xs ih =>
    obtain ⟨houtputs, hrun⟩ := ih (exact window s data).1
    rw [Sampler.exact_encoder] at houtputs hrun
    constructor
    · rw [List.map_cons, Mealy.outputs_cons, Mealy.outputs_cons, List.map_cons, List.map_cons,
        Sampler.exact_pcm, ← houtputs]
      rfl
    · rw [List.map_cons, Mealy.run_cons, Mealy.run_cons, ← hrun]
      rfl

end runs

theorem add_eq (w : LevelWindow) (x : Int) :
    w.add x = ⟨min w.minLevel x, max w.maxLevel x⟩ := by
  have hmin : (if x < w.minLevel then { w with minLevel := x } else w) =
      ⟨min w.minLevel x, w.maxLevel⟩ := by
    split_ifs with h
    · rw [Int.min_eq_right (Int.le_of_lt h)]
    · rw [Int.min_eq_left (Int.not_lt.mp h)]
  simp only [LevelWindow.add]
  rw [hmin]
  dsimp only
  split_ifs with h
  · rw [Int.max_eq_right (Int.le_of_lt h)]
  · rw [Int.max_eq_left (Int.not_lt.mp h)]

theorem level_bounds (data : BitVec 12) : 0 ≤ level data ∧ level data ≤ 4095 := by
  have hlt := data.isLt
  have hraw : (raw data).toNat = data.toNat := by
    rw [raw, UInt16.toNat_ofNat']
    omega
  rw [level, hraw]
  omega

theorem foldl_add (w : LevelWindow) (block : List (BitVec 12)) :
    block.foldl (fun window data => window.add (level data)) w =
      ⟨(block.map level).foldl min w.minLevel, (block.map level).foldl max w.maxLevel⟩ := by
  induction block generalizing w with
  | nil => rfl
  | cons data block ih => rw [List.foldl_cons, ih, add_eq, List.map_cons, List.foldl_cons,
      List.foldl_cons]

/-- The sentinels are legal samples, yet the first sample of a block replaces both. -/
theorem levels_eq {block : List (BitVec 12)} (hne : block ≠ []) :
    (block.map level).min? = some (levels block).minLevel ∧
    (block.map level).max? = some (levels block).maxLevel := by
  cases block with
  | nil => exact absurd rfl hne
  | cons data block =>
    have hbounds := level_bounds data
    have hmin : min 4095 (level data) = level data := by omega
    have hmax : max 0 (level data) = level data := by omega
    rw [levels, foldl_add, List.map_cons, List.foldl_cons, List.foldl_cons, hmin, hmax]
    exact ⟨rfl, rfl⟩

theorem levels_peakToPeak {block : List (BitVec 12)} (hne : block ≠ []) :
    (levels block).peakToPeak = (levels block).maxLevel - (levels block).minLevel := by
  obtain ⟨hmin, hmax⟩ := levels_eq hne
  have hle : (levels block).minLevel ≤ (levels block).maxLevel :=
    (List.max?_eq_some_iff.mp hmax).2 _ (List.min?_eq_some_iff.mp hmin).1
  rw [LevelWindow.peakToPeak, if_neg]
  simp only [LevelWindow.isEmpty, decide_eq_true_eq]
  omega

/-- What the sampler has made of the samples `xs`: complete blocks, and the rest. -/
structure Progress (window : Nat) (s : Sampler) (published : List LevelWindow)
    (xs : List (BitVec 12)) : Prop where
  total : xs.length = published.length * window + s.samplesInWindow
  count_lt : s.samplesInWindow < window
  rest : s.window = levels (xs.drop (published.length * window))
  blocks : ∀ k < published.length, published[k]? =
    some (levels ((xs.drop (k * window)).take window))

variable {window : Nat} {s : Sampler} {published : List LevelWindow} {xs : List (BitVec 12)}

theorem levels_append (xs : List (BitVec 12)) (data : BitVec 12) :
    levels (xs ++ [data]) = (levels xs).add (level data) := List.foldl_append

/-- A further sample leaves the blocks that are complete alone. -/
theorem Progress.blocks_append (h : Progress window s published xs) (data : BitVec 12) :
    ∀ k < published.length, published[k]? =
      some (levels (((xs ++ [data]).drop (k * window)).take window)) := by
  intro k hk
  have hblock : (k + 1) * window ≤ published.length * window :=
    Nat.mul_le_mul_right window hk
  have htotal := h.total
  rw [Nat.succ_mul] at hblock
  rw [h.blocks k hk, List.drop_append_of_le_length (by omega),
    List.take_append_of_le_length (by rw [List.length_drop]; omega)]

/-- The sample joins the block that is being filled. -/
theorem Progress.rest_append (h : Progress window s published xs) (data : BitVec 12) :
    s.window.add (level data) =
      levels ((xs ++ [data]).drop (published.length * window)) := by
  have htotal := h.total
  rw [h.rest, List.drop_append_of_le_length (by omega), levels_append]

/-- A sample that fills the block publishes it, and nothing is left over. -/
theorem Progress.complete (h : Progress window s published xs) (data : BitVec 12)
    (hfull : s.samplesInWindow + 1 = window) (encoder : PcmEncoder) :
    Progress window ⟨encoder, {}, 0⟩ (published ++ [s.window.add (level data)])
      (xs ++ [data]) := by
  have htotal := h.total
  have hlen : (published ++ [s.window.add (level data)]).length * window =
      published.length * window + window := by
    rw [List.length_append, List.length_singleton, Nat.succ_mul]
  have hxs : (xs ++ [data]).length = published.length * window + window := by
    rw [List.length_append, List.length_singleton]
    omega
  refine ⟨?_, ?_, ?_, ?_⟩
  · rw [hlen, hxs]
    rfl
  · change 0 < window
    omega
  · rw [hlen, List.drop_of_length_le (Nat.le_of_eq hxs)]
    rfl
  · intro k hk
    rw [List.length_append, List.length_singleton] at hk
    rcases Nat.lt_or_eq_of_le (Nat.le_of_lt_succ hk) with hold | rfl
    · rw [List.getElem?_append_left hold]
      exact h.blocks_append data k hold
    · rw [List.getElem?_concat_length, h.rest_append, List.take_of_length_le]
      rw [List.length_drop]
      omega

theorem Progress.step (h : Progress window s published xs) (data : BitVec 12) :
    Progress window (Sampler.exact window s data).1
      (published ++ (Sampler.exact window s data).2.2.toList) (xs ++ [data]) := by
  have htotal := h.total
  have hcount := h.count_lt
  by_cases hfull : s.samplesInWindow + 1 = window
  · rw [Sampler.exact, if_pos hfull]
    exact h.complete data hfull _
  · rw [Sampler.exact, if_neg hfull]
    dsimp only [Option.toList_none]
    rw [List.append_nil]
    refine ⟨?_, ?_, h.rest_append data, h.blocks_append data⟩
    · rw [List.length_append, List.length_singleton]
      change _ = published.length * window + (s.samplesInWindow + 1)
      omega
    · change s.samplesInWindow + 1 < window
      omega

theorem progress (hwindow : 0 < window) (xs : List (BitVec 12)) :
    Progress window (Mealy.run (Sampler.exact window) {} xs)
      ((Mealy.outputs (Sampler.exact window) {} xs).filterMap Prod.snd) xs := by
  induction xs using List.reverseRecOn with
  | nil =>
    refine ⟨?_, hwindow, ?_, ?_⟩
    · change 0 = 0 * window + 0
      rw [Nat.zero_mul]
    · rw [List.drop_nil]
      rfl
    · intro k hk
      cases hk
  | append_singleton xs data ih =>
    have hstep := ih.step data
    rw [Mealy.run_append, Mealy.outputs_append, List.filterMap_append]
    rw [Mealy.outputs_cons, Mealy.outputs_nil]
    cases h : (Sampler.exact window (Mealy.run (Sampler.exact window) {} xs) data).2.2 with
    | none =>
      rw [h] at hstep
      rw [List.filterMap_cons_none h]
      exact hstep
    | some complete =>
      rw [h] at hstep
      rw [List.filterMap_cons_some h]
      exact hstep

/-- Whatever the reads, the published windows are the complete blocks of the microphone's
samples, each once and in order with its true minimum and maximum, and the chunks passed to
appendPcm are together the encoder's run over all of the samples. -/
theorem chunking_independent (channel : Nat) (reads : List DmaRead) :
    ∃ (t : AdcTask) (turns : List Turn),
      Faulting.exec (micAdcTask windowSamples channel) {} reads = some (t, turns) ∧
      (turns.flatMap Turn.published).length = (samples channel reads).length / windowSamples ∧
      (∀ k < (turns.flatMap Turn.published).length,
        ∃ w, (turns.flatMap Turn.published)[k]? = some w ∧
          let block := ((samples channel reads).drop (k * windowSamples)).take windowSamples
          block.length = windowSamples ∧
          (block.map level).min? = some w.minLevel ∧ (block.map level).max? = some w.maxLevel ∧
          w.peakToPeak = w.maxLevel - w.minLevel) ∧
      Faulting.exec PcmEncoder.step {} ((samples channel reads).map fun data => .encode (raw data)) =
        some (t.encoder, (turns.filterMap Turn.appended).flatten.map some) := by
  obtain ⟨t, turns, hexec, hstate, hpublished, happended⟩ :=
    @exec_eq windowSamples channel {} PcmEncoder.reset_inRange reads
  dsimp only at hstate hpublished happended
  have hpositive : 0 < windowSamples := by decide
  have h := progress hpositive (samples channel reads)
  refine ⟨t, turns, hexec, ?_, ?_, ?_⟩
  · rw [hpublished, h.total, Nat.mul_comm, Nat.mul_add_div hpositive,
      Nat.div_eq_of_lt h.count_lt, Nat.add_zero]
  · intro k hk
    rw [hpublished] at hk ⊢
    refine ⟨_, h.blocks k hk, ?_⟩
    have hlen : (((samples channel reads).drop (k * windowSamples)).take windowSamples).length =
        windowSamples := by
      have hblock := Nat.mul_le_mul_right windowSamples hk
      have htotal := h.total
      rw [Nat.succ_mul] at hblock
      rw [List.length_take, List.length_drop]
      omega
    have hne : ((samples channel reads).drop (k * windowSamples)).take windowSamples ≠ [] := by
      intro hempty
      rw [hempty] at hlen
      exact absurd hlen (by decide)
    obtain ⟨hmin, hmax⟩ := levels_eq hne
    exact ⟨hlen, hmin, hmax, levels_peakToPeak hne⟩
  · obtain ⟨houtputs, hrun⟩ := @encoder_outputs windowSamples {} (samples channel reads)
    obtain ⟨hencoder, -⟩ :=
      PcmEncoder.exec_eq ((samples channel reads).map fun data => .encode (raw data))
    have hlocal : t.encoder = (Mealy.run (Sampler.exact windowSamples) {}
        (samples channel reads)).encoder := congrArg Sampler.encoder hstate
    rw [happended, hlocal, ← hrun, ← houtputs]
    exact hencoder

end RoomWatchdog.Mic
