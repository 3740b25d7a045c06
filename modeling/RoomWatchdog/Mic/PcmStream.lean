import Mathlib.Data.Nat.Basic
import Mathlib.Order.Basic
import RoomWatchdog.Mic.PcmRing

namespace RoomWatchdog.Mic.PcmRing
open RingWindow

variable {N : Nat} [NeZero N]

/-- The samples in the ring that no read has taken. -/
def unread (s : PcmRing N) : List Int16 := window s.pcmRing s.pcmReadIndex s.pcmCount

/-- What holds while streaming; stopping clears the count and leaves the indexes alone. -/
structure Flowing (s : PcmRing N) (p : Period) : Prop where
  write : s.pcmWriteIndex = (s.pcmReadIndex + s.pcmCount) % N
  unread : s.unread = p.unread
  dropped : s.droppedSamples = UInt32.ofNat (p.offered - p.accepted.length)

structure Refines (s : PcmRing N) (p : Period) : Prop where
  streaming : s.pcmStreaming = p.streaming
  read_lt : s.pcmReadIndex < N
  write_lt : s.pcmWriteIndex < N
  count_le : s.pcmCount ≤ N
  idle : p.streaming = false → s.pcmCount = 0
  flowing : p.streaming = true → s.Flowing p
  read_accepted : p.read <+: p.accepted
  accepted_le : p.accepted.length ≤ p.offered

variable {s : PcmRing N} {p : Period}

theorem refines_boot : Refines ({} : PcmRing N) {} where
  streaming := rfl
  read_lt := Nat.pos_of_neZero N
  write_lt := Nat.pos_of_neZero N
  count_le := Nat.zero_le N
  idle := fun _ => rfl
  flowing := by simp
  read_accepted := List.nil_prefix
  accepted_le := Nat.le_refl 0

theorem Flowing.count (h : s.Flowing p) : s.pcmCount = p.unread.length := by
  rw [← h.unread]
  exact (window_length _ _ _).symm

theorem unread_append {xs : List Int16} (h : p.read <+: p.accepted) :
    (p.accepted ++ xs).drop p.read.length = p.unread ++ xs :=
  List.drop_append_of_le_length h.length_le

/-- An append copies the first samples that fit behind the unread ones and keeps those. -/
theorem appendPcm_spec (hstreaming : s.pcmStreaming = true) (hread : s.pcmReadIndex < N)
    (hcount : s.pcmCount ≤ N) (hwrite : s.pcmWriteIndex = (s.pcmReadIndex + s.pcmCount) % N)
    (samples : List Int16) {accepted : Nat}
    (haccepted : accepted = min samples.length (N - s.pcmCount)) :
    ∃ ring, s.appendPcm samples = some { s with
        pcmRing := ring
        pcmWriteIndex := (s.pcmWriteIndex + accepted) % N
        pcmCount := s.pcmCount + accepted
        droppedSamples := s.droppedSamples + UInt32.ofNat (samples.length - accepted) } ∧
      window ring s.pcmReadIndex (s.pcmCount + accepted) = s.unread ++ samples.take accepted := by
  obtain ⟨first, hfirst⟩ : ∃ first, first = min accepted (N - s.pcmWriteIndex) := ⟨_, rfl⟩
  have hlen : (samples.take accepted).length = accepted := by
    rw [List.length_take]
    omega
  have hfree : s.pcmCount + (samples.take accepted).length ≤ N := by omega
  have hpiece : first = min (samples.take accepted).length (N - s.pcmWriteIndex) := by
    rw [hlen, hfirst]
  obtain ⟨v₁, v₂, h₁, h₂⟩ := blit_wrapped_isSome hfree hwrite hpiece s.pcmRing
  have hwindow := window_blit_wrapped hread hfree hwrite hpiece h₁ h₂
  rw [hlen] at hwindow
  have hbounds : s.pcmWriteIndex ≤ N := by
    rw [hwrite]
    exact Nat.le_of_lt (Nat.mod_lt _ (Nat.pos_of_neZero N))
  rw [List.take_take, Nat.min_eq_left (by omega)] at h₁
  rw [List.drop_take] at h₂
  refine ⟨v₂, ?_, hwindow⟩
  simp only [appendPcm, hstreaming, if_true, minus_eq hcount, minus_eq hbounds,
    Option.bind_eq_bind, Option.bind_some, ← min_def_lt, ← haccepted, ← hfirst, h₁, h₂]

theorem append_refines (h : Refines s p) (samples : List Int16) :
    ∃ s', s.appendPcm samples = some s' ∧ Refines s' (p.append N samples) := by
  simp only [Period.append]
  cases hstreaming : p.streaming with
  | false => exact ⟨s, if_neg (by simp [h.streaming, hstreaming]), h⟩
  | true =>
    have hflowing := h.flowing hstreaming
    have hcount := h.count_le
    obtain ⟨accepted, haccepted⟩ :
        ∃ accepted, accepted = min samples.length (N - s.pcmCount) := ⟨_, rfl⟩
    obtain ⟨ring, hrun, hwindow⟩ := appendPcm_spec (h.streaming.trans hstreaming) h.read_lt hcount
      hflowing.write samples haccepted
    have htake : samples.take (N - p.unread.length) = samples.take accepted := by
      rw [← hflowing.count, List.take_eq_take_iff]
      omega
    have hlen : (samples.take accepted).length = accepted := by
      rw [List.length_take]
      omega
    rw [if_pos rfl, htake]
    refine ⟨_, hrun, ?_⟩
    refine ⟨h.streaming.trans hstreaming, h.read_lt, Nat.mod_lt _ (Nat.pos_of_neZero N), ?_,
      ?_, ?_, ?_, ?_⟩
    · show s.pcmCount + accepted ≤ N
      omega
    · intro hidle
      cases hidle
    · intro _
      refine ⟨?_, ?_, ?_⟩
      · show (s.pcmWriteIndex + accepted) % N = (s.pcmReadIndex + (s.pcmCount + accepted)) % N
        rw [hflowing.write, Nat.mod_add_mod, Nat.add_assoc]
      · rw [hflowing.unread] at hwindow
        exact hwindow.trans (unread_append h.read_accepted).symm
      · show s.droppedSamples + UInt32.ofNat (samples.length - accepted) =
          UInt32.ofNat (p.offered + samples.length - (p.accepted ++ samples.take accepted).length)
        have := h.accepted_le
        rw [hflowing.dropped, ← UInt32.ofNat_add, List.length_append, hlen]
        congr 1
        omega
    · exact h.read_accepted.trans (List.prefix_append _ _)
    · have := h.accepted_le
      simp only [List.length_append, hlen]
      omega

/-- A read copies out the oldest unread samples, whatever the state of the stream. -/
theorem readPcm_spec (hread : s.pcmReadIndex < N) (hcount : s.pcmCount ≤ N) (maxSamples : Nat)
    {available : Nat} (havailable : available = min s.pcmCount maxSamples) :
    s.readPcm maxSamples = some ({ s with
        pcmReadIndex := (s.pcmReadIndex + available) % N
        pcmCount := s.pcmCount - available }, s.unread.take maxSamples) ∧
      window s.pcmRing ((s.pcmReadIndex + available) % N) (s.pcmCount - available) =
        s.unread.drop available := by
  obtain ⟨first, hfirst⟩ : ∃ first, first = min available (N - s.pcmReadIndex) := ⟨_, rfl⟩
  obtain ⟨front, back, hfront, hback, hboth⟩ :=
    slice_wrapped s.pcmRing hread (show available ≤ N by omega) hfirst
  have hunread : s.unread =
      window s.pcmRing s.pcmReadIndex available ++
        window s.pcmRing (s.pcmReadIndex + available) (s.pcmCount - available) := by
    rw [← window_append, Nat.add_sub_cancel' (by omega)]
    rfl
  have htaken : s.unread.take maxSamples = window s.pcmRing s.pcmReadIndex available := by
    have hcut : s.unread.take maxSamples = s.unread.take available := by
      have hlen : s.unread.length = s.pcmCount := window_length _ _ _
      rw [List.take_eq_take_iff, hlen]
      omega
    rw [hcut, hunread, List.take_left' (window_length _ _ _)]
  constructor
  · simp only [readPcm, minus_eq (Nat.le_of_lt hread), Option.bind_eq_bind, Option.bind_some,
      ← min_def_lt, ← havailable, ← hfirst, hfront, hback, hboth, htaken]
  · rw [window_mod, hunread, List.drop_left' (window_length _ _ _)]

theorem read_refines (h : Refines s p) (maxSamples : Nat) :
    ∃ s', s.readPcm maxSamples = some (s', (p.take maxSamples).2) ∧
      Refines s' (p.take maxSamples).1 := by
  obtain ⟨available, havailable⟩ : ∃ available, available = min s.pcmCount maxSamples := ⟨_, rfl⟩
  obtain ⟨hrun, hwindow⟩ := readPcm_spec h.read_lt h.count_le maxSamples havailable
  have hcount := h.count_le
  simp only [Period.take]
  cases hstreaming : p.streaming with
  | false =>
    have hidle := h.idle hstreaming
    have hnone : s.unread = [] := by rw [unread, hidle, window_zero]
    rw [hnone, List.take_nil] at hrun
    refine ⟨_, hrun, ?_⟩
    refine ⟨h.streaming, Nat.mod_lt _ (Nat.pos_of_neZero N), h.write_lt, ?_, ?_, ?_,
      h.read_accepted, h.accepted_le⟩
    · show s.pcmCount - available ≤ N
      omega
    · intro _
      show s.pcmCount - available = 0
      omega
    · intro hflow
      exact absurd (hstreaming.symm.trans hflow) Bool.false_ne_true
  | true =>
    have hflowing := h.flowing hstreaming
    have hlen : (p.unread.take maxSamples).length = available := by
      rw [List.length_take, ← hflowing.count]
      omega
    rw [hflowing.unread] at hrun hwindow
    refine ⟨_, hrun, ?_⟩
    refine ⟨h.streaming.trans hstreaming, Nat.mod_lt _ (Nat.pos_of_neZero N), h.write_lt, ?_, ?_,
      ?_, ?_, h.accepted_le⟩
    · show s.pcmCount - available ≤ N
      omega
    · intro hidle
      cases hidle
    · intro _
      refine ⟨?_, ?_, hflowing.dropped⟩
      · show s.pcmWriteIndex =
          ((s.pcmReadIndex + available) % N + (s.pcmCount - available)) % N
        rw [hflowing.write, Nat.mod_add_mod, Nat.add_assoc, Nat.add_sub_cancel' (by omega)]
      · refine hwindow.trans ?_
        show p.unread.drop available = p.accepted.drop (p.read ++ p.unread.take maxSamples).length
        rw [List.length_append, hlen, Period.unread, List.drop_drop]
    · obtain ⟨rest, hrest⟩ := h.read_accepted
      have hunread : p.unread = rest := by
        rw [Period.unread, ← hrest, List.drop_left]
      show p.read ++ p.unread.take maxSamples <+: p.accepted
      rw [← hrest, hunread]
      exact List.prefix_append_right_inj _ |>.mpr (List.take_prefix _ _)

theorem start_refines (h : Refines s p) :
    s.micStartPcmStream.2 = !p.streaming ∧
    Refines s.micStartPcmStream.1 (if p.streaming then p else { streaming := true }) := by
  simp only [micStartPcmStream]
  cases hstreaming : p.streaming with
  | true => simpa [h.streaming, hstreaming] using h
  | false =>
    simp only [h.streaming, hstreaming]
    refine ⟨rfl, rfl, Nat.pos_of_neZero N, Nat.pos_of_neZero N, Nat.zero_le N, ?_, ?_,
      List.nil_prefix, Nat.le_refl 0⟩
    · intro _
      rfl
    · intro _
      exact ⟨(Nat.zero_mod N).symm, rfl, rfl⟩

theorem stop_refines (h : Refines s p) :
    Refines s.micStopPcmStream { p with streaming := false } where
  streaming := rfl
  read_lt := h.read_lt
  write_lt := h.write_lt
  count_le := Nat.zero_le N
  idle := fun _ => rfl
  flowing := by simp
  read_accepted := h.read_accepted
  accepted_le := h.accepted_le

theorem implements_period : Faulting.Implements Refines (@step N) (Period.step N) := by
  intro s p op h
  cases op with
  | append samples =>
    obtain ⟨s', hrun, hs'⟩ := append_refines h samples
    exact ⟨s', by rw [step, hrun]; rfl, hs'⟩
  | read maxSamples =>
    obtain ⟨s', hrun, hs'⟩ := read_refines h maxSamples
    exact ⟨s', by rw [step, hrun]; rfl, hs'⟩
  | start =>
    obtain ⟨hclaimed, hs'⟩ := start_refines h
    have hspec : Period.step N p .start =
        (if p.streaming then p else { streaming := true }, .started !p.streaming) := by
      simp only [Period.step]
      cases p.streaming <;> rfl
    rw [hspec, ← hclaimed]
    exact ⟨_, rfl, hs'⟩
  | stop => exact ⟨_, rfl, stop_refines h⟩

/-- In every interleaving no copy leaves the ring and the stream answers as its period
does. While streaming, what was read is a prefix of what was accepted, the counters
balance and the indexes agree, and an append adds the first samples that fit behind the
unread ones, which it leaves as they are. -/
theorem stream_lossless (ops : List Op) :
    ∃ s : PcmRing N,
      Faulting.exec step {} ops = some (s, Mealy.outputs (Period.step N) {} ops) ∧
      let p := Mealy.run (Period.step N) {} ops
      s.pcmStreaming = p.streaming ∧ p.read <+: p.accepted ∧
      (s.pcmStreaming = true →
        p.accepted = p.read ++ s.unread ∧ p.accepted.length = p.read.length + s.pcmCount ∧
        UInt32.ofNat p.offered = UInt32.ofNat p.accepted.length + s.droppedSamples ∧
        s.pcmCount ≤ N ∧ s.pcmReadIndex < N ∧ s.pcmWriteIndex < N ∧
        (s.pcmReadIndex + s.pcmCount) % N = s.pcmWriteIndex ∧
        ∀ samples, ∃ s', s.appendPcm samples = some s' ∧
          s'.unread = s.unread ++ samples.take (min samples.length (N - s.pcmCount))) := by
  have himplements := @implements_period N _
  obtain ⟨s, hexec, h⟩ := himplements.exec refines_boot ops
  refine ⟨s, hexec, h.streaming, h.read_accepted, ?_⟩
  intro hstreaming
  have hflowing := h.flowing (h.streaming.symm.trans hstreaming)
  obtain ⟨rest, hrest⟩ := h.read_accepted
  have hunread : s.unread = rest := by
    rw [hflowing.unread, Period.unread, ← hrest, List.drop_left]
  have hsplit := hrest.symm
  rw [← hunread] at hsplit
  refine ⟨hsplit, ?_, ?_, h.count_le, h.read_lt, h.write_lt, hflowing.write.symm, ?_⟩
  · rw [hsplit, List.length_append, unread, window_length]
  · rw [hflowing.dropped, ← UInt32.ofNat_add, Nat.add_sub_cancel' h.accepted_le]
  · intro samples
    obtain ⟨ring, hrun, hwindow⟩ :=
      appendPcm_spec hstreaming h.read_lt h.count_le hflowing.write samples rfl
    exact ⟨_, hrun, hwindow⟩

/-- Five samples for a ring of four, a read, a chunk that wraps, then a second period. -/
def wrappingSession : List Op :=
  [.start, .append [1, 2, 3, 4, 5], .read 3, .append [6, 7], .read 8, .append [8], .stop, .start,
    .append [9], .read 4]

theorem wrapping_session_lossless : ∃ s : PcmRing 4,
    Faulting.exec step {} wrappingSession = some (s, [.started true, .appended, .samples [1, 2, 3],
      .appended, .samples [4, 6, 7], .appended, .stopped, .started true, .appended,
      .samples [9]]) ∧
    s.pcmStreaming = true := by
  obtain ⟨s, hexec, hstreaming, -⟩ := @stream_lossless 4 _ wrappingSession
  exact ⟨s, hexec, hstreaming⟩

end RoomWatchdog.Mic.PcmRing
