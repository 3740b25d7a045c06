import RoomWatchdog.Config
import RoomWatchdog.Mic.PcmStream

namespace RoomWatchdog.Mic.PcmRing

variable {N : Nat}

/-- One turn of the loop of micReadPcm: what it returns, or none when it goes on to wait. -/
def readTurn (s : PcmRing N) (maxSamples : Nat) : Option (PcmRing N × Option (List Int16)) := do
  let active := s.pcmStreaming
  let (s, samples) ← s.readPcm maxSamples
  some (s, if samples.length > 0 ∨ active = false then some samples else none)

/-- What the ADC task appends in the course of one wait. -/
def appends (s : PcmRing N) : List (List Int16) → Option (PcmRing N)
  | [] => some s
  | chunk :: chunks => do
    let s ← s.appendPcm chunk
    s.appends chunks

/-- micReadPcm for as many waits as are given, each with the chunks that the ADC task
appends before it ends. The samples are none while the call has not returned. -/
def micReadPcm (s : PcmRing N) (maxSamples : Nat) :
    List (List (List Int16)) → Option (PcmRing N × Option (List Int16))
  | [] => if maxSamples = 0 then some (s, some []) else s.readTurn maxSamples
  | chunks :: waits =>
    if maxSamples = 0 then some (s, some [])
    else do
      let (s, samples) ← s.readTurn maxSamples
      if samples.isSome then some (s, samples)
      else do
        let s ← s.appends chunks
        s.micReadPcm maxSamples waits

/-- The call returns after finitely many waits when the ADC task goes on as `adc` says. -/
def Returns (s : PcmRing N) (maxSamples : Nat) (adc : Nat → List (List Int16)) : Prop :=
  ∃ k t samples, s.micReadPcm maxSamples ((List.range k).map adc) = some (t, some samples)

/-- Streaming with nothing to read. -/
structure Idle (s : PcmRing N) : Prop where
  streaming : s.pcmStreaming = true
  empty : s.pcmCount = 0

variable [NeZero N] {s t : PcmRing N} {p : Period} {maxSamples : Nat}

theorem unread_take_length (s : PcmRing N) (maxSamples : Nat) :
    (s.unread.take maxSamples).length = min maxSamples s.pcmCount := by
  rw [List.length_take]
  exact congrArg (min maxSamples) (RingWindow.window_length _ _ _)

/-- A turn that finds nothing in a streaming ring leaves it so and waits. -/
theorem readTurn_idle (h : Refines s p) (hidle : s.Idle) (maxSamples : Nat) :
    ∃ t q, s.readTurn maxSamples = some (t, none) ∧ Refines t q ∧ t.Idle := by
  obtain ⟨t, hread, ht⟩ := read_refines h maxSamples
  have hspec := (readPcm_spec h.read_lt h.count_le maxSamples rfl).1
  have hnothing : (s.unread.take maxSamples).length = 0 := by
    rw [unread_take_length, hidle.empty]
    exact Nat.min_zero _
  refine ⟨t, _, ?_, ht, ?_⟩
  · rw [hspec] at hread
    obtain ⟨hstate, -⟩ := Prod.mk.inj (Option.some.inj hread)
    rw [readTurn, hspec, ← hstate]
    simp [hnothing, hidle.streaming]
  · rw [hspec] at hread
    obtain ⟨rfl, -⟩ := Prod.mk.inj (Option.some.inj hread)
    refine ⟨hidle.streaming, ?_⟩
    change s.pcmCount - _ = 0
    rw [hidle.empty, Nat.zero_sub]

/-- A turn that finds samples, or the stream stopped, returns. -/
theorem readTurn_ready (h : Refines s p) (hmax : 0 < maxSamples) (hready : ¬ s.Idle) :
    ∃ t samples, s.readTurn maxSamples = some (t, some samples) := by
  have hspec := (readPcm_spec h.read_lt h.count_le maxSamples rfl).1
  have hreturn : (s.unread.take maxSamples).length > 0 ∨ s.pcmStreaming = false := by
    by_contra hquiet
    obtain ⟨hnothing, hactive⟩ := not_or.mp hquiet
    apply hready
    refine ⟨by simpa using hactive, ?_⟩
    rw [unread_take_length] at hnothing
    omega
  obtain ⟨t, hread⟩ : ∃ t, s.readPcm maxSamples = some (t, s.unread.take maxSamples) :=
    ⟨_, hspec⟩
  refine ⟨t, s.unread.take maxSamples, ?_⟩
  rw [readTurn, hread]
  simp only [Option.bind_eq_bind, Option.bind_some, if_pos hreturn]

/-- The chunks of one wait, in a ring with nothing to read: it stays so unless one of them
holds a sample. -/
theorem appends_spec (h : Refines s p) (hstreaming : s.pcmStreaming = true)
    (chunks : List (List Int16)) :
    ∃ t q, s.appends chunks = some t ∧ Refines t q ∧ t.pcmStreaming = true ∧
      (t.pcmCount = 0 ↔ s.pcmCount = 0 ∧ ∀ chunk ∈ chunks, chunk = []) := by
  induction chunks generalizing s p with
  | nil => exact ⟨s, p, rfl, h, hstreaming, by simp⟩
  | cons chunk chunks ih =>
    obtain ⟨ring, hrun, -⟩ := appendPcm_spec hstreaming h.read_lt h.count_le
      (h.flowing (h.streaming.symm.trans hstreaming)).write chunk rfl
    obtain ⟨u, hu, hrefines⟩ := append_refines h chunk
    rw [hrun] at hu
    have hcount : u.pcmCount = s.pcmCount + min chunk.length (N - s.pcmCount) := by
      rw [← Option.some.inj hu]
    have hactive : u.pcmStreaming = true := by
      rw [← Option.some.inj hu]
      exact hstreaming
    obtain ⟨t, q, hrest, ht, htstreaming, hempty⟩ := ih hrefines hactive
    refine ⟨t, q, ?_, ht, htstreaming, ?_⟩
    · rw [appends, hrun, hu]
      exact hrest
    · have hN := Nat.pos_of_neZero N
      have hone : u.pcmCount = 0 ↔ s.pcmCount = 0 ∧ chunk = [] := by
        rw [hcount, ← List.length_eq_zero_iff]
        omega
      rw [hempty, hone, List.forall_mem_cons, and_assoc]

/-- A call that need not wait returns at once, whatever the ADC task does. -/
theorem returns_of_ready (h : Refines s p) (hmax : 0 < maxSamples) (hready : ¬ s.Idle)
    (adc : Nat → List (List Int16)) : s.Returns maxSamples adc := by
  obtain ⟨t, samples, hturn⟩ := readTurn_ready h hmax hready
  refine ⟨0, t, samples, ?_⟩
  rw [List.range_zero, List.map_nil, micReadPcm, if_neg (Nat.ne_of_gt hmax)]
  exact hturn

/-- One wait of an idle ring: the rest of the call goes on from what the wait left. -/
theorem micReadPcm_wait (h : Refines s p) (hmax : 0 < maxSamples) (hidle : s.Idle)
    (chunks : List (List Int16)) :
    ∃ t q, Refines t q ∧ t.pcmStreaming = true ∧
      (t.pcmCount = 0 ↔ ∀ chunk ∈ chunks, chunk = []) ∧
      ∀ waits, s.micReadPcm maxSamples (chunks :: waits) = t.micReadPcm maxSamples waits := by
  obtain ⟨u, q, hturn, hu, huidle⟩ := readTurn_idle h hidle maxSamples
  obtain ⟨t, r, happends, ht, hstreaming, hempty⟩ := appends_spec hu huidle.streaming chunks
  refine ⟨t, r, ht, hstreaming, ?_, ?_⟩
  · rw [hempty]
    exact and_iff_right huidle.empty
  · intro waits
    rw [micReadPcm, if_neg (Nat.ne_of_gt hmax), hturn]
    simp [happends]

theorem range_succ_map (adc : Nat → List (List Int16)) (k : Nat) :
    (List.range (k + 1)).map adc = adc 0 :: (List.range k).map fun i => adc (i + 1) := by
  rw [List.range_succ_eq_map, List.map_cons, List.map_map]
  rfl

/-- A sample that arrives during some wait ends the call. -/
theorem returns_of_sample (h : Refines s p) (hmax : 0 < maxSamples) {k : Nat}
    {adc : Nat → List (List Int16)} (hsample : ∃ chunk ∈ adc k, chunk ≠ []) :
    s.Returns maxSamples adc := by
  induction k generalizing s p adc with
  | zero =>
    by_cases hidle : s.Idle
    · obtain ⟨t, q, ht, -, hempty, hrun⟩ := micReadPcm_wait h hmax hidle (adc 0)
      have hready : ¬ t.Idle := by
        intro htidle
        obtain ⟨chunk, hmem, hne⟩ := hsample
        exact hne (hempty.mp htidle.empty chunk hmem)
      obtain ⟨j, u, samples, hreturn⟩ := returns_of_ready ht hmax hready fun i => adc (i + 1)
      refine ⟨j + 1, u, samples, ?_⟩
      rw [range_succ_map, hrun, hreturn]
    · exact returns_of_ready h hmax hidle adc
  | succ k ih =>
    by_cases hidle : s.Idle
    · obtain ⟨t, q, ht, -, -, hrun⟩ := micReadPcm_wait h hmax hidle (adc 0)
      obtain ⟨j, u, samples, hreturn⟩ := @ih t q ht (fun i => adc (i + 1)) hsample
      refine ⟨j + 1, u, samples, ?_⟩
      rw [range_succ_map, hrun, hreturn]
    · exact returns_of_ready h hmax hidle adc

/-- With no sample ever, a call that has to wait goes on waiting and keeps the slot. -/
theorem waits_for_ever (h : Refines s p) (hmax : 0 < maxSamples) (hidle : s.Idle)
    {adc : Nat → List (List Int16)} (hstalled : ∀ k, ∀ chunk ∈ adc k, chunk = []) (k : Nat) :
    ∃ t, s.micReadPcm maxSamples ((List.range k).map adc) = some (t, none) ∧
      t.pcmStreaming = true := by
  induction k generalizing s p adc with
  | zero =>
    obtain ⟨t, q, hturn, -, htidle⟩ := readTurn_idle h hidle maxSamples
    refine ⟨t, ?_, htidle.streaming⟩
    rw [List.range_zero, List.map_nil, micReadPcm, if_neg (Nat.ne_of_gt hmax), hturn]
  | succ k ih =>
    obtain ⟨t, q, ht, hstreaming, hempty, hrun⟩ := micReadPcm_wait h hmax hidle (adc 0)
    have htidle : t.Idle := ⟨hstreaming, hempty.mpr (hstalled 0)⟩
    obtain ⟨u, hwaiting, hu⟩ := ih ht htidle fun i => hstalled (i + 1)
    refine ⟨u, ?_, hu⟩
    rw [range_succ_map, hrun, hwaiting]

theorem not_returns (h : Refines s p) (hmax : 0 < maxSamples) (hidle : s.Idle)
    {adc : Nat → List (List Int16)} (hstalled : ∀ k, ∀ chunk ∈ adc k, chunk = []) :
    ¬ s.Returns maxSamples adc := by
  rintro ⟨k, t, samples, hreturn⟩
  obtain ⟨u, hwaiting, -⟩ := waits_for_ever h hmax hidle hstalled k
  rw [hwaiting] at hreturn
  cases hreturn

/-- From every reachable mic state and for every ADC task, a read returns exactly when the
stream is stopped, something is unread, or the ADC task appends a sample at some time. -/
theorem read_returns_iff (ops : List Op) (adc : Nat → List (List Int16)) (maxSamples : Nat)
    (hmax : 0 < maxSamples) :
    ∃ (s : PcmRing N) (answers : List Answer), Faulting.exec step {} ops = some (s, answers) ∧
      (s.Returns maxSamples adc ↔
        s.pcmStreaming = false ∨ 0 < s.pcmCount ∨ ∃ k, ∃ chunk ∈ adc k, chunk ≠ []) := by
  have himplements := @implements_period N _
  obtain ⟨s, hexec, h⟩ := himplements.exec refines_boot ops
  refine ⟨s, _, hexec, ?_⟩
  constructor
  · intro hreturns
    by_contra hnever
    obtain ⟨hstreaming, hrest⟩ := not_or.mp hnever
    obtain ⟨hcount, hstalled⟩ := not_or.mp hrest
    have hidle : s.Idle := ⟨by simpa using hstreaming, Nat.eq_zero_of_not_pos hcount⟩
    apply not_returns h hmax hidle _ hreturns
    intro k chunk hmem
    by_contra hne
    exact hstalled ⟨k, chunk, hmem, hne⟩
  · rintro (hstopped | hunread | ⟨k, hsample⟩)
    · apply returns_of_ready h hmax
      intro hidle
      exact absurd (hstopped.symm.trans hidle.streaming) Bool.false_ne_true
    · apply returns_of_ready h hmax
      intro hidle
      exact absurd hidle.empty (Nat.ne_of_gt hunread)
    · exact returns_of_sample h hmax hsample

/-- Three waits time out before a sample comes. -/
theorem read_returns_when_adc_recovers :
    ∃ (s : PcmRing 4) (answers : List Answer),
      Faulting.exec step {} [.start] = some (s, answers) ∧
      s.Returns 8 fun k => if k = 3 then [[7]] else [] := by
  obtain ⟨s, answers, hexec, hreturns⟩ :=
    @read_returns_iff 4 _ [.start] (fun k => if k = 3 then [[7]] else []) 8 (by decide)
  refine ⟨s, answers, hexec, hreturns.mpr (Or.inr (Or.inr ⟨3, [7], ?_, by decide⟩))⟩
  simp

instance : NeZero Config.audioStreamBufferSamples := ⟨by decide⟩

/-- A stalled ADC right after the start: the stream task never gets back to its client, and
the slot stays taken. -/
theorem stalled_read_never_returns :
    ∃ (s : PcmRing Config.audioStreamBufferSamples) (answers : List Answer),
      Faulting.exec step {} [.start] = some (s, answers) ∧
      ¬ s.Returns 1024 (fun _ => []) ∧
      ∀ k, ∃ t, s.micReadPcm 1024 ((List.range k).map fun _ => []) = some (t, none) ∧
        t.pcmStreaming = true := by
  have hstart := (start_refines (@refines_boot Config.audioStreamBufferSamples _)).2
  have hstalled : ∀ k : Nat, ∀ chunk ∈ (fun _ => [] : Nat → List (List Int16)) k, chunk = [] := by
    intro k chunk hmem
    cases hmem
  refine ⟨_, [.started true], rfl, ?_, ?_⟩
  · exact not_returns hstart (by decide) ⟨rfl, rfl⟩ hstalled
  · intro k
    exact waits_for_ever hstart (by decide) ⟨rfl, rfl⟩ hstalled k

end RoomWatchdog.Mic.PcmRing
