import RoomWatchdog.Library.Guarded
import RoomWatchdog.Library.Threads
import RoomWatchdog.Mic.PcmStream

namespace RoomWatchdog.Audio
open Mic (PcmRing)

inductive AudioStreamStartResult where
  | started
  | busy
  | resourceFailure
  deriving DecidableEq

/-- Where a thread stands: a request in startAudioPcmStream up to its answer, or a stream
task in the loop of streamAudioPcm, between the loop and micStopPcmStream, or past it. -/
inductive Thread where
  | requested
  | claimed
  | allocated
  | failing
  | answered (result : AudioStreamStartResult)
  | streaming
  | leaving
  | finished
  deriving DecidableEq

/-- The start has claimed the slot, and nothing on its behalf has released it yet. -/
def Thread.holds : Thread → Bool
  | claimed | allocated | failing | streaming | leaving => true
  | requested | answered _ | finished => false

/-- The thread may still call micReadPcm. -/
def Thread.mayRead : Thread → Bool
  | streaming => true
  | _ => false

/-- The ring behind stateMux, and the requests and stream tasks in the order they appeared. -/
structure System (N : Nat) where
  ring : PcmRing N := {}
  threads : List Thread := []

/-- A step of a thread, given by its number, or of the ADC task. The flags say whether the
allocation or the task creation succeeded. A read may come at any time. -/
inductive Action where
  | request
  | start (i : Nat)
  | allocate (i : Nat) (ok : Bool)
  | create (i : Nat) (ok : Bool)
  | release (i : Nat)
  | read (i maxSamples : Nat)
  | leave (i : Nat)
  | stop (i : Nat)
  | append (samples : List Int16)

namespace System

variable {N : Nat}

def move (s : System N) (i : Nat) (t u : Thread) : Option (System N) := do
  let threads ← Threads.move s.threads i t u
  some { s with threads }

/-- startAudioPcmStream up to the branch on micStartPcmStream. -/
def start (s : System N) (i : Nat) : Option (System N) :=
  let started := s.ring.micStartPcmStream
  { s with ring := started.1 }.move i .requested (if started.2 then .claimed else .answered .busy)

/-- xTaskCreate, whose task is another thread. -/
def create (s : System N) (i : Nat) (ok : Bool) : Option (System N) :=
  if ok then do
    let s ← s.move i .allocated (.answered .started)
    some { s with threads := s.threads ++ [.streaming] }
  else s.move i .allocated .failing

/-- micStopPcmStream on the way from `t` to `u`. -/
def stop (s : System N) (i : Nat) (t u : Thread) : Option (System N) :=
  { s with ring := s.ring.micStopPcmStream }.move i t u

def read (s : System N) (i maxSamples : Nat) : Option (System N) :=
  if s.threads[i]? = some .streaming then do
    let (ring, _) ← s.ring.readPcm maxSamples
    some { s with ring }
  else none

def step (s : System N) : Action → Option (System N)
  | .request => some { s with threads := s.threads ++ [.requested] }
  | .start i => s.start i
  | .allocate i ok => s.move i .claimed (if ok then .allocated else .failing)
  | .create i ok => s.create i ok
  | .release i => s.stop i .failing (.answered .resourceFailure)
  | .read i maxSamples => s.read i maxSamples
  | .leave i => s.move i .streaming .leaving
  | .stop i => s.stop i .leaving .finished
  | .append samples => do
    let ring ← s.ring.appendPcm samples
    some { s with ring }

variable [NeZero N]

/-- One holder while the flag is set, none otherwise, over a ring in order. -/
structure Exclusive (s : System N) : Prop where
  holders : s.threads.countP Thread.holds = if s.ring.pcmStreaming then 1 else 0
  ring : ∃ p, s.ring.Refines p

section steps
variable {s s' : System N} {i : Nat} {t u : Thread}

omit [NeZero N] in
theorem move_eq_some : s.move i t u = some s' ↔
    ∃ threads, Threads.move s.threads i t u = some threads ∧ { s with threads } = s' := by
  simp only [move]
  rw [Option.bind_eq_bind, Option.bind_eq_some_iff]
  simp only [Option.some_inj]

omit [NeZero N] in
/-- The task takes the slot over from the request that created it. -/
theorem create_eq_some : s.create i true = some s' ↔
    ∃ v, s.move i .allocated (.answered .started) = some v ∧
      { v with threads := v.threads ++ [.streaming] } = s' := by
  rw [create, if_pos rfl, Option.bind_eq_bind, Option.bind_eq_some_iff]
  simp only [Option.some_inj]

omit [NeZero N] in
/-- A read touches the ring alone. -/
theorem read_eq_some {maxSamples : Nat} (h : s.read i maxSamples = some s') :
    ∃ ring samples, s.ring.readPcm maxSamples = some (ring, samples) ∧ { s with ring } = s' := by
  rw [read] at h
  split_ifs at h
  obtain ⟨⟨ring, samples⟩, hread, hnew⟩ := Option.bind_eq_some_iff.mp h
  exact ⟨ring, samples, hread, Option.some.inj hnew⟩

omit [NeZero N] in
theorem append_eq_some {samples : List Int16} (h : s.step (.append samples) = some s') :
    ∃ ring, s.ring.appendPcm samples = some ring ∧ { s with ring } = s' := by
  obtain ⟨ring, happend, hnew⟩ := Option.bind_eq_some_iff.mp h
  exact ⟨ring, happend, Option.some.inj hnew⟩

theorem exclusive_boot : Exclusive ({} : System N) := ⟨rfl, _, PcmRing.refines_boot⟩

/-- A move between two places that hold alike. -/
theorem exclusive_move (hs : s.Exclusive) (h : s.move i t u = some s') (heq : t.holds = u.holds) :
    s'.Exclusive := by
  obtain ⟨threads, hmove, rfl⟩ := move_eq_some.mp h
  have hcount := Threads.countP_move Thread.holds hmove
  rw [heq] at hcount
  refine ⟨?_, hs.ring⟩
  rw [← hs.holders]
  exact Nat.add_right_cancel hcount

omit [NeZero N] in
/-- A taken slot is refused with everything left as it is. -/
theorem start_busy (h : s.ring.pcmStreaming = true) :
    s.start i = s.move i .requested (.answered .busy) := by
  have hbusy : s.ring.micStartPcmStream = (s.ring, false) := if_pos h
  rw [start, hbusy]
  rfl

omit [NeZero N] in
theorem start_free (h : s.ring.pcmStreaming = false) :
    s.start i = { s with ring := s.ring.micStartPcmStream.1 }.move i .requested .claimed ∧
    s.ring.micStartPcmStream.1.pcmStreaming = true := by
  have hclaim : s.ring.micStartPcmStream.2 = true ∧
      s.ring.micStartPcmStream.1.pcmStreaming = true := by
    rw [PcmRing.micStartPcmStream, h]
    exact ⟨rfl, rfl⟩
  refine ⟨?_, hclaim.2⟩
  rw [start, hclaim.1, if_pos rfl]

theorem exclusive_start (hs : s.Exclusive) (h : s.start i = some s') : s'.Exclusive := by
  obtain ⟨p, hp⟩ := hs.ring
  have hring := (PcmRing.start_refines hp).2
  cases hstreaming : s.ring.pcmStreaming with
  | true =>
    rw [start_busy hstreaming] at h
    exact exclusive_move hs h rfl
  | false =>
    obtain ⟨hstart, hclaimed⟩ := @start_free N s i hstreaming
    rw [hstart] at h
    obtain ⟨threads, hmove, rfl⟩ := move_eq_some.mp h
    have hcount := Threads.countP_move Thread.holds hmove
    have hfree := hs.holders
    rw [hstreaming] at hfree
    refine ⟨?_, _, hring⟩
    rw [hclaimed, if_pos rfl]
    simpa [Thread.holds, hfree] using hcount

/-- Only the holder can stop the stream, and then nobody holds the slot. -/
theorem exclusive_stop (hs : s.Exclusive) (h : s.stop i t u = some s')
    (ht : t.holds = true) (hu : u.holds = false) : s'.Exclusive := by
  obtain ⟨p, hp⟩ := hs.ring
  obtain ⟨threads, hmove, rfl⟩ := move_eq_some.mp h
  have hcount := Threads.countP_move Thread.holds hmove
  have hone := hs.holders
  refine ⟨?_, _, PcmRing.stop_refines hp⟩
  change threads.countP Thread.holds = 0
  rw [ht, hu] at hcount
  simp only [if_true, Bool.false_eq_true, if_false] at hcount
  split_ifs at hone <;> omega

theorem exclusive_create (hs : s.Exclusive) {ok : Bool} (h : s.create i ok = some s') :
    s'.Exclusive := by
  cases ok with
  | false => exact exclusive_move hs h rfl
  | true =>
    obtain ⟨v, hv, rfl⟩ := create_eq_some.mp h
    obtain ⟨threads, hmove, rfl⟩ := move_eq_some.mp hv
    have hcount := Threads.countP_move Thread.holds hmove
    refine ⟨?_, hs.ring⟩
    rw [← hs.holders, List.countP_append]
    simpa [Thread.holds] using hcount

/-- What happens to the ring alone, and leaves the flag, keeps the exclusion. -/
theorem exclusive_ring (hs : s.Exclusive) {ring : PcmRing N} {p : Mic.Period}
    (hring : ring.Refines p) (hsame : ring.pcmStreaming = s.ring.pcmStreaming) :
    Exclusive { s with ring } := by
  refine ⟨?_, p, hring⟩
  rw [hsame]
  exact hs.holders

theorem exclusive_read {maxSamples : Nat} (hs : s.Exclusive)
    (h : s.read i maxSamples = some s') : s'.Exclusive := by
  obtain ⟨p, hp⟩ := hs.ring
  obtain ⟨ring, samples, hread, rfl⟩ := read_eq_some h
  obtain ⟨ring', hrun, hring⟩ := PcmRing.read_refines hp maxSamples
  obtain ⟨rfl, -⟩ := Prod.mk.inj (Option.some.inj (hread.symm.trans hrun))
  apply exclusive_ring hs hring
  rw [hring.streaming, hp.streaming]
  simp only [Mic.Period.take]
  split_ifs <;> rfl

theorem exclusive_append {samples : List Int16} (hs : s.Exclusive)
    (h : s.step (.append samples) = some s') : s'.Exclusive := by
  obtain ⟨p, hp⟩ := hs.ring
  obtain ⟨ring, happend, rfl⟩ := append_eq_some h
  obtain ⟨ring', hrun, hring⟩ := PcmRing.append_refines hp samples
  obtain rfl := Option.some.inj (happend.symm.trans hrun)
  apply exclusive_ring hs hring
  rw [hring.streaming, hp.streaming]
  simp only [Mic.Period.append]
  split_ifs <;> rfl

end steps

theorem exclusive_step (s : System N) (a : Action) (s' : System N)
    (h : s.step a = some s') (hs : s.Exclusive) : s'.Exclusive := by
  cases a with
  | request =>
    obtain rfl := Option.some.inj h
    refine ⟨?_, hs.ring⟩
    rw [← hs.holders, List.countP_append]
    rfl
  | start i => exact exclusive_start hs h
  | allocate i ok => exact exclusive_move hs h (by cases ok <;> rfl)
  | create i ok => exact exclusive_create hs h
  | release i => exact exclusive_stop hs h rfl rfl
  | read i maxSamples => exact exclusive_read hs h
  | leave i => exact exclusive_move hs h rfl
  | stop i => exact exclusive_stop hs h rfl rfl
  | append samples => exact exclusive_append hs h

variable {s : System N} {i : Nat}

omit [NeZero N] in
theorem move_eq {t u : Thread} (h : s.threads[i]? = some t) :
    s.move i t u = some { s with threads := s.threads.set i u } := by
  rw [move, Threads.move_eq h]
  rfl

omit [NeZero N] in
theorem getElem?_set {t : Thread} (h : s.threads[i]? = some t) (u : Thread) :
    (s.threads.set i u)[i]? = some u :=
  List.getElem?_set_self (List.getElem?_eq_some_iff.mp h).1

omit [NeZero N] in
/-- A request is refused exactly when the slot is taken. -/
theorem start_spec (h : s.threads[i]? = some .requested) :
    ∃ s', s.step (.start i) = some s' ∧
      (s'.threads[i]? = some (.answered .busy) ↔ s.ring.pcmStreaming = true) ∧
      (s'.threads[i]? = some .claimed ↔ s.ring.pcmStreaming = false) ∧
      (s.ring.pcmStreaming = true → s'.ring = s.ring) := by
  cases hstreaming : s.ring.pcmStreaming with
  | true =>
    refine ⟨_, (start_busy hstreaming).trans (move_eq h), ?_⟩
    simp [getElem?_set h]
  | false =>
    obtain ⟨hstart, -⟩ := @start_free N s i hstreaming
    refine ⟨_, hstart.trans (move_eq h), ?_⟩
    simp [getElem?_set h]

omit [NeZero N] in
/-- A start that failed after its claim frees the slot and empties the ring. -/
theorem release_spec (h : s.threads[i]? = some .failing) :
    ∃ s', s.step (.release i) = some s' ∧
      s'.threads[i]? = some (.answered .resourceFailure) ∧
      s'.ring.pcmStreaming = false ∧ s'.ring.pcmCount = 0 := by
  refine ⟨{ ring := s.ring.micStopPcmStream
            threads := s.threads.set i (.answered .resourceFailure) },
    ?_, getElem?_set h _, rfl, rfl⟩
  exact @move_eq N { s with ring := s.ring.micStopPcmStream } i _ _ h

omit [NeZero N] in
/-- A move gives the answer `r` to no thread but the one it takes there. -/
theorem answer_of_move {s' : System N} {t u : Thread} {j : Nat} {r : AudioStreamStartResult}
    (h : s.move i t u = some s') (hanswer : s'.threads[j]? = some (.answered r)) :
    s.threads[j]? = some (.answered r) ∨ (i = j ∧ u = .answered r) := by
  obtain ⟨threads, hmove, rfl⟩ := move_eq_some.mp h
  by_cases hij : i = j
  · right
    rw [← hij] at hanswer
    exact ⟨hij, Option.some.inj ((Threads.getElem?_move hmove).symm.trans hanswer)⟩
  · left
    rwa [← Threads.getElem?_move_of_ne hmove hij]

omit [NeZero N] in
theorem answer_of_quiet_move {s' : System N} {t u : Thread} {j : Nat}
    {r : AudioStreamStartResult} (hu : u ≠ .answered r) (h : s.move i t u = some s')
    (hanswer : s'.threads[j]? = some (.answered r)) : s.threads[j]? = some (.answered r) :=
  (answer_of_move h hanswer).resolve_right fun hgiven => hu hgiven.2

theorem answer_of_append {threads : List Thread} {t : Thread} {j : Nat}
    {r : AudioStreamStartResult} (ht : t ≠ .answered r)
    (h : (threads ++ [t])[j]? = some (.answered r)) : threads[j]? = some (.answered r) := by
  rcases Nat.lt_or_ge j threads.length with hlt | hge
  · rwa [List.getElem?_append_left hlt] at h
  · rw [List.getElem?_append_right hge] at h
    have hmem := List.mem_singleton.mp (List.mem_of_getElem? h)
    exact absurd hmem.symm ht

omit [NeZero N] in
/-- A refusal comes from micStartPcmStream, a failure from the failure path. -/
theorem answer_of_step {s' : System N} {a : Action} {j : Nat} {r : AudioStreamStartResult}
    (h : s.step a = some s') (hanswer : s'.threads[j]? = some (.answered r)) :
    s.threads[j]? = some (.answered r) ∨ (r = .busy ∧ a = .start j) ∨
      (r = .resourceFailure ∧ a = .release j) ∨ (r = .started ∧ a = .create j true) := by
  cases a with
  | request =>
    obtain rfl := Option.some.inj h
    exact Or.inl (answer_of_append (by simp) hanswer)
  | start i =>
    rcases answer_of_move h hanswer with hold | ⟨rfl, hnew⟩
    · exact Or.inl hold
    · split_ifs at hnew
      obtain rfl := Thread.answered.inj hnew
      exact Or.inr (Or.inl ⟨rfl, rfl⟩)
  | allocate i ok => exact Or.inl (answer_of_quiet_move (by cases ok <;> simp) h hanswer)
  | create i ok =>
    cases ok with
    | false => exact Or.inl (answer_of_quiet_move (by simp) h hanswer)
    | true =>
      obtain ⟨v, hv, rfl⟩ := create_eq_some.mp h
      rcases answer_of_move hv (answer_of_append (by simp) hanswer) with hold | ⟨rfl, hgiven⟩
      · exact Or.inl hold
      · obtain rfl := Thread.answered.inj hgiven
        exact Or.inr (Or.inr (Or.inr ⟨rfl, rfl⟩))
  | release i =>
    rcases answer_of_move h hanswer with hold | ⟨rfl, hnew⟩
    · exact Or.inl hold
    · obtain rfl := Thread.answered.inj hnew
      exact Or.inr (Or.inr (Or.inl ⟨rfl, rfl⟩))
  | read i maxSamples =>
    obtain ⟨ring, samples, -, rfl⟩ := read_eq_some h
    exact Or.inl hanswer
  | leave i => exact Or.inl (answer_of_quiet_move (by simp) h hanswer)
  | stop i =>
    rcases answer_of_move h hanswer with hold | ⟨-, hnew⟩
    · exact Or.inl hold
    · cases hnew
  | append samples =>
    obtain ⟨ring, -, rfl⟩ := append_eq_some h
    exact Or.inl hanswer

/-- In every interleaving at most one task may read, and the flag is set exactly while a
start that has claimed the slot, or its task, has not stopped the stream. A request is
refused exactly when the slot is taken, and then nothing changes; a failed start leaves the
slot free and the ring empty. No copy ever leaves the ring. -/
theorem slot_exclusive (actions : List Action) (s : System N)
    (h : Guarded.exec step {} actions = some s) :
    s.threads.countP Thread.mayRead ≤ 1 ∧
    s.threads.countP Thread.holds ≤ 1 ∧
    (s.ring.pcmStreaming = true ↔ ∃ t ∈ s.threads, t.holds = true) ∧
    (∀ i, s.threads[i]? = some .requested → ∃ s', s.step (.start i) = some s' ∧
      (s'.threads[i]? = some (.answered .busy) ↔ s.ring.pcmStreaming = true) ∧
      (s'.threads[i]? = some .claimed ↔ s.ring.pcmStreaming = false) ∧
      (s.ring.pcmStreaming = true → s'.ring = s.ring)) ∧
    (∀ i, s.threads[i]? = some .failing → ∃ s', s.step (.release i) = some s' ∧
      s'.threads[i]? = some (.answered .resourceFailure) ∧
      s'.ring.pcmStreaming = false ∧ s'.ring.pcmCount = 0) ∧
    (∀ a s' i r, s.step a = some s' → s'.threads[i]? = some (.answered r) →
      s.threads[i]? = some (.answered r) ∨ (r = .busy ∧ a = .start i) ∨
        (r = .resourceFailure ∧ a = .release i) ∨ (r = .started ∧ a = .create i true)) ∧
    (∀ samples, (s.ring.appendPcm samples).isSome) ∧
    ∀ maxSamples, (s.ring.readPcm maxSamples).isSome := by
  obtain ⟨hholders, p, hp⟩ := Guarded.exec_preserves Exclusive exclusive_step h exclusive_boot
  have hone : s.threads.countP Thread.holds ≤ 1 := by
    rw [hholders]
    split_ifs <;> decide
  have hreaders : s.threads.countP Thread.mayRead ≤ s.threads.countP Thread.holds := by
    apply List.countP_mono_left
    intro t _ ht
    cases t <;> first | rfl | cases ht
  refine ⟨Nat.le_trans hreaders hone, hone, ?_, fun _ => start_spec, fun _ => release_spec,
    fun _ _ _ _ => answer_of_step, ?_, ?_⟩
  · rw [← List.countP_pos_iff, hholders]
    cases s.ring.pcmStreaming <;> simp
  · intro samples
    obtain ⟨ring, happend, -⟩ := PcmRing.append_refines hp samples
    rw [happend]
    rfl
  · intro maxSamples
    obtain ⟨ring, hread, -⟩ := PcmRing.read_refines hp maxSamples
    rw [hread]
    rfl

/-- A stream that ends before a third request, whose allocation fails. The second is refused. -/
theorem slot_freed_by_failed_allocation :
    let s : System 4 :=
      { ring := { pcmStreaming := true }
        threads := [.answered .started, .finished, .answered .busy, .failing] }
    s.threads.countP Thread.mayRead ≤ 1 ∧
    ∃ s', s.step (.release 3) = some s' ∧
      s'.threads[3]? = some (.answered .resourceFailure) ∧
      s'.ring.pcmStreaming = false ∧ s'.ring.pcmCount = 0 := by
  intro s
  have hrun : Guarded.exec step {} [.request, .start 0, .allocate 0 true, .create 0 true,
      .request, .start 2, .leave 1, .stop 1,
      .request, .start 3, .allocate 3 false] = some s := rfl
  obtain ⟨hreaders, -, -, -, hrelease, -⟩ := slot_exclusive _ s hrun
  exact ⟨hreaders, hrelease 3 rfl⟩

end System

end RoomWatchdog.Audio
