import RoomWatchdog.Audio.StreamSlot
import RoomWatchdog.Library.Doorbell
import RoomWatchdog.Mic.ReadLoop

namespace RoomWatchdog.Audio
open Mic (PcmRing)

/-- NETWORK_CHUNK_SAMPLES, the room that streamAudioPcm gives to micReadPcm. -/
def networkChunkSamples : Nat := 1024

/-- The threads around the ring, with the semaphore pcmAvailable and who is about to use it: the
stream task waits for it in micReadPcm, a start has claimed the slot and is to clear it, and the
ADC task or so many stops have left their critical section and are to give it. -/
structure Signalled (N : Nat) where
  system : System N := {}
  pcmAvailable : Bool := false
  waiting : Bool := false
  clearing : Bool := false
  adcGiving : Bool := false
  stopGiving : Nat := 0

namespace Signalled

/-- A step of `System`, where a read is one turn of the loop of micReadPcm, or one on the
semaphore. -/
inductive Step where
  | request
  | start (i : Nat)
  | clear
  | allocate (i : Nat) (ok : Bool)
  | create (i : Nat) (ok : Bool)
  | release (i : Nat)
  | read (i : Nat)
  | signalled
  | timedOut
  | leave (i : Nat)
  | stop (i : Nat)
  | stopGive
  | append (samples : List Int16)
  | adcGive

variable {N : Nat}

/-- A step that neither uses the semaphore nor leads to it. -/
def quiet (s : Signalled N) (a : Action) : Option (Signalled N) := do
  let system ← s.system.step a
  some { s with system }

/-- micStartPcmStream up to its `xSemaphoreTake(pcmAvailable, 0)`. -/
def start (s : Signalled N) (i : Nat) : Option (Signalled N) := do
  let system ← s.system.step (.start i)
  some { s with system, clearing := s.clearing || s.system.ring.micStartPcmStream.2 }

def clear (s : Signalled N) : Option (Signalled N) :=
  if s.clearing then some { s with pcmAvailable := false, clearing := false } else none

/-- micStopPcmStream up to its `xSemaphoreGive(pcmAvailable)`. -/
def stop (s : Signalled N) (a : Action) : Option (Signalled N) := do
  let system ← s.system.step a
  some { s with system, stopGiving := s.stopGiving + 1 }

def stopGive (s : Signalled N) : Option (Signalled N) :=
  match s.stopGiving with
  | 0 => none
  | stopGiving + 1 => some { s with pcmAvailable := true, stopGiving }

/-- One turn of the loop of micReadPcm, up to its return or its wait. -/
def read (s : Signalled N) (i : Nat) : Option (Signalled N) :=
  if s.waiting = false ∧ s.system.threads[i]? = some .streaming then do
    let (ring, samples) ← s.system.ring.readTurn networkChunkSamples
    some { s with system := { s.system with ring }, waiting := samples.isNone }
  else none

def signalled (s : Signalled N) : Option (Signalled N) :=
  if s.waiting = true ∧ s.pcmAvailable = true then
    some { s with waiting := false, pcmAvailable := false }
  else none

def timedOut (s : Signalled N) : Option (Signalled N) :=
  if s.waiting then some { s with waiting := false } else none

/-- The `added` of appendPcm. -/
def added (ring : PcmRing N) (samples : List Int16) : Bool :=
  ring.pcmStreaming && decide (0 < min samples.length (N - ring.pcmCount))

/-- appendPcm up to its `xSemaphoreGive(pcmAvailable)`. -/
def append (s : Signalled N) (samples : List Int16) : Option (Signalled N) :=
  if s.adcGiving then none
  else do
    let system ← s.system.step (.append samples)
    some { s with system, adcGiving := added s.system.ring samples }

def adcGive (s : Signalled N) : Option (Signalled N) :=
  if s.adcGiving then some { s with pcmAvailable := true, adcGiving := false } else none

/-- A start goes on after it has cleared the semaphore, and the stream task leaves its loop
only outside the wait. -/
def step (s : Signalled N) : Step → Option (Signalled N)
  | .request => s.quiet .request
  | .start i => s.start i
  | .clear => s.clear
  | .allocate i ok => if s.clearing then none else s.quiet (.allocate i ok)
  | .create i ok => s.quiet (.create i ok)
  | .release i => s.stop (.release i)
  | .read i => s.read i
  | .signalled => s.signalled
  | .timedOut => s.timedOut
  | .leave i => if s.waiting then none else s.quiet (.leave i)
  | .stop i => s.stop (.stop i)
  | .stopGive => s.stopGive
  | .append samples => s.append samples
  | .adcGive => s.adcGive

/-- What a step is to the threads, for which the semaphore does not exist. -/
def Step.action : Step → Option Action
  | .request => some .request
  | .start i => some (.start i)
  | .clear => none
  | .allocate i ok => some (.allocate i ok)
  | .create i ok => some (.create i ok)
  | .release i => some (.release i)
  | .read i => some (.read i networkChunkSamples)
  | .signalled => none
  | .timedOut => none
  | .leave i => some (.leave i)
  | .stop i => some (.stop i)
  | .stopGive => none
  | .append samples => some (.append samples)
  | .adcGive => none

def doorbell (s : Signalled N) : Doorbell.State where
  ready := !s.system.ring.pcmStreaming || decide (s.system.ring.pcmCount ≠ 0)
  asleep := s.waiting
  bell := s.pcmAvailable
  owed := s.adcGiving.toNat + s.stopGiving

section cases
variable {s t : Signalled N}

theorem quiet_cases {a : Action} (h : s.quiet a = some t) :
    ∃ system, s.system.step a = some system ∧ { s with system } = t := by
  obtain ⟨system, hstep, hnew⟩ := Option.bind_eq_some_iff.mp h
  exact ⟨system, hstep, Option.some.inj hnew⟩

theorem start_cases {i : Nat} (h : s.start i = some t) :
    ∃ system, s.system.step (.start i) = some system ∧
      { s with system, clearing := s.clearing || s.system.ring.micStartPcmStream.2 } = t := by
  obtain ⟨system, hstep, hnew⟩ := Option.bind_eq_some_iff.mp h
  exact ⟨system, hstep, Option.some.inj hnew⟩

theorem clear_cases (h : s.clear = some t) :
    s.clearing = true ∧ { s with pcmAvailable := false, clearing := false } = t := by
  rw [clear] at h
  split_ifs at h with hclearing
  exact ⟨hclearing, Option.some.inj h⟩

theorem stop_cases {a : Action} (h : s.stop a = some t) :
    ∃ system, s.system.step a = some system ∧
      { s with system, stopGiving := s.stopGiving + 1 } = t := by
  obtain ⟨system, hstep, hnew⟩ := Option.bind_eq_some_iff.mp h
  exact ⟨system, hstep, Option.some.inj hnew⟩

theorem stopGive_cases (h : s.stopGive = some t) : ∃ stopGiving,
    s.stopGiving = stopGiving + 1 ∧ { s with pcmAvailable := true, stopGiving } = t := by
  simp only [stopGive] at h
  split at h
  · cases h
  next stopGiving hgiving => exact ⟨stopGiving, hgiving, Option.some.inj h⟩

theorem signalled_cases (h : s.signalled = some t) :
    s.waiting = true ∧ s.pcmAvailable = true ∧
      { s with waiting := false, pcmAvailable := false } = t := by
  rw [signalled] at h
  split_ifs at h with hboth
  exact ⟨hboth.1, hboth.2, Option.some.inj h⟩

theorem timedOut_cases (h : s.timedOut = some t) :
    s.waiting = true ∧ { s with waiting := false } = t := by
  rw [timedOut] at h
  split_ifs at h with hwaiting
  exact ⟨hwaiting, Option.some.inj h⟩

theorem append_cases {samples : List Int16} (h : s.append samples = some t) :
    s.adcGiving = false ∧ ∃ system, s.system.step (.append samples) = some system ∧
      { s with system, adcGiving := added s.system.ring samples } = t := by
  rw [append] at h
  split_ifs at h with hgiving
  obtain ⟨system, hstep, hnew⟩ := Option.bind_eq_some_iff.mp h
  exact ⟨by simpa using hgiving, system, hstep, Option.some.inj hnew⟩

theorem adcGive_cases (h : s.adcGive = some t) :
    s.adcGiving = true ∧ { s with pcmAvailable := true, adcGiving := false } = t := by
  rw [adcGive] at h
  split_ifs at h with hgiving
  exact ⟨hgiving, Option.some.inj h⟩

/-- A turn reads, and goes on to wait if the stream is up and gave nothing. -/
theorem read_cases {i : Nat} (h : s.read i = some t) :
    s.waiting = false ∧ s.system.threads[i]? = some .streaming ∧ ∃ ring samples,
      s.system.ring.readPcm networkChunkSamples = some (ring, samples) ∧
      { s with
        system := { s.system with ring }
        waiting := !decide (samples.length > 0 ∨ s.system.ring.pcmStreaming = false) } = t := by
  rw [read] at h
  split_ifs at h with hat
  obtain ⟨⟨ring, returned⟩, hturn, hnew⟩ := Option.bind_eq_some_iff.mp h
  obtain ⟨⟨ring', samples⟩, hread, hreturned⟩ := Option.bind_eq_some_iff.mp hturn
  obtain ⟨rfl, rfl⟩ := Prod.mk.inj (Option.some.inj hreturned)
  refine ⟨hat.1, hat.2, ring', samples, hread, ?_⟩
  rw [← Option.some.inj hnew]
  dsimp only
  split_ifs with hgoes <;> simp [hgoes]

theorem allocate_cases {i : Nat} {ok : Bool} (h : s.step (.allocate i ok) = some t) :
    s.clearing = false ∧ s.quiet (.allocate i ok) = some t := by
  simp only [step] at h
  split_ifs at h with hclearing
  exact ⟨by simpa using hclearing, h⟩

theorem leave_cases {i : Nat} (h : s.step (.leave i) = some t) :
    s.waiting = false ∧ s.quiet (.leave i) = some t := by
  simp only [step] at h
  split_ifs at h with hwaiting
  exact ⟨by simpa using hwaiting, h⟩

end cases

section runs
variable {s t : Signalled N}

/-- The threads take the same step, or none when the semaphore alone changes. -/
theorem step_system {a : Step} (h : s.step a = some t) :
    Guarded.exec System.step s.system a.action.toList = some t.system := by
  have hone : ∀ {action : Action} {system : System N},
      s.system.step action = some system →
      Guarded.exec System.step s.system [action] = some system := by
    intro action system hstep
    exact Guarded.exec_cons.mpr ⟨system, hstep, rfl⟩
  cases a with
  | request =>
    obtain ⟨system, hstep, rfl⟩ := quiet_cases h
    exact hone hstep
  | start i =>
    obtain ⟨system, hstep, rfl⟩ := start_cases h
    exact hone hstep
  | clear =>
    obtain ⟨-, rfl⟩ := clear_cases h
    rfl
  | allocate i ok =>
    obtain ⟨system, hstep, rfl⟩ := quiet_cases (allocate_cases h).2
    exact hone hstep
  | create i ok =>
    obtain ⟨system, hstep, rfl⟩ := quiet_cases h
    exact hone hstep
  | release i =>
    obtain ⟨system, hstep, rfl⟩ := stop_cases h
    exact hone hstep
  | read i =>
    obtain ⟨-, hat, ring, samples, hread, rfl⟩ := read_cases h
    apply hone
    rw [System.step, System.read, if_pos hat, hread]
    rfl
  | signalled =>
    obtain ⟨-, -, rfl⟩ := signalled_cases h
    rfl
  | timedOut =>
    obtain ⟨-, rfl⟩ := timedOut_cases h
    rfl
  | leave i =>
    obtain ⟨system, hstep, rfl⟩ := quiet_cases (leave_cases h).2
    exact hone hstep
  | stop i =>
    obtain ⟨system, hstep, rfl⟩ := stop_cases h
    exact hone hstep
  | stopGive =>
    obtain ⟨stopGiving, -, rfl⟩ := stopGive_cases h
    rfl
  | append samples =>
    obtain ⟨-, system, hstep, rfl⟩ := append_cases h
    exact hone hstep
  | adcGive =>
    obtain ⟨-, rfl⟩ := adcGive_cases h
    rfl

/-- A run with the semaphore is a run of the threads. -/
theorem exec_system {steps : List Step} (h : Guarded.exec step s steps = some t) :
    Guarded.exec System.step s.system (steps.filterMap Step.action) = some t.system := by
  induction steps generalizing s with
  | nil => exact congrArg (Option.map Signalled.system) h
  | cons a steps ih =>
    obtain ⟨u, hstep, hrest⟩ := Guarded.exec_cons.mp h
    have hhere := step_system hstep
    rw [List.filterMap_cons]
    cases haction : a.action with
    | none =>
      rw [haction] at hhere
      rw [Option.some.inj hhere]
      exact ih hrest
    | some action =>
      rw [haction] at hhere
      obtain ⟨system, hsystem, hlast⟩ := Guarded.exec_cons.mp hhere
      obtain rfl := Option.some.inj hlast
      exact Guarded.exec_cons.mpr ⟨u.system, hsystem, ih hrest⟩

end runs

end Signalled

/-- The place that a step of the threads leaves. -/
def Action.leaves : Action → Option Thread
  | .request => none
  | .start _ => some .requested
  | .allocate _ _ => some .claimed
  | .create _ _ => some .allocated
  | .release _ => some .failing
  | .read _ _ => none
  | .leave _ => some .streaming
  | .stop _ => some .leaving
  | .append _ => none

namespace System
variable {N : Nat} {s s' : System N}

theorem mem_move {i : Nat} {t u v : Thread} (h : s.move i t u = some s') (hv : v ∈ s.threads)
    (hne : some t ≠ some v) : v ∈ s'.threads := by
  obtain ⟨threads, hmove, rfl⟩ := move_eq_some.mp h
  apply Threads.mem_move hmove hv
  intro hsame
  exact hne (congrArg some hsame.symm)

theorem mem_step {a : Action} {v : Thread} (h : s.step a = some s') (hv : v ∈ s.threads)
    (hne : a.leaves ≠ some v) : v ∈ s'.threads := by
  cases a with
  | request =>
    obtain rfl := Option.some.inj h
    exact List.mem_append_left _ hv
  | start i => exact mem_move h hv hne
  | allocate i ok => exact mem_move h hv hne
  | create i ok =>
    cases ok with
    | false => exact mem_move h hv hne
    | true =>
      obtain ⟨u, hu, rfl⟩ := create_eq_some.mp h
      exact List.mem_append_left _ (mem_move hu hv hne)
  | release i => exact mem_move h hv hne
  | read i maxSamples =>
    obtain ⟨ring, samples, -, rfl⟩ := read_eq_some h
    exact hv
  | leave i => exact mem_move h hv hne
  | stop i => exact mem_move h hv hne
  | append samples =>
    obtain ⟨ring, -, rfl⟩ := append_eq_some h
    exact hv

theorem move_ring {i : Nat} {t u : Thread} (h : s.move i t u = some s') : s'.ring = s.ring := by
  obtain ⟨threads, -, rfl⟩ := move_eq_some.mp h
  rfl

theorem create_ring {i : Nat} {ok : Bool} (h : s.create i ok = some s') : s'.ring = s.ring := by
  cases ok with
  | false => exact move_ring h
  | true =>
    obtain ⟨u, hu, rfl⟩ := create_eq_some.mp h
    change u.ring = s.ring
    exact move_ring hu

end System

namespace Signalled
variable {N : Nat} {s t : Signalled N}

/-- A start that takes the slot has claimed it before it clears the semaphore. -/
theorem claimed_of_start {i : Nat} {system : System N} (h : s.system.step (.start i) = some system)
    (hstarted : s.system.ring.micStartPcmStream.2 = true) : .claimed ∈ system.threads := by
  obtain ⟨threads, hmove, rfl⟩ := System.move_eq_some.mp h
  rw [hstarted] at hmove
  exact Threads.mem_of_move hmove

theorem turns_quiet {a : Action} (h : s.quiet a = some t)
    (hring : ∀ system, s.system.step a = some system → system.ring = s.system.ring) :
    Relation.ReflTransGen Doorbell.Turn s.doorbell t.doorbell := by
  obtain ⟨system, hstep, rfl⟩ := quiet_cases h
  have hsame : doorbell { s with system } = s.doorbell := by
    rw [doorbell, hring system hstep]
    rfl
  rw [hsame]

/-- A start that takes the slot was answered as ready, since no stream was up. -/
theorem turns_start {i : Nat} (h : s.start i = some t) :
    Relation.ReflTransGen Doorbell.Turn s.doorbell t.doorbell := by
  obtain ⟨system, hstep, rfl⟩ := start_cases h
  obtain ⟨threads, -, rfl⟩ := System.move_eq_some.mp hstep
  cases hstreaming : s.system.ring.pcmStreaming with
  | true =>
    have hring : s.system.ring.micStartPcmStream.1 = s.system.ring := by
      rw [PcmRing.micStartPcmStream, if_pos hstreaming]
    simp only [doorbell, hring]
    exact Relation.ReflTransGen.refl
  | false =>
    have hready : s.doorbell.ready = true := by simp [doorbell, hstreaming]
    exact Relation.ReflTransGen.single (Doorbell.Turn.take s.doorbell fun _ => hready)

theorem turns_stop {a : Action} (h : s.stop a = some t) :
    Relation.ReflTransGen Doorbell.Turn s.doorbell t.doorbell := by
  obtain ⟨system, -, rfl⟩ := stop_cases h
  exact Relation.ReflTransGen.single (Doorbell.Turn.put s.doorbell _)

theorem turns_stopGive (h : s.stopGive = some t) :
    Relation.ReflTransGen Doorbell.Turn s.doorbell t.doorbell := by
  obtain ⟨stopGiving, hgiving, rfl⟩ := stopGive_cases h
  apply Relation.ReflTransGen.single
  apply Doorbell.Turn.ring s.doorbell
  show s.adcGiving.toNat + s.stopGiving = s.adcGiving.toNat + stopGiving + 1
  rw [hgiving, Nat.add_assoc]

theorem turns_signalled (h : s.signalled = some t) :
    Relation.ReflTransGen Doorbell.Turn s.doorbell t.doorbell := by
  obtain ⟨-, -, rfl⟩ := signalled_cases h
  exact Relation.ReflTransGen.single (Doorbell.Turn.wake s.doorbell)

theorem turns_timedOut (h : s.timedOut = some t) :
    Relation.ReflTransGen Doorbell.Turn s.doorbell t.doorbell := by
  obtain ⟨-, rfl⟩ := timedOut_cases h
  exact Relation.ReflTransGen.single (Doorbell.Turn.timeOut s.doorbell)

theorem turns_adcGive (h : s.adcGive = some t) :
    Relation.ReflTransGen Doorbell.Turn s.doorbell t.doorbell := by
  obtain ⟨hgiving, rfl⟩ := adcGive_cases h
  apply Relation.ReflTransGen.single
  apply Doorbell.Turn.ring s.doorbell
  show s.adcGiving.toNat + s.stopGiving = 0 + s.stopGiving + 1
  rw [hgiving, Nat.zero_add, Nat.add_comm]
  rfl

variable [NeZero N]

/-- Who waits is the task in its loop, and who is about to clear the semaphore has claimed the
slot. -/
structure Placed (s : Signalled N) : Prop where
  exclusive : s.system.Exclusive
  waiting : s.waiting = true → .streaming ∈ s.system.threads
  clearing : s.clearing = true → .claimed ∈ s.system.threads

theorem placed_boot : Placed ({} : Signalled N) where
  exclusive := System.exclusive_boot
  waiting := by simp
  clearing := by simp

theorem Placed.system (hs : s.Placed) {a : Action} {system : System N}
    (h : s.system.step a = some system)
    (hwaiting : s.waiting = true → a.leaves ≠ some .streaming)
    (hclearing : s.clearing = true → a.leaves ≠ some .claimed) :
    Placed { s with system } where
  exclusive := System.exclusive_step _ a _ h hs.exclusive
  waiting := fun hw => System.mem_step h (hs.waiting hw) (hwaiting hw)
  clearing := fun hc => System.mem_step h (hs.clearing hc) (hclearing hc)

theorem placed_step (s : Signalled N) (a : Step) (t : Signalled N) (h : s.step a = some t)
    (hs : s.Placed) : t.Placed := by
  cases a with
  | request =>
    obtain ⟨system, hstep, rfl⟩ := quiet_cases h
    exact hs.system hstep (by simp [Action.leaves]) (by simp [Action.leaves])
  | start i =>
    obtain ⟨system, hstep, rfl⟩ := start_cases h
    have hplaced := hs.system hstep (by simp [Action.leaves]) (by simp [Action.leaves])
    refine ⟨hplaced.exclusive, hplaced.waiting, ?_⟩
    intro hclearing
    rcases (Bool.or_eq_true _ _).mp hclearing with hearlier | hstarted
    · exact hplaced.clearing hearlier
    · exact claimed_of_start hstep hstarted
  | clear =>
    obtain ⟨-, rfl⟩ := clear_cases h
    exact ⟨hs.exclusive, hs.waiting, by simp⟩
  | allocate i ok =>
    obtain ⟨hclearing, hquiet⟩ := allocate_cases h
    obtain ⟨system, hstep, rfl⟩ := quiet_cases hquiet
    exact hs.system hstep (by simp [Action.leaves]) (by simp [hclearing])
  | create i ok =>
    obtain ⟨system, hstep, rfl⟩ := quiet_cases h
    exact hs.system hstep (by simp [Action.leaves]) (by simp [Action.leaves])
  | release i =>
    obtain ⟨system, hstep, rfl⟩ := stop_cases h
    have hplaced := hs.system hstep (by simp [Action.leaves]) (by simp [Action.leaves])
    exact ⟨hplaced.exclusive, hplaced.waiting, hplaced.clearing⟩
  | read i =>
    obtain ⟨-, hat, ring, samples, hread, rfl⟩ := read_cases h
    refine ⟨?_, fun _ => List.mem_of_getElem? hat, hs.clearing⟩
    apply System.exclusive_read hs.exclusive
    show System.read s.system i networkChunkSamples = _
    rw [System.read, if_pos hat, hread]
    rfl
  | signalled =>
    obtain ⟨-, -, rfl⟩ := signalled_cases h
    exact ⟨hs.exclusive, by simp, hs.clearing⟩
  | timedOut =>
    obtain ⟨-, rfl⟩ := timedOut_cases h
    exact ⟨hs.exclusive, by simp, hs.clearing⟩
  | leave i =>
    obtain ⟨hwaiting, hquiet⟩ := leave_cases h
    obtain ⟨system, hstep, rfl⟩ := quiet_cases hquiet
    exact hs.system hstep (by simp [hwaiting]) (by simp [Action.leaves])
  | stop i =>
    obtain ⟨system, hstep, rfl⟩ := stop_cases h
    have hplaced := hs.system hstep (by simp [Action.leaves]) (by simp [Action.leaves])
    exact ⟨hplaced.exclusive, hplaced.waiting, hplaced.clearing⟩
  | stopGive =>
    obtain ⟨stopGiving, -, rfl⟩ := stopGive_cases h
    exact ⟨hs.exclusive, hs.waiting, hs.clearing⟩
  | append samples =>
    obtain ⟨-, system, hstep, rfl⟩ := append_cases h
    have hplaced := hs.system hstep (by simp [Action.leaves]) (by simp [Action.leaves])
    exact ⟨hplaced.exclusive, hplaced.waiting, hplaced.clearing⟩
  | adcGive =>
    obtain ⟨-, rfl⟩ := adcGive_cases h
    exact ⟨hs.exclusive, hs.waiting, hs.clearing⟩

/-- Nobody clears the semaphore under a task that waits for it: both would hold the slot. -/
theorem Placed.awake_of_clearing (hs : s.Placed) (hclearing : s.clearing = true) :
    s.waiting = false := by
  by_contra hwaiting
  have hone : s.system.threads.countP Thread.holds ≤ 1 := by
    rw [hs.exclusive.holders]
    split_ifs <;> decide
  have hsame := Threads.eq_of_countP_le_one hone (hs.clearing hclearing)
    (hs.waiting (by simpa using hwaiting)) rfl rfl
  cases hsame

section turns

theorem turns_clear (hs : s.Placed) (h : s.clear = some t) :
    Relation.ReflTransGen Doorbell.Turn s.doorbell t.doorbell := by
  obtain ⟨hclearing, rfl⟩ := clear_cases h
  have hawake := hs.awake_of_clearing hclearing
  exact Relation.ReflTransGen.single (Doorbell.Turn.silence s.doorbell hawake)

/-- A turn of micReadPcm takes what is there, or has found nothing when it goes to wait. -/
theorem turns_read (hs : s.Placed) {i : Nat} (h : s.read i = some t) :
    Relation.ReflTransGen Doorbell.Turn s.doorbell t.doorbell := by
  obtain ⟨hwaiting, -, ring, samples, hread, rfl⟩ := read_cases h
  obtain ⟨p, hp⟩ := hs.exclusive.ring
  obtain ⟨hspec, -⟩ := PcmRing.readPcm_spec hp.read_lt hp.count_le networkChunkSamples rfl
  obtain ⟨rfl, rfl⟩ := Prod.mk.inj (Option.some.inj (hread.symm.trans hspec))
  have hlength := PcmRing.unread_take_length s.system.ring networkChunkSamples
  apply Relation.ReflTransGen.single
  by_cases hreturns : (s.system.ring.unread.take networkChunkSamples).length > 0 ∨
      s.system.ring.pcmStreaming = false
  · have hready : s.doorbell.ready = true := by
      rcases hreturns with htaken | hstopped
      · rw [hlength] at htaken
        have hcount : s.system.ring.pcmCount ≠ 0 := by omega
        simp [doorbell, hcount]
      · simp [doorbell, hstopped]
    have hawake : s.doorbell.asleep = false := hwaiting
    have hturn : ∀ ready, Doorbell.Turn s.doorbell { s.doorbell with ready, asleep := false } := by
      intro ready
      rw [← hawake]
      exact Doorbell.Turn.take s.doorbell fun _ => hready
    rw [decide_eq_true hreturns]
    exact hturn _
  · obtain ⟨hnothing, hstreaming⟩ := not_or.mp hreturns
    have hempty : s.system.ring.pcmCount = 0 := by
      rw [hlength] at hnothing
      have hroom : 0 < networkChunkSamples := by decide
      omega
    have hidle : s.doorbell.ready = false := by simpa [doorbell, hempty] using hstreaming
    have hturn := Doorbell.Turn.sleep s.doorbell hidle
    rw [decide_eq_false hreturns]
    simpa [doorbell, hempty] using hturn

/-- A chunk of which no sample was added leaves the count and the flag as they are. -/
theorem append_nothing {ring ring' : PcmRing N} {p : Mic.Period} {samples : List Int16}
    (hp : ring.Refines p) (h : ring.appendPcm samples = some ring')
    (hadded : added ring samples = false) :
    ring'.pcmStreaming = ring.pcmStreaming ∧ ring'.pcmCount = ring.pcmCount := by
  cases hstreaming : ring.pcmStreaming with
  | false =>
    rw [PcmRing.appendPcm, if_neg (by simp [hstreaming])] at h
    obtain rfl := Option.some.inj h
    exact ⟨hstreaming, rfl⟩
  | true =>
    obtain ⟨v, hrun, -⟩ := PcmRing.appendPcm_spec hstreaming hp.read_lt hp.count_le
      (hp.flowing (hp.streaming.symm.trans hstreaming)).write samples rfl
    obtain rfl := Option.some.inj (h.symm.trans hrun)
    simp only [added, hstreaming, Bool.true_and, decide_eq_false_iff_not] at hadded
    refine ⟨hstreaming, ?_⟩
    show ring.pcmCount + min samples.length (N - ring.pcmCount) = ring.pcmCount
    omega

theorem turns_append (hs : s.Placed) {samples : List Int16} (h : s.append samples = some t) :
    Relation.ReflTransGen Doorbell.Turn s.doorbell t.doorbell := by
  obtain ⟨hgiving, system, hstep, rfl⟩ := append_cases h
  obtain ⟨p, hp⟩ := hs.exclusive.ring
  obtain ⟨ring, happend, rfl⟩ := System.append_eq_some hstep
  cases hadded : added s.system.ring samples with
  | false =>
    obtain ⟨hstreaming, hcount⟩ := append_nothing hp happend hadded
    have hsame : doorbell { s with system := { s.system with ring }, adcGiving := false } =
        s.doorbell := by
      rw [doorbell, doorbell, hstreaming, hcount, hgiving]
    rw [hsame]
  | true =>
    apply Relation.ReflTransGen.single
    have hturn := Doorbell.Turn.put s.doorbell (!ring.pcmStreaming || decide (ring.pcmCount ≠ 0))
    simpa [doorbell, hgiving, Nat.add_comm] using hturn

/-- Every step is a turn of the doorbell, or none of its business. -/
theorem turns_step (hs : s.Placed) {a : Step} (h : s.step a = some t) :
    Relation.ReflTransGen Doorbell.Turn s.doorbell t.doorbell := by
  cases a with
  | request =>
    apply turns_quiet h
    intro system hstep
    obtain rfl := Option.some.inj hstep
    rfl
  | start i => exact turns_start h
  | clear => exact turns_clear hs h
  | allocate i ok => exact turns_quiet (allocate_cases h).2 fun _ hstep => System.move_ring hstep
  | create i ok => exact turns_quiet h fun _ hstep => System.create_ring hstep
  | release i => exact turns_stop h
  | read i => exact turns_read hs h
  | signalled => exact turns_signalled h
  | timedOut => exact turns_timedOut h
  | leave i => exact turns_quiet (leave_cases h).2 fun _ hstep => System.move_ring hstep
  | stop i => exact turns_stop h
  | stopGive => exact turns_stopGive h
  | append samples => exact turns_append hs h
  | adcGive => exact turns_adcGive h

end turns

/-- A task that waits has its stream up. -/
theorem Placed.streaming (hs : s.Placed) (hwaiting : s.waiting = true) :
    s.system.ring.pcmStreaming = true := by
  have hpos : 0 < s.system.threads.countP Thread.holds :=
    List.countP_pos_iff.mpr ⟨.streaming, hs.waiting hwaiting, rfl⟩
  rw [hs.exclusive.holders] at hpos
  by_contra hstopped
  rw [if_neg hstopped] at hpos
  exact absurd hpos (Nat.lt_irrefl 0)

/-- Woken with samples in the ring, the task returns them. -/
theorem Placed.read_returns (hs : s.Placed) (hwaiting : s.waiting = true)
    (hcount : s.system.ring.pcmCount ≠ 0) : ∃ i u,
    read { s with waiting := false, pcmAvailable := false } i = some u ∧ u.waiting = false := by
  obtain ⟨p, hp⟩ := hs.exclusive.ring
  obtain ⟨i, hi⟩ := List.mem_iff_getElem?.mp (hs.waiting hwaiting)
  obtain ⟨ring, samples, hturn⟩ := PcmRing.readTurn_ready hp
    (show 0 < networkChunkSamples by decide) fun hidle => hcount hidle.empty
  refine ⟨i, { s with
    system := { s.system with ring }
    waiting := false
    pcmAvailable := false }, ?_, rfl⟩
  rw [read, if_pos ⟨rfl, hi⟩, hturn]
  rfl

/-- The stream task never waits in vain. Whatever the requests, the tasks and the ADC task do,
and whenever they come to the semaphore: while the task waits in micReadPcm its stream is up,
nobody clears the semaphore, and with samples in the ring the semaphore has been given or is
about to be, so that the wait ends without its timeout and the task reads them. The threads
run as they do without the semaphore. -/
theorem no_sample_waited_past (steps : List Step) (s : Signalled N)
    (h : Guarded.exec step {} steps = some s) :
    (s.waiting = true → s.system.ring.pcmStreaming = true ∧ s.clearing = false ∧
      (s.system.ring.pcmCount ≠ 0 →
        (s.pcmAvailable = true ∨ s.adcGiving = true ∨ 0 < s.stopGiving) ∧
        (s.adcGiving = false → s.stopGiving = 0 → ∃ t i u, s.signalled = some t ∧
          t.read i = some u ∧ u.waiting = false))) ∧
    Guarded.exec System.step {} (steps.filterMap Step.action) = some s.system := by
  refine ⟨?_, exec_system h⟩
  have hstart : Doorbell.Alert ({} : Signalled N).doorbell := Doorbell.alert_of_awake rfl
  obtain ⟨hs, halert⟩ := Guarded.exec_preserves
    (fun s => s.Placed ∧ Doorbell.Alert s.doorbell)
    (fun s a t hstep hs =>
      ⟨placed_step s a t hstep hs.1, Doorbell.Turn.alerts (turns_step hs.1 hstep) hs.2⟩)
    h ⟨placed_boot, hstart⟩
  intro hwaiting
  refine ⟨hs.streaming hwaiting, ?_, ?_⟩
  · by_contra hclearing
    have hawake := hs.awake_of_clearing (by simpa using hclearing)
    exact absurd (hawake.symm.trans hwaiting) Bool.false_ne_true
  · intro hcount
    have hready : s.doorbell.ready = true := by simp [doorbell, hcount]
    constructor
    · rcases halert hwaiting hready with hgiven | howed
      · exact Or.inl hgiven
      · right
        cases hadc : s.adcGiving with
        | true => exact Or.inl rfl
        | false =>
          right
          have howed' : 0 < s.adcGiving.toNat + s.stopGiving := howed
          rwa [hadc, Bool.toNat_false, Nat.zero_add] at howed'
    · intro hadc hstop
      have howed : s.doorbell.owed = 0 := by simp [doorbell, hadc, hstop]
      have hgiven : s.pcmAvailable = true := halert.rung hwaiting hready howed
      obtain ⟨i, u, hread, hreturned⟩ := hs.read_returns hwaiting hcount
      refine ⟨_, i, u, ?_, hread, hreturned⟩
      rw [signalled, if_pos ⟨hwaiting, hgiven⟩]

/-- A stop gives the semaphore only after the next start has cleared it, and the samples come
between the look into the ring and the wait. -/
def lateStopGive : List Step :=
  [.request, .start 0, .clear, .allocate 0 true, .create 0 true, .leave 1, .stop 1,
    .request, .start 2, .clear, .stopGive, .allocate 2 true, .create 2 true, .read 3, .signalled,
    .read 3, .append [1, 2], .adcGive]

theorem late_stop_give_waited_past : ∃ s : Signalled 4,
    Guarded.exec step {} lateStopGive = some s ∧ s.waiting = true ∧
      s.system.ring.pcmCount = 2 ∧ ∃ t i u, s.signalled = some t ∧ t.read i = some u ∧
        u.waiting = false := by
  obtain ⟨s, hrun⟩ : ∃ s : Signalled 4, Guarded.exec step {} lateStopGive = some s := ⟨_, rfl⟩
  obtain ⟨hawake, -⟩ := no_sample_waited_past lateStopGive s hrun
  obtain rfl := Option.some.inj hrun
  refine ⟨_, rfl, rfl, rfl, ?_⟩
  exact ((hawake rfl).2.2 (by decide)).2 rfl rfl

end Signalled

end RoomWatchdog.Audio
