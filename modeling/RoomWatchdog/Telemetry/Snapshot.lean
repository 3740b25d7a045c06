import RoomWatchdog.Detectors
import RoomWatchdog.Ld2412.Parser
import RoomWatchdog.Library.Guarded
import RoomWatchdog.Mic.ReadLoop
import RoomWatchdog.Telemetry.Payload

namespace RoomWatchdog

namespace Mic.PcmRing
variable {N : Nat}

def micPcmStreaming (s : PcmRing N) : Bool := s.pcmStreaming

def micDroppedSamples (s : PcmRing N) : UInt32 := s.droppedSamples

/-- The drop count and the streaming flag as the module holds them together. -/
def pair (s : PcmRing N) : UInt32 × Bool := (s.droppedSamples, s.pcmStreaming)

/-- What a call of the module does to the pair: a stream starts over the count that it finds, or
stops, or its count moves. -/
inductive Change where
  | started (found : UInt32)
  | stopped
  | dropped
  deriving DecidableEq

def change (s t : PcmRing N) : List Change :=
  if s.pcmStreaming then
    if t.pcmStreaming then
      if t.droppedSamples = s.droppedSamples then [] else [.dropped]
    else [.stopped]
  else if t.pcmStreaming then [.started s.droppedSamples] else []

/-- How a call moves the pair. -/
inductive Turn : UInt32 × Bool → UInt32 × Bool → List Change → Prop where
  | same (now : UInt32 × Bool) : Turn now now []
  | started (found : UInt32) : Turn (found, false) (0, true) [.started found]
  | stopped (dropped : UInt32) : Turn (dropped, true) (dropped, false) [.stopped]
  | dropped (before after : UInt32) : Turn (before, true) (after, true) [.dropped]

variable {s t : PcmRing N}

theorem appendPcm_streaming {samples : List Int16} (hstreaming : s.pcmStreaming = true)
    (h : s.appendPcm samples = some t) : t.pcmStreaming = true := by
  simp only [appendPcm, hstreaming, if_true, Option.bind_eq_bind, Option.bind_eq_some_iff,
    Option.some_inj] at h
  obtain ⟨freeSamples, -, tail, -, ring₁, -, ring₂, -, rfl⟩ := h
  rfl

theorem turn_same (s : PcmRing N) : Turn s.pair s.pair (s.change s) := by
  have hsame : s.change s = [] := by
    rw [change]
    cases s.pcmStreaming <;> simp
  rw [hsame]
  exact Turn.same s.pair

/-- Every call of the module is one of the turns. -/
theorem turn_step {op : Op} {answer : Answer} (h : s.step op = some (t, answer)) :
    Turn s.pair t.pair (s.change t) := by
  cases op with
  | append samples =>
    obtain ⟨ring, happend, hring⟩ := Option.map_eq_some_iff.mp h
    obtain ⟨rfl, -⟩ := Prod.mk.inj hring
    cases hstreaming : s.pcmStreaming with
    | true =>
      have hlater := appendPcm_streaming hstreaming happend
      rw [pair, pair, change, hstreaming, hlater, if_pos rfl, if_pos rfl]
      split_ifs with hcount
      · rw [hcount]
        exact Turn.same _
      · exact Turn.dropped s.droppedSamples ring.droppedSamples
    | false =>
      rw [appendPcm, if_neg (by simp [hstreaming])] at happend
      rw [Option.some.inj happend]
      exact turn_same ring
  | read maxSamples =>
    obtain ⟨⟨ring, samples⟩, hread, hring⟩ := Option.map_eq_some_iff.mp h
    obtain ⟨rfl, -⟩ := Prod.mk.inj hring
    simp only [readPcm, Option.bind_eq_bind, Option.bind_eq_some_iff, Option.some_inj] at hread
    obtain ⟨tail, -, front, -, back, -, hread⟩ := hread
    obtain ⟨rfl, -⟩ := Prod.mk.inj hread
    exact turn_same s
  | start =>
    have hring : s.micStartPcmStream.1 = t := (Prod.mk.inj (Option.some.inj h)).1
    rw [← hring]
    cases hstreaming : s.pcmStreaming with
    | true =>
      rw [micStartPcmStream, if_pos hstreaming]
      exact turn_same s
    | false =>
      rw [micStartPcmStream, if_neg (by simp [hstreaming]), pair, change, hstreaming]
      exact Turn.started s.droppedSamples
  | stop =>
    obtain ⟨rfl, -⟩ := Prod.mk.inj (Option.some.inj h)
    cases hstreaming : s.pcmStreaming with
    | true =>
      rw [pair, change, hstreaming]
      exact Turn.stopped s.droppedSamples
    | false =>
      rw [pair, change, hstreaming]
      exact Turn.same (s.droppedSamples, false)

end Mic.PcmRing

open Mic (PcmRing)

/-- The fields that takeSensorSnapshot sets from its arguments and the radar, the others
still zero. -/
def openSnapshot (presenceNow : Bool) (mic : LevelWindow) (radar : Ld2412.Report) :
    SensorSnapshot where
  presence := if presenceNow then 1 else 0
  targetState := radar.targetState
  movingDistanceCm := radar.movingDistanceCm
  movingEnergy := radar.movingEnergy
  stationaryDistanceCm := radar.stationaryDistanceCm
  stationaryEnergy := radar.stationaryEnergy
  micPeakToPeak := Int16.ofInt mic.peakToPeak
  micMin := Int16.ofInt mic.minLevel
  micMax := Int16.ofInt mic.maxLevel
  audioDroppedSamples := 0
  pushLost := 0
  audioStreaming := 0
  pushBackingOff := 0

/-- The accessor that takeSensorSnapshot calls next, and what it has read by then. -/
inductive Taking where
  | idle
  | radarReport (presenceNow : Bool) (mic : LevelWindow)
  | micDroppedSamples (snapshot : SensorSnapshot)
  | pushLostCount (snapshot : SensorSnapshot)
  | micPcmStreaming (snapshot : SensorSnapshot)
  | pushBackingOff (snapshot : SensorSnapshot)

/-- The count has been read and the flag not yet. -/
def Taking.midway : Taking → Bool
  | .pushLostCount _ => true
  | .micPcmStreaming _ => true
  | _ => false

/-- What the mic module went through during a call: the pair when its count was read, all pairs
it has held, and what other tasks did to it between the two reads. -/
structure Course where
  counted : UInt32 × Bool := (0, false)
  instants : List (UInt32 × Bool) := []
  between : List PcmRing.Change := []

/-- A call on another task adds the pair it leaves. -/
def Course.extend (course : Course) (next : UInt32 × Bool) (between : List PcmRing.Change) :
    Course := { course with
  instants := course.instants ++ [next]
  between := course.between ++ between }

/-- One task in takeSensorSnapshot, the mic module, and each snapshot returned with the course
of its call. -/
structure Sampling (N : Nat) where
  ring : PcmRing N := {}
  taking : Taking := .idle
  course : Course := {}
  returned : List (SensorSnapshot × Course) := []

namespace Sampling

/-- The accessors' steps, with what the radar and the worker answer, and any call of the mic
module on another task. -/
inductive Move where
  | mic (op : PcmRing.Op)
  | call (presenceNow : Bool) (mic : LevelWindow)
  | radarReport (radar : Ld2412.Report)
  | micDroppedSamples
  | pushLostCount (lost : UInt32)
  | micPcmStreaming
  | pushBackingOff (backingOff : Bool)

variable {N : Nat}

def mic (s : Sampling N) (op : PcmRing.Op) : Option (Sampling N) := do
  let (ring, _) ← s.ring.step op
  some { s with
    ring
    course := s.course.extend ring.pair (if s.taking.midway then s.ring.change ring else []) }

def call (s : Sampling N) (presenceNow : Bool) (mic : LevelWindow) : Option (Sampling N) :=
  match s.taking with
  | .idle => some { s with
      taking := .radarReport presenceNow mic
      course := { instants := [s.ring.pair] } }
  | _ => none

def radarReport (s : Sampling N) (radar : Ld2412.Report) : Option (Sampling N) :=
  match s.taking with
  | .radarReport presenceNow mic => some { s with
      taking := .micDroppedSamples (openSnapshot presenceNow mic radar) }
  | _ => none

def micDroppedSamples (s : Sampling N) : Option (Sampling N) :=
  match s.taking with
  | .micDroppedSamples snapshot => some { s with
      taking := .pushLostCount { snapshot with audioDroppedSamples := s.ring.micDroppedSamples }
      course := { s.course with counted := s.ring.pair } }
  | _ => none

def pushLostCount (s : Sampling N) (lost : UInt32) : Option (Sampling N) :=
  match s.taking with
  | .pushLostCount snapshot => some { s with
      taking := .micPcmStreaming { snapshot with pushLost := lost } }
  | _ => none

def micPcmStreaming (s : Sampling N) : Option (Sampling N) :=
  match s.taking with
  | .micPcmStreaming snapshot => some { s with
      taking := .pushBackingOff { snapshot with
        audioStreaming := if s.ring.micPcmStreaming then 1 else 0 } }
  | _ => none

/-- The last accessor, and the return. -/
def pushBackingOff (s : Sampling N) (backingOff : Bool) : Option (Sampling N) :=
  match s.taking with
  | .pushBackingOff snapshot => some { s with
      taking := .idle
      returned := s.returned ++
        [({ snapshot with pushBackingOff := if backingOff then 1 else 0 }, s.course)] }
  | _ => none

def step (s : Sampling N) : Move → Option (Sampling N)
  | .mic op => s.mic op
  | .call presenceNow mic => s.call presenceNow mic
  | .radarReport radar => s.radarReport radar
  | .micDroppedSamples => s.micDroppedSamples
  | .pushLostCount lost => s.pushLostCount lost
  | .micPcmStreaming => s.micPcmStreaming
  | .pushBackingOff backingOff => s.pushBackingOff backingOff

section cases
variable {s t : Sampling N} {presenceNow backingOff : Bool} {window : LevelWindow}
  {radar : Ld2412.Report} {lost : UInt32}

theorem mic_cases {op : PcmRing.Op} (h : s.mic op = some t) :
    ∃ ring answer, s.ring.step op = some (ring, answer) ∧ { s with
      ring
      course := s.course.extend ring.pair
        (if s.taking.midway then s.ring.change ring else []) } = t := by
  obtain ⟨⟨ring, answer⟩, hring, hnew⟩ := Option.bind_eq_some_iff.mp h
  exact ⟨ring, answer, hring, Option.some.inj hnew⟩

theorem call_cases (h : s.call presenceNow window = some t) : s.taking = .idle ∧ { s with
    taking := .radarReport presenceNow window
    course := { instants := [s.ring.pair] } } = t := by
  simp only [call] at h
  split at h
  next hat => exact ⟨hat, Option.some.inj h⟩
  · cases h

theorem radarReport_cases (h : s.radarReport radar = some t) :
    ∃ presenceNow window, s.taking = .radarReport presenceNow window ∧ { s with
      taking := .micDroppedSamples (openSnapshot presenceNow window radar) } = t := by
  simp only [radarReport] at h
  split at h
  next presenceNow window hat => exact ⟨presenceNow, window, hat, Option.some.inj h⟩
  · cases h

theorem micDroppedSamples_cases (h : s.micDroppedSamples = some t) :
    ∃ snapshot, s.taking = .micDroppedSamples snapshot ∧ { s with
      taking := .pushLostCount { snapshot with audioDroppedSamples := s.ring.micDroppedSamples }
      course := { s.course with counted := s.ring.pair } } = t := by
  simp only [micDroppedSamples] at h
  split at h
  next snapshot hat => exact ⟨snapshot, hat, Option.some.inj h⟩
  · cases h

theorem pushLostCount_cases (h : s.pushLostCount lost = some t) :
    ∃ snapshot, s.taking = .pushLostCount snapshot ∧ { s with
      taking := .micPcmStreaming { snapshot with pushLost := lost } } = t := by
  simp only [pushLostCount] at h
  split at h
  next snapshot hat => exact ⟨snapshot, hat, Option.some.inj h⟩
  · cases h

theorem micPcmStreaming_cases (h : s.micPcmStreaming = some t) :
    ∃ snapshot, s.taking = .micPcmStreaming snapshot ∧ { s with
      taking := .pushBackingOff { snapshot with
        audioStreaming := if s.ring.micPcmStreaming then 1 else 0 } } = t := by
  simp only [micPcmStreaming] at h
  split at h
  next snapshot hat => exact ⟨snapshot, hat, Option.some.inj h⟩
  · cases h

theorem pushBackingOff_cases (h : s.pushBackingOff backingOff = some t) :
    ∃ snapshot, s.taking = .pushBackingOff snapshot ∧ { s with
      taking := .idle
      returned := s.returned ++
        [({ snapshot with pushBackingOff := if backingOff then 1 else 0 }, s.course)] } = t := by
  simp only [pushBackingOff] at h
  split at h
  next snapshot hat => exact ⟨snapshot, hat, Option.some.inj h⟩
  · cases h

end cases

end Sampling

/-- The snapshot's count and flag are a pair that was held at one instant of its call. -/
def SensorSnapshot.Coherent (snapshot : SensorSnapshot) (course : Course) : Prop :=
  ∃ held ∈ course.instants, snapshot.audioDroppedSamples = held.1 ∧
    snapshot.audioStreaming = if held.2 then 1 else 0

/-- Between the two reads no stream starts or stops, or the first thing to happen is that one
stops, or starts over a count of 0. -/
def Course.Steady (course : Course) : Prop :=
  (∀ change ∈ course.between, change = .dropped) ∨
  course.between.head? = some .stopped ∨ course.between.head? = some (.started 0)

instance (course : Course) : Decidable course.Steady := inferInstanceAs (Decidable (_ ∨ _ ∨ _))

/-- What a snapshot says of the stream, against the instants of its call. -/
structure SensorSnapshot.Held (snapshot : SensorSnapshot) (course : Course) : Prop where
  dropped : ∃ held ∈ course.instants, snapshot.audioDroppedSamples = held.1
  streaming : ∃ held ∈ course.instants, snapshot.audioStreaming = if held.2 then 1 else 0
  together : course.Steady → snapshot.Coherent course

/-! What holds during a call. -/

/-- Between the two reads. -/
structure Course.Counts (course : Course) (snapshot : SensorSnapshot)
    (now : UInt32 × Bool) : Prop where
  held : now ∈ course.instants
  counted : course.counted ∈ course.instants
  dropped : snapshot.audioDroppedSamples = course.counted.1
  same : course.between = [] → now = course.counted
  drops : (∀ change ∈ course.between, change = .dropped) → now.2 = course.counted.2
  first : course.between.head? = some .stopped ∨ course.between.head? = some (.started 0) →
    ∀ streaming, (course.counted.1, streaming) ∈ course.instants

def Taking.Follows (taking : Taking) (course : Course) (now : UInt32 × Bool) : Prop :=
  match taking with
  | .idle => True
  | .radarReport _ _ => now ∈ course.instants ∧ course.between = []
  | .micDroppedSamples _ => now ∈ course.instants ∧ course.between = []
  | .pushLostCount snapshot => course.Counts snapshot now
  | .micPcmStreaming snapshot => course.Counts snapshot now
  | .pushBackingOff snapshot => snapshot.Held course

section course
variable {course : Course} {snapshot : SensorSnapshot} {now next : UInt32 × Bool}
  {between : List PcmRing.Change}

/-- The flag that is read goes with the count, unless the stream was started or stopped. -/
theorem Course.Counts.asked (h : course.Counts snapshot now)
    (hstreaming : snapshot.audioStreaming = if now.2 then 1 else 0) : snapshot.Held course where
  dropped := ⟨course.counted, h.counted, h.dropped⟩
  streaming := ⟨now, h.held, hstreaming⟩
  together := by
    intro hsteady
    have hpair : (course.counted.1, now.2) ∈ course.instants := by
      rcases hsteady with hdrops | hfirst
      · rw [h.drops hdrops]
        exact h.counted
      · exact h.first hfirst now.2
    exact ⟨_, hpair, h.dropped, hstreaming⟩

theorem Course.extend_mem {held : UInt32 × Bool} (h : held ∈ course.instants) :
    held ∈ (course.extend next between).instants := List.mem_append_left _ h

theorem Course.extend_next : next ∈ (course.extend next between).instants :=
  List.mem_append_right _ (List.mem_singleton_self next)

theorem Course.extend_between (h : course.between = []) :
    (course.extend next between).between = between := by
  rw [extend, h, List.nil_append]

/-- The first change since the count was read stays the first. -/
theorem Course.extend_head (h : course.between ≠ []) :
    (course.extend next between).between.head? = course.between.head? :=
  List.head?_append_of_ne_nil _ h

/-- What other tasks do behind the second read changes nothing. -/
theorem SensorSnapshot.Held.later (h : snapshot.Held course) :
    snapshot.Held (course.extend next []) where
  dropped := by
    obtain ⟨held, hmem, hdropped⟩ := h.dropped
    exact ⟨held, Course.extend_mem hmem, hdropped⟩
  streaming := by
    obtain ⟨held, hmem, hstreaming⟩ := h.streaming
    exact ⟨held, Course.extend_mem hmem, hstreaming⟩
  together := by
    intro hsteady
    rw [Course.Steady, Course.extend, List.append_nil] at hsteady
    obtain ⟨held, hmem, hheld⟩ := h.together hsteady
    exact ⟨held, Course.extend_mem hmem, hheld⟩

section turn
variable (hturn : PcmRing.Turn now next between)
include hturn

/-- A stop, or a start over 0, that comes first leaves the count with the other flag. -/
theorem Course.Counts.first_mic (h : course.Counts snapshot now)
    (hfirst : (course.extend next between).between.head? = some .stopped ∨
      (course.extend next between).between.head? = some (.started 0)) (streaming : Bool) :
    (course.counted.1, streaming) ∈ (course.extend next between).instants := by
  by_cases hbetween : course.between = []
  · have hnow := h.same hbetween
    have hcounted := h.counted
    rw [← hnow] at hcounted ⊢
    rw [extend_between hbetween] at hfirst
    cases hturn with
    | same => simp at hfirst
    | started found =>
      obtain rfl : found = 0 := by simpa using hfirst
      cases streaming with
      | false => exact extend_mem hcounted
      | true => exact extend_next
    | stopped dropped =>
      cases streaming with
      | false => exact extend_next
      | true => exact extend_mem hcounted
    | dropped => simp at hfirst
  · rw [extend_head hbetween] at hfirst
    exact extend_mem (h.first hfirst streaming)

theorem Course.Counts.drops_mic (h : course.Counts snapshot now)
    (hdrops : ∀ change ∈ (course.extend next between).between, change = .dropped) :
    next.2 = course.counted.2 := by
  have hsame := h.drops fun change hmem => hdrops change (List.mem_append_left _ hmem)
  cases hturn with
  | same => exact hsame
  | started found =>
    exact absurd (hdrops _ (List.mem_append_right _ (List.mem_singleton_self _))) (by simp)
  | stopped dropped =>
    exact absurd (hdrops _ (List.mem_append_right _ (List.mem_singleton_self _))) (by simp)
  | dropped before after => exact hsame

theorem Course.Counts.mic (h : course.Counts snapshot now) :
    (course.extend next between).Counts snapshot next where
  held := extend_next
  counted := extend_mem h.counted
  dropped := h.dropped
  same := by
    intro hbetween
    obtain ⟨hnone, hnew⟩ := List.append_eq_nil_iff.mp hbetween
    rw [hnew] at hturn
    cases hturn with
    | same => exact h.same hnone
  drops := h.drops_mic hturn
  first := h.first_mic hturn

theorem Taking.Follows.mic {taking : Taking} (h : taking.Follows course now) :
    taking.Follows (course.extend next (if taking.midway then between else [])) next := by
  cases taking with
  | idle => trivial
  | radarReport presenceNow mic => exact ⟨Course.extend_next, Course.extend_between h.2⟩
  | micDroppedSamples snapshot => exact ⟨Course.extend_next, Course.extend_between h.2⟩
  | pushLostCount snapshot => exact Course.Counts.mic hturn h
  | micPcmStreaming snapshot => exact Course.Counts.mic hturn h
  | pushBackingOff snapshot => exact SensorSnapshot.Held.later h

end turn

end course

namespace Sampling

variable {N : Nat} [NeZero N]

structure Inv (s : Sampling N) : Prop where
  taking : s.taking.Follows s.course s.ring.pair
  returned : ∀ r ∈ s.returned, r.1.Held r.2
  ring : ∃ p, s.ring.Refines p

theorem inv_boot : Inv ({} : Sampling N) where
  taking := trivial
  returned := by simp
  ring := ⟨{}, PcmRing.refines_boot⟩

section steps
variable {s t : Sampling N} {presenceNow backingOff : Bool} {window : LevelWindow}
  {radar : Ld2412.Report} {lost : UInt32} (hs : s.Inv)
include hs

theorem inv_mic {op : PcmRing.Op} (h : s.mic op = some t) : t.Inv := by
  obtain ⟨ring, answer, hstep, rfl⟩ := mic_cases h
  obtain ⟨p, hp⟩ := hs.ring
  obtain ⟨ring', hrun, hring⟩ := PcmRing.implements_period s.ring p op hp
  obtain ⟨rfl, -⟩ := Prod.mk.inj (Option.some.inj (hstep.symm.trans hrun))
  exact ⟨hs.taking.mic (PcmRing.turn_step hstep), hs.returned, _, hring⟩

theorem inv_call (h : s.call presenceNow window = some t) : t.Inv := by
  obtain ⟨-, rfl⟩ := call_cases h
  exact ⟨⟨List.mem_singleton_self _, rfl⟩, hs.returned, hs.ring⟩

theorem inv_radarReport (h : s.radarReport radar = some t) : t.Inv := by
  obtain ⟨presenceNow, window, hat, rfl⟩ := radarReport_cases h
  have htaking := hs.taking
  rw [hat] at htaking
  exact ⟨htaking, hs.returned, hs.ring⟩

theorem inv_micDroppedSamples (h : s.micDroppedSamples = some t) : t.Inv := by
  obtain ⟨snapshot, hat, rfl⟩ := micDroppedSamples_cases h
  have htaking := hs.taking
  rw [hat] at htaking
  obtain ⟨hheld, hbetween⟩ := htaking
  refine ⟨?_, hs.returned, hs.ring⟩
  refine ⟨hheld, hheld, rfl, fun _ => rfl, fun _ => rfl, ?_⟩
  intro hfirst
  rw [hbetween] at hfirst
  simp at hfirst

theorem inv_pushLostCount (h : s.pushLostCount lost = some t) : t.Inv := by
  obtain ⟨snapshot, hat, rfl⟩ := pushLostCount_cases h
  have hcounts := hs.taking
  rw [hat] at hcounts
  obtain ⟨hheld, hcounted, hdropped, hsame, hdrops, hfirst⟩ := hcounts
  exact ⟨⟨hheld, hcounted, hdropped, hsame, hdrops, hfirst⟩, hs.returned, hs.ring⟩

theorem inv_micPcmStreaming (h : s.micPcmStreaming = some t) : t.Inv := by
  obtain ⟨snapshot, hat, rfl⟩ := micPcmStreaming_cases h
  have hcounts := hs.taking
  rw [hat] at hcounts
  obtain ⟨hheld, hcounted, hdropped, hsame, hdrops, hfirst⟩ := hcounts
  refine ⟨?_, hs.returned, hs.ring⟩
  exact Course.Counts.asked ⟨hheld, hcounted, hdropped, hsame, hdrops, hfirst⟩ rfl

/-- The snapshot that is returned is that of its call. -/
theorem inv_pushBackingOff (h : s.pushBackingOff backingOff = some t) : t.Inv := by
  obtain ⟨snapshot, hat, rfl⟩ := pushBackingOff_cases h
  have htaking := hs.taking
  rw [hat] at htaking
  obtain ⟨hdropped, hstreaming, htogether⟩ := htaking
  refine ⟨trivial, ?_, hs.ring⟩
  intro r hr
  rcases List.mem_append.mp hr with hold | hnew
  · exact hs.returned r hold
  · obtain rfl := List.mem_singleton.mp hnew
    exact ⟨hdropped, hstreaming, htogether⟩

end steps

theorem inv_step (s : Sampling N) (m : Move) (t : Sampling N) (h : s.step m = some t)
    (hs : s.Inv) : t.Inv := by
  cases m with
  | mic op => exact inv_mic hs h
  | call presenceNow window => exact inv_call hs h
  | radarReport radar => exact inv_radarReport hs h
  | micDroppedSamples => exact inv_micDroppedSamples hs h
  | pushLostCount lost => exact inv_pushLostCount hs h
  | micPcmStreaming => exact inv_micPcmStreaming hs h
  | pushBackingOff backingOff => exact inv_pushBackingOff hs h

/-- The three flags of what has been read so far say yes or no. -/
def Flagged (s : Sampling N) : Prop :=
  (∀ r ∈ s.returned, r.1.Flags) ∧
  match s.taking with
  | .idle => True
  | .radarReport _ _ => True
  | .micDroppedSamples snapshot => snapshot.Flags
  | .pushLostCount snapshot => snapshot.Flags
  | .micPcmStreaming snapshot => snapshot.Flags
  | .pushBackingOff snapshot => snapshot.Flags

theorem openSnapshot_flags (presenceNow : Bool) (window : LevelWindow) (radar : Ld2412.Report) :
    (openSnapshot presenceNow window radar).Flags :=
  ⟨flag_cases presenceNow, Or.inl rfl, Or.inl rfl⟩

omit [NeZero N] in
theorem flagged_step (s : Sampling N) (m : Move) (t : Sampling N) (h : s.step m = some t)
    (hs : s.Flagged) : t.Flagged := by
  obtain ⟨hreturned, htaking⟩ := hs
  cases m with
  | mic op =>
    obtain ⟨ring, answer, -, rfl⟩ := mic_cases h
    exact ⟨hreturned, htaking⟩
  | call presenceNow window =>
    obtain ⟨-, rfl⟩ := call_cases h
    exact ⟨hreturned, trivial⟩
  | radarReport radar =>
    obtain ⟨presenceNow, window, -, rfl⟩ := radarReport_cases h
    exact ⟨hreturned, openSnapshot_flags presenceNow window radar⟩
  | micDroppedSamples =>
    obtain ⟨snapshot, hat, rfl⟩ := micDroppedSamples_cases h
    rw [hat] at htaking
    exact ⟨hreturned, htaking⟩
  | pushLostCount lost =>
    obtain ⟨snapshot, hat, rfl⟩ := pushLostCount_cases h
    rw [hat] at htaking
    exact ⟨hreturned, htaking⟩
  | micPcmStreaming =>
    obtain ⟨snapshot, hat, rfl⟩ := micPcmStreaming_cases h
    rw [hat] at htaking
    exact ⟨hreturned, htaking.1, flag_cases s.ring.micPcmStreaming, htaking.2.2⟩
  | pushBackingOff backingOff =>
    obtain ⟨snapshot, hat, rfl⟩ := pushBackingOff_cases h
    rw [hat] at htaking
    refine ⟨?_, trivial⟩
    intro r hr
    rcases List.mem_append.mp hr with hold | hnew
    · exact hreturned r hold
    · obtain rfl := List.mem_singleton.mp hnew
      exact ⟨htaking.1, htaking.2.1, flag_cases backingOff⟩

omit [NeZero N] in
/-- Every snapshot is one that the payload renders faithfully. -/
theorem returned_flags {moves : List Move} {s : Sampling N}
    (h : Guarded.exec step {} moves = some s) : ∀ r ∈ s.returned, r.1.Flags :=
  (Guarded.exec_preserves Flagged flagged_step h ⟨by simp, trivial⟩).1

/-- In every interleaving: a snapshot's count is one that the mic module held at an instant of
its call, and so is its flag; and it held them together if between the two reads no stream
starts or stops, or the first to happen is a stop, or a start over a count of 0. The other tasks
may call the mic module at any time. -/
theorem snapshot_held (moves : List Move) (s : Sampling N)
    (h : Guarded.exec step {} moves = some s) :
    (∀ r ∈ s.returned, r.1.Held r.2) ∧ ∀ op, (s.step (.mic op)).isSome = true := by
  obtain ⟨-, hreturned, p, hp⟩ := Guarded.exec_preserves Inv inv_step h inv_boot
  refine ⟨hreturned, ?_⟩
  intro op
  obtain ⟨ring, hrun, -⟩ := PcmRing.implements_period s.ring p op hp
  rw [step, mic, hrun]
  rfl

/-- Two calls, with a sample dropped between the reads of the first and a stop between those of
the second. -/
def crossed : List Move :=
  [.mic .start, .call true {}, .radarReport {}, .micDroppedSamples, .mic (.append [1, 2, 3]),
    .pushLostCount 0, .micPcmStreaming, .pushBackingOff false, .call true {}, .radarReport {},
    .micDroppedSamples, .pushLostCount 0, .mic .stop, .micPcmStreaming, .pushBackingOff false]

theorem crossed_coherent : ∃ s : Sampling 2, Guarded.exec step {} crossed = some s ∧
    s.returned.map (fun r => (r.1.audioDroppedSamples, r.1.audioStreaming)) = [(0, 1), (1, 0)] ∧
    ∀ r ∈ s.returned, r.1.Coherent r.2 := by
  have hseen : ∃ s ∈ Guarded.exec step ({} : Sampling 2) crossed,
      s.returned.map (fun r => (r.1.audioDroppedSamples, r.1.audioStreaming)) = [(0, 1), (1, 0)] ∧
      ∀ r ∈ s.returned, r.2.Steady := by
    decide +kernel
  obtain ⟨s, hrun, hreturned, hsteady⟩ := hseen
  obtain ⟨hheld, -⟩ := snapshot_held crossed s hrun
  refine ⟨s, hrun, hreturned, ?_⟩
  intro r hr
  exact (hheld r hr).together (hsteady r hr)

omit [NeZero N] in
/-- Calls of the mic module alone run as they do on the ring. -/
theorem exec_mic {ops : List PcmRing.Op} {s : Sampling N} {ring : PcmRing N}
    {answers : List PcmRing.Answer}
    (h : Faulting.exec PcmRing.step s.ring ops = some (ring, answers)) (rest : List Move) :
    ∃ course, Guarded.exec step s (ops.map Move.mic ++ rest) =
      Guarded.exec step { s with ring, course } rest := by
  induction ops generalizing s answers with
  | nil =>
    obtain ⟨rfl, -⟩ := Prod.mk.inj (Option.some.inj h)
    exact ⟨s.course, rfl⟩
  | cons op ops ih =>
    obtain ⟨⟨next, answer⟩, hstep, hrest⟩ := Option.bind_eq_some_iff.mp h
    obtain ⟨⟨last, later⟩, hops, hlast⟩ := Option.bind_eq_some_iff.mp hrest
    obtain ⟨rfl, -⟩ := Prod.mk.inj (Option.some.inj hlast)
    obtain ⟨course, hcourse⟩ := ih (s := { s with
      ring := next
      course := s.course.extend next.pair
        (if s.taking.midway then s.ring.change next else []) }) hops
    refine ⟨course, ?_⟩
    rw [← hcourse, List.map_cons, List.cons_append, Guarded.exec, step, mic, hstep]
    rfl

omit [NeZero N] in
/-- Chunks that nobody reads are accepted until the ring is full. -/
theorem run_appends {p : Mic.Period} (hstreaming : p.streaming = true) (hread : p.read = [])
    (hfits : p.accepted.length ≤ N) (chunk : List Int16) (k : Nat) :
    let q := Mealy.run (Mic.Period.step N) p (List.replicate k (.append chunk))
    q.streaming = true ∧ q.offered = p.offered + k * chunk.length ∧
      q.accepted.length = min (p.accepted.length + k * chunk.length) N := by
  induction k generalizing p with
  | zero =>
    refine ⟨hstreaming, ?_, ?_⟩
    · simp
    · simp [hfits]
  | succ k ih =>
    have hnext : (Mic.Period.step N p (.append chunk)).1 = { p with
        offered := p.offered + chunk.length
        accepted := p.accepted ++ chunk.take (N - p.accepted.length) } := by
      simp [Mic.Period.step, Mic.Period.append, hstreaming, Mic.Period.unread, hread]
    rw [List.replicate_succ, Mealy.run_cons, hnext]
    obtain ⟨hflag, hoffered, haccepted⟩ := @ih { p with
        offered := p.offered + chunk.length
        accepted := p.accepted ++ chunk.take (N - p.accepted.length) } hstreaming hread (by
      simp only [List.length_append, List.length_take]
      omega)
    refine ⟨hflag, ?_, ?_⟩
    · rw [hoffered, Nat.succ_mul]
      change p.offered + chunk.length + k * chunk.length = _
      omega
    · rw [haccepted, List.length_append, List.length_take, Nat.succ_mul]
      omega

/-- What a stream that nobody reads has dropped. -/
theorem dropped_unread (chunk : List Int16) (k : Nat) : ∃ (ring : PcmRing N) (answers : _),
    Faulting.exec PcmRing.step {} (.start :: List.replicate k (.append chunk)) =
      some (ring, answers) ∧
    ring.droppedSamples = UInt32.ofNat (k * chunk.length - min (k * chunk.length) N) := by
  have himplements := @PcmRing.implements_period N _
  obtain ⟨ring, hexec, href⟩ := himplements.exec PcmRing.refines_boot
    (.start :: List.replicate k (.append chunk))
  refine ⟨ring, _, hexec, ?_⟩
  have hstart : (Mic.Period.step N {} .start).1 = { streaming := true } := rfl
  rw [Mealy.run_cons, hstart] at href
  obtain ⟨hflag, hoffered, haccepted⟩ := @run_appends N
    { streaming := true } rfl rfl (Nat.zero_le _) chunk k
  rw [(href.flowing hflag).dropped, hoffered, haccepted]
  simp only [List.length_nil, Nat.zero_add]

omit [NeZero N] in
/-- A stream that starts between the two reads gives its flag to the count of the one before. -/
theorem exec_restart (ring : PcmRing N) (course : Course) : ∃ s : Sampling N,
    Guarded.exec step { ring, course } [.mic .stop, .call false {}, .radarReport {},
      .micDroppedSamples, .pushLostCount 0, .mic .start, .micPcmStreaming,
      .pushBackingOff false] = some s ∧
    ∃ r ∈ s.returned, r.1.audioDroppedSamples = ring.droppedSamples ∧ r.1.audioStreaming = 1 ∧
      r.2.instants = [(ring.droppedSamples, false), (0, true)] :=
  ⟨_, rfl, _, List.mem_singleton_self _, rfl, rfl, rfl⟩

/-- A count of a stream that has ended, with the flag of the one that started meanwhile. -/
theorem snapshot_torn : ∃ s : Sampling Config.audioStreamBufferSamples,
    Guarded.exec step {}
      ((.start :: List.replicate 17 (.append (List.replicate 512 0))).map Move.mic ++
        [.mic .stop, .call false {}, .radarReport {}, .micDroppedSamples, .pushLostCount 0,
          .mic .start, .micPcmStreaming, .pushBackingOff false]) = some s ∧
    ∃ r ∈ s.returned, r.1.audioDroppedSamples = 512 ∧ r.1.audioStreaming = 1 ∧
      r.2.instants = [(512, false), (0, true)] ∧ ¬ r.1.Coherent r.2 := by
  obtain ⟨ring, answers, hexec, hdropped⟩ :=
    @dropped_unread Config.audioStreamBufferSamples _ (List.replicate 512 0) 17
  rw [List.length_replicate] at hdropped
  change ring.droppedSamples = 512 at hdropped
  obtain ⟨course, hcourse⟩ := exec_mic (s := {}) hexec [.mic .stop, .call false {},
    .radarReport {}, .micDroppedSamples, .pushLostCount 0, .mic .start, .micPcmStreaming,
    .pushBackingOff false]
  obtain ⟨s, hrest, r, hr, hcount, hstreaming, hinstants⟩ := exec_restart ring course
  rw [hdropped] at hcount hinstants
  refine ⟨s, hcourse.trans hrest, r, hr, hcount, hstreaming, hinstants, ?_⟩
  rw [SensorSnapshot.Coherent, hinstants, hcount, hstreaming]
  decide

end Sampling

end RoomWatchdog
