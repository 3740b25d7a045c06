import RoomWatchdog.Audio.PcmSignal
import RoomWatchdog.Audio.SocketWrites
import RoomWatchdog.Mic.Chunking

namespace RoomWatchdog.Audio
open Mic (PcmRing Period Sampler AdcTask DmaRead micAdcTask raw windowSamples)

/-! The format that the stream task announces to its client, `S16LE`. -/

def s16le : List UInt8 → List Int16
  | lo :: hi :: rest => (UInt16.ofNat (lo.toNat + 256 * hi.toNat)).toInt16 :: s16le rest
  | _ => []

theorem s16le_sampleBytes (sample : Int16) (rest : List UInt8) :
    s16le (sampleBytes sample ++ rest) = sample :: s16le rest := by
  have hlt := sample.toUInt16.toNat_lt
  have hvalue : UInt16.ofNat (sample.toUInt16.toUInt8.toNat +
      256 * (sample.toUInt16 >>> 8).toUInt8.toNat) = sample.toUInt16 := by
    apply UInt16.toNat_inj.mp
    have hhigh : (sample.toUInt16 >>> 8).toNat = sample.toUInt16.toNat / 256 := by
      rw [UInt16.toNat_shiftRight]
      exact Nat.shiftRight_eq_div_pow _ 8
    rw [UInt16.toNat_ofNat', UInt16.toNat_toUInt8, UInt16.toNat_toUInt8, hhigh]
    omega
  show (UInt16.ofNat _).toInt16 :: _ = _
  rw [hvalue, Int16.toInt16_toUInt16]
  rfl

theorem s16le_chunkBytes (samples : List Int16) : s16le (chunkBytes samples) = samples := by
  induction samples with
  | nil => rfl
  | cons sample samples ih =>
    rw [chunkBytes, List.flatMap_cons, s16le_sampleBytes]
    exact congrArg (sample :: ·) ih

theorem chunkBytes_append (samples later : List Int16) :
    chunkBytes (samples ++ later) = chunkBytes samples ++ chunkBytes later :=
  List.flatMap_append

theorem s16le_prefix {bytes all : List UInt8} (h : bytes <+: all) : s16le bytes <+: s16le all := by
  induction bytes using s16le.induct generalizing all with
  | case1 lo hi bytes ih =>
    obtain ⟨rest, rfl⟩ := h
    exact (List.prefix_cons_inj _).mpr (ih (List.prefix_append bytes rest))
  | case2 bytes hshort =>
    have hnone : s16le bytes = [] := by
      rw [s16le.eq_def]
      split
      next lo hi rest => exact absurd rfl (hshort lo hi rest)
      · rfl
    rw [hnone]
    exact List.nil_prefix

/-- Of any part of a stream the client gets samples of it, from the first on. -/
theorem s16le_of_prefix {bytes : List UInt8} {samples : List Int16}
    (h : bytes <+: chunkBytes samples) : s16le bytes <+: samples := by
  rw [← s16le_chunkBytes samples]
  exact s16le_prefix h

/-- Where the stream task stands, from the claim of the slot on: before its creation, at the
test of the outer loop, in micReadPcm, in the inner loop, or in front of micStopPcmStream. -/
inductive Place where
  | idle
  | claimed
  | looping
  | reading
  | writing (bytes : List UInt8)
  | leaving
  deriving DecidableEq

/-- The way from the ADC to the client. `taken` is what the socket has taken behind the header;
`heard` are the samples of the microphone so far, of which appendPcm has got `passed`, and had
got `since` when the stream was started. -/
structure Recorder (N : Nat) where
  adc : AdcTask := {}
  pcmBuffer : Option (List Int16) := none
  ring : PcmRing N := {}
  place : Place := .idle
  taken : List UInt8 := []
  heard : List (BitVec 12) := []
  passed : Nat := 0
  since : Nat := 0

namespace Recorder

/-- A step of the ADC task, of a request, or of the stream task. -/
inductive Step where
  | dma (read : DmaRead)
  | appendPcm
  | start
  | create (created : Bool)
  | test (connected wifi : Bool)
  | read
  | write (writes : Nat → Bool × Nat)
  | stop

variable {N : Nat}

/-- A turn of micAdcTask up to its call of appendPcm. -/
def dma (channel : Nat) (s : Recorder N) (read : DmaRead) : Option (Recorder N) :=
  if s.pcmBuffer.isSome then none
  else do
    let (adc, turn) ← micAdcTask windowSamples channel s.adc read
    some { s with
      adc
      pcmBuffer := turn.appended
      heard := s.heard ++ if read.processed then read.samples channel else [] }

def appendPcm (s : Recorder N) : Option (Recorder N) := do
  let chunk ← s.pcmBuffer
  let ring ← s.ring.appendPcm chunk
  some { s with ring, pcmBuffer := none, passed := s.passed + chunk.length }

/-- startAudioPcmStream up to the creation of its task. -/
def start (s : Recorder N) : Recorder N :=
  let (ring, started) := s.ring.micStartPcmStream
  if started then { s with ring, place := .claimed, taken := [], since := s.passed }
  else { s with ring }

def create (s : Recorder N) (created : Bool) : Option (Recorder N) :=
  if s.place = .claimed then
    some { s with place := if created then .looping else .leaving }
  else none

def test (s : Recorder N) (connected wifi : Bool) : Option (Recorder N) :=
  if s.place = .looping then
    some { s with place := if connected && wifi then .reading else .leaving }
  else none

/-- One turn of micReadPcm, which stays in it when it returns nothing. -/
def read (s : Recorder N) : Option (Recorder N) :=
  if s.place = .reading then do
    let (ring, returned) ← s.ring.readTurn networkChunkSamples
    match returned with
    | some samples => some { s with ring, place := .writing (chunkBytes samples) }
    | none => some { s with ring }
  else none

/-- The inner loop and the test behind it. -/
def write (s : Recorder N) (writes : Nat → Bool × Nat) : Option (Recorder N) :=
  match s.place with
  | .writing bytes =>
    let (calls, sent) := writeLoop bytes writes 0 0
    some { s with
      taken := s.taken ++ accepted calls
      place := if sent < bytes.length then .leaving else .looping }
  | _ => none

def stop (s : Recorder N) : Option (Recorder N) :=
  if s.place = .leaving then
    some { s with ring := s.ring.micStopPcmStream, place := .idle }
  else none

def step (channel : Nat) (s : Recorder N) : Step → Option (Recorder N)
  | .dma read => s.dma channel read
  | .appendPcm => s.appendPcm
  | .start => some s.start
  | .create created => s.create created
  | .test connected wifi => s.test connected wifi
  | .read => s.read
  | .write writes => s.write writes
  | .stop => s.stop

/-- The PCM values of the microphone's samples. -/
def encoded (heard : List (BitVec 12)) : List Int16 :=
  (Mealy.outputs (Sampler.exact windowSamples) {} heard).map Prod.fst

/-- What the inner loop has still to hand over. -/
def inHand (s : Recorder N) : List UInt8 :=
  match s.place with
  | .writing bytes => bytes
  | _ => []

/-- What the client has been handed of the samples read from the ring. -/
def Handed (s : Recorder N) (read : List Int16) : Prop :=
  match s.place with
  | .claimed | .looping | .reading => s.taken = chunkBytes read
  | .writing bytes => s.taken ++ bytes = chunkBytes read
  | .idle | .leaving => s.taken <+: chunkBytes read

section cases
variable {s t : Recorder N}

theorem dma_cases {channel : Nat} {read : DmaRead} (h : s.dma channel read = some t) :
    s.pcmBuffer = none ∧ ∃ adc turn,
      micAdcTask windowSamples channel s.adc read = some (adc, turn) ∧
      { s with
        adc
        pcmBuffer := turn.appended
        heard := s.heard ++ if read.processed then read.samples channel else [] } = t := by
  obtain ⟨hbuffer, hrest⟩ := Option.ite_none_left_eq_some.mp h
  obtain ⟨⟨adc, turn⟩, hturn, hnew⟩ := Option.bind_eq_some_iff.mp hrest
  exact ⟨by simpa using hbuffer, adc, turn, hturn, Option.some.inj hnew⟩

theorem appendPcm_cases (h : s.appendPcm = some t) : ∃ chunk ring, s.pcmBuffer = some chunk ∧
    s.ring.appendPcm chunk = some ring ∧
    { s with ring, pcmBuffer := none, passed := s.passed + chunk.length } = t := by
  obtain ⟨chunk, hchunk, hrest⟩ := Option.bind_eq_some_iff.mp h
  obtain ⟨ring, happend, hnew⟩ := Option.bind_eq_some_iff.mp hrest
  exact ⟨chunk, ring, hchunk, happend, Option.some.inj hnew⟩

theorem create_cases {created : Bool} (h : s.create created = some t) : s.place = .claimed ∧
    { s with place := if created then .looping else .leaving } = t := by
  obtain ⟨hplace, hnew⟩ := Option.ite_none_right_eq_some.mp h
  exact ⟨hplace, Option.some.inj hnew⟩

theorem test_cases {connected wifi : Bool} (h : s.test connected wifi = some t) :
    s.place = .looping ∧
    { s with place := if connected && wifi then .reading else .leaving } = t := by
  obtain ⟨hplace, hnew⟩ := Option.ite_none_right_eq_some.mp h
  exact ⟨hplace, Option.some.inj hnew⟩

theorem read_cases (h : s.read = some t) : s.place = .reading ∧ ∃ ring samples,
    s.ring.readPcm networkChunkSamples = some (ring, samples) ∧
    (samples.length > 0 ∨ s.ring.pcmStreaming = false →
      { s with ring, place := .writing (chunkBytes samples) } = t) ∧
    (samples = [] → s.ring.pcmStreaming = true → { s with ring } = t) := by
  obtain ⟨hplace, hrest⟩ := Option.ite_none_right_eq_some.mp h
  obtain ⟨⟨ring, returned⟩, hturn, hnew⟩ := Option.bind_eq_some_iff.mp hrest
  obtain ⟨⟨ring', samples⟩, hread, hreturned⟩ := Option.bind_eq_some_iff.mp hturn
  obtain ⟨rfl, rfl⟩ := Prod.mk.inj (Option.some.inj hreturned)
  refine ⟨hplace, ring', samples, hread, ?_, ?_⟩
  · intro hgoes
    simp only [if_pos hgoes] at hnew
    exact Option.some.inj hnew
  · intro hempty hstreaming
    have hstays : ¬ (samples.length > 0 ∨ s.ring.pcmStreaming = false) := by
      simp [hempty, hstreaming]
    simp only [if_neg hstays] at hnew
    exact Option.some.inj hnew

theorem write_cases {writes : Nat → Bool × Nat} (h : s.write writes = some t) :
    ∃ bytes, s.place = .writing bytes ∧
      { s with
        taken := s.taken ++ accepted (writeLoop bytes writes 0 0).1
        place := if (writeLoop bytes writes 0 0).2 < bytes.length then .leaving
          else .looping } = t := by
  simp only [write] at h
  split at h
  next bytes hplace => exact ⟨bytes, hplace, Option.some.inj h⟩
  · cases h

theorem stop_cases (h : s.stop = some t) : s.place = .leaving ∧
    { s with ring := s.ring.micStopPcmStream, place := .idle } = t := by
  obtain ⟨hplace, hnew⟩ := Option.ite_none_right_eq_some.mp h
  exact ⟨hplace, Option.some.inj hnew⟩

end cases

variable [NeZero N]

/-- The recorder against all that was heard, `p` being the period that the ring refines. -/
structure Sound (s : Recorder N) (p : Period) : Prop where
  ring : s.ring.Refines p
  sampler : s.adc.toSampler = Mealy.run (Sampler.exact windowSamples) {} s.heard
  buffered : (encoded s.heard).drop s.passed = s.pcmBuffer.getD []
  passed_le : s.passed ≤ (encoded s.heard).length
  offered_le : s.since + p.offered ≤ s.passed
  offered : p.streaming = true → s.since + p.offered = s.passed
  accepted : p.accepted.Sublist (((encoded s.heard).drop s.since).take p.offered)
  placed : s.place = .idle ↔ p.streaming = false
  handed : s.Handed p.read

section steps
variable {s t : Recorder N} {p : Period}

theorem sound_boot : Sound ({} : Recorder N) {} where
  ring := PcmRing.refines_boot
  sampler := rfl
  buffered := rfl
  passed_le := Nat.le_refl 0
  offered_le := Nat.le_refl 0
  offered := by simp
  accepted := List.Sublist.refl _
  placed := by simp
  handed := List.nil_prefix

theorem Sound.inRange (hs : s.Sound p) : s.adc.encoder.InRange := by
  have hlocal : s.adc.encoder = (Mealy.run (Sampler.exact windowSamples) {} s.heard).encoder :=
    congrArg Sampler.encoder hs.sampler
  rw [hlocal]
  exact Sampler.run_inRange PcmEncoder.reset_inRange s.heard

theorem Sound.up (hs : s.Sound p) (hplace : s.place ≠ .idle) : p.streaming = true := by
  by_contra hstopped
  exact hplace (hs.placed.mpr (by simpa using hstopped))

/-- What is heard later leaves the part that was passed on as it is. -/
theorem Sound.later (hs : s.Sound p) (xs : List Int16) :
    (((encoded s.heard) ++ xs).drop s.since).take p.offered =
      ((encoded s.heard).drop s.since).take p.offered := by
  have hpassed := hs.passed_le
  have hoffered := hs.offered_le
  rw [List.drop_append_of_le_length (by omega), List.take_append_of_le_length]
  rw [List.length_drop]
  omega

/-- A turn of the ADC task takes the samples of its read through the encoder. -/
theorem dma_encoded {channel : Nat} {read : DmaRead} (hs : s.Sound p) {adc : AdcTask}
    {turn : Mic.Turn}
    (h : micAdcTask windowSamples channel s.adc read = some (adc, turn)) :
    let heard := s.heard ++ if read.processed then read.samples channel else []
    adc.toSampler = Mealy.run (Sampler.exact windowSamples) {} heard ∧
      encoded heard = encoded s.heard ++ turn.appended.getD [] := by
  cases hprocessed : read.processed with
  | false =>
    rw [Mic.micAdcTask_skips hprocessed] at h
    obtain ⟨rfl, rfl⟩ := Prod.mk.inj (Option.some.inj h)
    simp only [Bool.false_eq_true, if_false, List.append_nil]
    exact ⟨hs.sampler, (List.append_nil _).symm⟩
  | true =>
    obtain ⟨overflowReported, turn', hturn, -, happended⟩ :=
      @Mic.micAdcTask_processes windowSamples channel s.adc hs.inRange read hprocessed
    obtain ⟨rfl, rfl⟩ := Prod.mk.inj (Option.some.inj (h.symm.trans hturn))
    simp only [if_true]
    constructor
    · rw [Mealy.run_append, hs.sampler]
    · rw [happended, encoded, encoded, Mealy.outputs_append, List.map_append, hs.sampler]
      rfl

theorem sound_dma {channel : Nat} {read : DmaRead} (hs : s.Sound p)
    (h : s.dma channel read = some t) : t.Sound p := by
  obtain ⟨hbuffer, adc, turn, hturn, rfl⟩ := dma_cases h
  obtain ⟨hsampler, hencoded⟩ := dma_encoded hs hturn
  have hall := hs.buffered
  rw [hbuffer, Option.getD_none, List.drop_eq_nil_iff] at hall
  have hpassed : s.passed = (encoded s.heard).length := Nat.le_antisymm hs.passed_le hall
  refine ⟨hs.ring, hsampler, ?_, ?_, hs.offered_le, hs.offered, ?_, hs.placed, hs.handed⟩
  · show (encoded _).drop s.passed = _
    rw [hencoded, hpassed, List.drop_left]
  · show s.passed ≤ (encoded _).length
    rw [hencoded, List.length_append]
    omega
  · show p.accepted.Sublist (((encoded _).drop s.since).take p.offered)
    rw [hencoded, hs.later]
    exact hs.accepted

/-- The ring takes a part of the chunk, from its front on, and counts the rest as dropped. -/
theorem sound_appendPcm (hs : s.Sound p) (h : s.appendPcm = some t) :
    ∃ p', t.Sound p' := by
  obtain ⟨chunk, ring, hchunk, happend, rfl⟩ := appendPcm_cases h
  obtain ⟨ring', hrun, hring⟩ := PcmRing.append_refines hs.ring chunk
  obtain rfl := Option.some.inj (happend.symm.trans hrun)
  have hbuffered := hs.buffered
  rw [hchunk, Option.getD_some] at hbuffered
  have hlength : s.passed + chunk.length = (encoded s.heard).length := by
    have hpassed := hs.passed_le
    have hlen := congrArg List.length hbuffered
    rw [List.length_drop] at hlen
    omega
  have hend : (encoded s.heard).drop (s.passed + chunk.length) = [] := by
    rw [hlength, List.drop_length]
  refine ⟨_, hring, hs.sampler, hend, Nat.le_of_eq hlength, ?_, ?_, ?_, ?_, ?_⟩
  all_goals simp only [Period.append]
  · have hoffered := hs.offered_le
    split_ifs
    · dsimp only
      omega
    · omega
  · split_ifs with hstreaming
    · intro _
      have hoffered := hs.offered hstreaming
      dsimp only
      omega
    · intro hup
      exact absurd hup hstreaming
  · split_ifs with hstreaming
    · have hoffered := hs.offered hstreaming
      have hnext : ((encoded s.heard).drop s.since).drop p.offered = chunk := by
        rw [List.drop_drop, hoffered, hbuffered]
      rw [List.take_add, hnext, List.take_length]
      exact hs.accepted.append (List.take_sublist _ _)
    · exact hs.accepted
  · have hplaced := hs.placed
    split_ifs
    · exact hplaced
    · exact hplaced
  · have hhanded := hs.handed
    split_ifs
    · exact hhanded
    · exact hhanded

theorem sound_start (hs : s.Sound p) : ∃ p', s.start.Sound p' := by
  obtain ⟨hstarted, hring⟩ := PcmRing.start_refines hs.ring
  simp only [start]
  cases hstreaming : p.streaming with
  | true =>
    rw [hstreaming] at hstarted hring
    rw [hstarted]
    exact ⟨p, hring, hs.sampler, hs.buffered, hs.passed_le, hs.offered_le, hs.offered,
      hs.accepted, hs.placed, hs.handed⟩
  | false =>
    rw [hstreaming] at hstarted hring
    rw [hstarted]
    exact ⟨_, hring, hs.sampler, hs.buffered, hs.passed_le, Nat.le_refl _, fun _ => rfl,
      List.nil_sublist _, by simp, rfl⟩

/-- A step of the stream task that leaves the ring to the others. -/
theorem Sound.move (hs : s.Sound p) {place : Place} {taken : List UInt8}
    (hbefore : s.place ≠ .idle) (hafter : place ≠ .idle)
    (hhanded : Handed { s with place, taken } p.read) : Sound { s with place, taken } p where
  ring := hs.ring
  sampler := hs.sampler
  buffered := hs.buffered
  passed_le := hs.passed_le
  offered_le := hs.offered_le
  offered := hs.offered
  accepted := hs.accepted
  placed := by
    have hplaced := hs.placed
    constructor
    · intro hidle
      exact absurd hidle hafter
    · intro hstopped
      exact absurd (hplaced.mpr hstopped) hbefore
  handed := hhanded

theorem sound_create (hs : s.Sound p) {created : Bool} (h : s.create created = some t) :
    t.Sound p := by
  obtain ⟨hplace, rfl⟩ := create_cases h
  have hhanded : s.taken = chunkBytes p.read := by
    have hall := hs.handed
    rwa [Handed, hplace] at hall
  apply hs.move
  · rw [hplace]
    exact nofun
  · cases created <;> exact nofun
  · cases created with
    | false => exact hhanded ▸ List.prefix_rfl
    | true => exact hhanded

theorem sound_test (hs : s.Sound p) {connected wifi : Bool} (h : s.test connected wifi = some t) :
    t.Sound p := by
  obtain ⟨hplace, rfl⟩ := test_cases h
  have hhanded : s.taken = chunkBytes p.read := by
    have hall := hs.handed
    rwa [Handed, hplace] at hall
  apply hs.move
  · rw [hplace]
    exact nofun
  · cases connected && wifi <;> exact nofun
  · cases connected && wifi with
    | false => exact hhanded ▸ List.prefix_rfl
    | true => exact hhanded

/-- What a read takes from the ring is what the inner loop is about to hand over. -/
theorem sound_read (hs : s.Sound p) (h : s.read = some t) : ∃ p', t.Sound p' := by
  obtain ⟨hplace, ring, samples, hread, hgoes, hstays⟩ := read_cases h
  obtain ⟨ring', hrun, hring⟩ := PcmRing.read_refines hs.ring networkChunkSamples
  obtain ⟨rfl, rfl⟩ := Prod.mk.inj (Option.some.inj (hread.symm.trans hrun))
  have hstreaming : p.streaming = true := hs.up (by simp [hplace])
  have hhanded : s.taken = chunkBytes p.read := by
    have hall := hs.handed
    rwa [Handed, hplace] at hall
  simp only [Period.take, if_pos hstreaming] at hgoes hstays hring
  obtain ⟨samples, hsamples⟩ : ∃ samples, samples = p.unread.take networkChunkSamples := ⟨_, rfl⟩
  rw [← hsamples] at hgoes hstays hring
  refine ⟨{ p with read := p.read ++ samples }, ?_⟩
  by_cases hempty : samples = []
  · have hup := hs.ring.streaming.trans hstreaming
    rw [← hstays hempty hup]
    refine ⟨hring, hs.sampler, hs.buffered, hs.passed_le, hs.offered_le, hs.offered, hs.accepted,
      hs.placed, ?_⟩
    simp only [Handed, hplace]
    rw [hhanded, hempty, List.append_nil]
  · rw [← hgoes (Or.inl (List.length_pos_iff.mpr hempty))]
    refine ⟨hring, hs.sampler, hs.buffered, hs.passed_le, hs.offered_le, hs.offered, hs.accepted,
      ?_, ?_⟩
    · simp [hstreaming]
    · show s.taken ++ chunkBytes samples = chunkBytes (p.read ++ samples)
      rw [hhanded, chunkBytes_append]

/-- The inner loop hands over its chunk, all of it if the task goes on. -/
theorem sound_write (hs : s.Sound p) {writes : Nat → Bool × Nat} (h : s.write writes = some t) :
    t.Sound p := by
  obtain ⟨bytes, hplace, rfl⟩ := write_cases h
  have hsent := @writeLoop_sent bytes writes 0 0 (Nat.zero_le _)
  have htaken := hsent.taken
  rw [List.drop_zero, Nat.sub_zero] at htaken
  have hhanded : s.taken ++ bytes = chunkBytes p.read := by
    have hall := hs.handed
    rwa [Handed, hplace] at hall
  apply hs.move
  · rw [hplace]
    exact nofun
  · split_ifs <;> exact nofun
  · split_ifs with hcut
    · show s.taken ++ accepted (writeLoop bytes writes 0 0).1 <+: chunkBytes p.read
      rw [← hhanded, htaken]
      exact (List.prefix_append_right_inj _).mpr (List.take_prefix _ _)
    · show s.taken ++ accepted (writeLoop bytes writes 0 0).1 = chunkBytes p.read
      rw [htaken, List.take_of_length_le (Nat.not_lt.mp hcut), hhanded]

theorem sound_stop (hs : s.Sound p) (h : s.stop = some t) : ∃ p', t.Sound p' := by
  obtain ⟨hplace, rfl⟩ := stop_cases h
  have hhanded := hs.handed
  rw [Handed, hplace] at hhanded
  exact ⟨_, PcmRing.stop_refines hs.ring, hs.sampler, hs.buffered, hs.passed_le, hs.offered_le,
    by simp, hs.accepted, by simp, hhanded⟩

theorem sound_step {channel : Nat} (s : Recorder N) (a : Step) (t : Recorder N)
    (h : s.step channel a = some t) (hs : ∃ p, s.Sound p) : ∃ p, t.Sound p := by
  obtain ⟨p, hs⟩ := hs
  cases a with
  | dma read => exact ⟨p, sound_dma hs h⟩
  | appendPcm => exact sound_appendPcm hs h
  | start =>
    obtain rfl := Option.some.inj h
    exact sound_start hs
  | create created => exact ⟨p, sound_create hs h⟩
  | test connected wifi => exact ⟨p, sound_test hs h⟩
  | read => exact sound_read hs h
  | write writes => exact ⟨p, sound_write hs h⟩
  | stop => exact sound_stop hs h

/-- The encoder has seen exactly what was heard. -/
theorem Sound.encoder (hs : s.Sound p) :
    Faulting.exec PcmEncoder.step {} (s.heard.map fun data => .encode (raw data)) =
      some (s.adc.encoder, (encoded s.heard).map some) := by
  obtain ⟨houtputs, hrun⟩ := @Mic.encoder_outputs windowSamples {} s.heard
  obtain ⟨hencoder, -⟩ := PcmEncoder.exec_eq (s.heard.map fun data => .encode (raw data))
  have hlocal : s.adc.encoder = (Mealy.run (Sampler.exact windowSamples) {} s.heard).encoder :=
    congrArg Sampler.encoder hs.sampler
  rw [hlocal, ← hrun, encoded, ← houtputs]
  exact hencoder

/-- What was passed to the ring and is not kept has been counted as dropped. -/
theorem Sound.counted (hs : s.Sound p) (hstreaming : s.ring.pcmStreaming = true) :
    UInt32.ofNat p.accepted.length + s.ring.droppedSamples = UInt32.ofNat (s.passed - s.since) := by
  have hup := hs.ring.streaming.symm.trans hstreaming
  have hoffered := hs.offered hup
  have hle := hs.ring.accepted_le
  rw [(hs.ring.flowing hup).dropped, ← UInt32.ofNat_add]
  congr 1
  omega

/-- Without a drop the ring has kept all that was passed to it. -/
theorem Sound.kept (hs : s.Sound p) (hstreaming : s.ring.pcmStreaming = true)
    (hdropped : s.ring.droppedSamples = 0) (hfew : s.passed - s.since < 2 ^ 32) :
    p.accepted = ((encoded s.heard).drop s.since).take (s.passed - s.since) := by
  have hup := hs.ring.streaming.symm.trans hstreaming
  have hoffered := hs.offered hup
  have hle := hs.ring.accepted_le
  have hpassed := hs.passed_le
  have hall : p.accepted.length = s.passed - s.since := by
    have hcount := congrArg UInt32.toNat (hs.counted hstreaming)
    have hlt : p.accepted.length < 2 ^ 32 := by omega
    rw [hdropped, UInt32.add_zero, UInt32.toNat_ofNat_of_lt' hlt,
      UInt32.toNat_ofNat_of_lt' hfew] at hcount
    exact hcount
  have hsince : p.offered = s.passed - s.since := by omega
  rw [← hsince]
  apply hs.accepted.eq_of_length
  rw [List.length_take, List.length_drop]
  omega

/-- The samples kept are with the client, in the hands of the inner loop, or in the ring. -/
theorem Sound.whereabouts (hs : s.Sound p) (hplace : s.place ≠ .idle) (hstay : s.place ≠ .leaving) :
    s.taken ++ s.inHand ++ chunkBytes s.ring.unread = chunkBytes p.accepted := by
  have hread : s.taken ++ s.inHand = chunkBytes p.read := by
    have hhanded := hs.handed
    rw [Handed] at hhanded
    rw [inHand]
    split at hhanded
    next hclaimed => rwa [hclaimed, List.append_nil]
    next hlooping => rwa [hlooping, List.append_nil]
    next hreading => rwa [hreading, List.append_nil]
    next bytes hwriting => rwa [hwriting]
    next hidle => exact absurd hidle hplace
    next hleaving => exact absurd hleaving hstay
  obtain ⟨rest, hrest⟩ := hs.ring.read_accepted
  have hunread : s.ring.unread = rest := by
    rw [(hs.ring.flowing (hs.up hplace)).unread, Period.unread, ← hrest, List.drop_left]
  rw [hread, hunread, ← chunkBytes_append, hrest]

theorem dma_isSome {channel : Nat} (hs : s.Sound p) (hbuffer : s.pcmBuffer = none)
    (read : DmaRead) : (s.dma channel read).isSome = true := by
  have hturn : ∃ result, micAdcTask windowSamples channel s.adc read = some result := by
    cases hprocessed : read.processed with
    | false => exact ⟨_, Mic.micAdcTask_skips hprocessed⟩
    | true =>
      obtain ⟨overflowReported, turn, hturn, -⟩ :=
        @Mic.micAdcTask_processes windowSamples channel s.adc hs.inRange read hprocessed
      exact ⟨_, hturn⟩
  obtain ⟨result, hresult⟩ := hturn
  rw [dma, hbuffer, hresult]
  rfl

theorem appendPcm_isSome (hs : s.Sound p) (hbuffer : s.pcmBuffer ≠ none) :
    s.appendPcm.isSome = true := by
  obtain ⟨chunk, hchunk⟩ := Option.ne_none_iff_exists'.mp hbuffer
  obtain ⟨ring, hrun, -⟩ := PcmRing.append_refines hs.ring chunk
  rw [appendPcm, hchunk]
  simp [hrun]

theorem read_isSome (hs : s.Sound p) (hplace : s.place = .reading) : s.read.isSome = true := by
  obtain ⟨ring, hrun, -⟩ := PcmRing.read_refines hs.ring networkChunkSamples
  rw [read, if_pos hplace, PcmRing.readTurn, hrun]
  simp only [Option.bind_eq_bind, Option.bind_some]
  split_ifs <;> rfl

end steps

/-- From the microphone to the client. Whatever the ADC reads give, however the ADC task, the
requests and the stream task come one after another, and whatever the socket takes: no task goes
wrong, and what the client has been handed is, read as S16LE, samples of the encoder's run over
all that the microphone heard, from the start of the stream on, in order and none twice. The
samples that were kept and those counted as dropped are together all that were passed on; while
no drop has been counted they are all of them without a gap. Each sample kept is with the client,
in the hands of the inner loop or in the ring, in this order, so with the ring empty behind the
inner loop the client has every one. -/
theorem recording_faithful (channel : Nat) (actions : List Step) (s : Recorder N)
    (h : Guarded.exec (step channel) {} actions = some s) :
    ∃ pcm kept : List Int16,
      Faulting.exec PcmEncoder.step {} (s.heard.map fun data => .encode (raw data)) =
        some (s.adc.encoder, pcm.map some) ∧
      kept.Sublist (pcm.drop s.since) ∧ s.taken <+: chunkBytes kept ∧ s16le s.taken <+: kept ∧
      (s.ring.pcmStreaming = true →
        UInt32.ofNat kept.length + s.ring.droppedSamples = UInt32.ofNat (s.passed - s.since)) ∧
      (s.ring.pcmStreaming = true → s.ring.droppedSamples = 0 → s.passed - s.since < 2 ^ 32 →
        kept = (pcm.drop s.since).take (s.passed - s.since)) ∧
      (s.place ≠ .idle → s.place ≠ .leaving →
        s.taken ++ s.inHand ++ chunkBytes s.ring.unread = chunkBytes kept) ∧
      (s.place = .looping ∨ s.place = .reading → s.ring.pcmCount = 0 →
        s.taken = chunkBytes kept) ∧
      (s.pcmBuffer = none → ∀ read, (s.step channel (.dma read)).isSome = true) ∧
      (s.pcmBuffer ≠ none → (s.step channel .appendPcm).isSome = true) ∧
      (s.place = .reading → (s.step channel .read).isSome = true) := by
  obtain ⟨p, hs⟩ := Guarded.exec_preserves (fun s : Recorder N => ∃ p, s.Sound p) sound_step h
    ⟨_, sound_boot⟩
  have hread : s.taken <+: chunkBytes p.read := by
    have hhanded := hs.handed
    rw [Handed] at hhanded
    split at hhanded
    all_goals first | exact hhanded | exact hhanded ▸ List.prefix_rfl | exact ⟨_, hhanded⟩
  have hkept : s.taken <+: chunkBytes p.accepted := by
    obtain ⟨rest, hrest⟩ := hs.ring.read_accepted
    apply hread.trans
    rw [← hrest, chunkBytes_append]
    exact List.prefix_append _ _
  refine ⟨encoded s.heard, p.accepted, hs.encoder, hs.accepted.trans (List.take_sublist _ _),
    hkept, s16le_of_prefix hkept, hs.counted, hs.kept, hs.whereabouts, ?_, dma_isSome hs,
    appendPcm_isSome hs, read_isSome hs⟩
  intro hplace hcount
  have hnone : s.ring.unread = [] := by
    rw [PcmRing.unread, hcount]
    rfl
  obtain ⟨hbusy, hstays, hhand⟩ : s.place ≠ .idle ∧ s.place ≠ .leaving ∧ s.inHand = [] := by
    rcases hplace with hlooping | hreading
    · simp [inHand, hlooping]
    · simp [inHand, hreading]
  have hall := hs.whereabouts hbusy hstays
  rw [hnone, hhand, List.append_nil] at hall
  exact (List.append_nil _).symm.trans hall

def twoSamples (data : BitVec 12) : DmaRead where
  result := .ok
  dmaBuffer := .replicate _ ⟨.unit1, 3, data⟩
  bytesRead := 8
  fits := by decide

/-- Two samples before the start, none in the ring at the first read, and a socket that takes
three bytes a time. -/
def shortRecording : List Step :=
  [.dma (twoSamples 2000), .appendPcm, .start, .create true, .test true true, .read,
    .dma (twoSamples 2100), .appendPcm, .read, .write fun _ => (true, 3)]

/-- Six more samples for the four places of the ring, before the next chunk is read. -/
def overfullRecording : List Step :=
  shortRecording ++ [.dma (twoSamples 2000), .appendPcm, .dma (twoSamples 2000), .appendPcm,
    .dma (twoSamples 2000), .appendPcm, .test true true, .read, .write fun _ => (true, 3)]

theorem short_recording_faithful :
    (∃ (s : Recorder 4) (pcm : List Int16),
      Guarded.exec (step 3) {} shortRecording = some s ∧ s16le s.taken = [792, 792] ∧
        s16le s.taken = (pcm.drop 2).take 2 ∧
        Faulting.exec PcmEncoder.step {} (s.heard.map fun data => .encode (raw data)) =
          some (s.adc.encoder, pcm.map some)) ∧
    ∃ (s : Recorder 4) (kept : List Int16),
      Guarded.exec (step 3) {} overfullRecording = some s ∧ s.ring.droppedSamples = 2 ∧
        s16le s.taken = kept ∧ UInt32.ofNat kept.length + 2 = UInt32.ofNat 8 := by
  constructor
  · have hseen : ∃ s ∈ Guarded.exec (step 3) ({} : Recorder 4) shortRecording,
        s.place = .looping ∧ s16le s.taken = [792, 792] ∧ s.ring.pcmStreaming = true ∧
          s.ring.pcmCount = 0 ∧ s.ring.droppedSamples = 0 ∧ s.passed = 4 ∧ s.since = 2 := by
      decide +kernel
    obtain ⟨s, hrun, hplace, htaken, hstreaming, hcount, hdropped, hpassed, hsince⟩ := hseen
    obtain ⟨pcm, kept, hencoder, -, -, -, -, hkept, -, hall, -⟩ :=
      recording_faithful 3 shortRecording s hrun
    refine ⟨s, pcm, hrun, htaken, ?_, hencoder⟩
    rw [hpassed, hsince] at hkept
    rw [hall (Or.inl hplace) hcount, s16le_chunkBytes, hkept hstreaming hdropped (by decide)]
  · have hseen : ∃ s ∈ Guarded.exec (step 3) ({} : Recorder 4) overfullRecording,
        s.place = .looping ∧ s.ring.pcmStreaming = true ∧ s.ring.pcmCount = 0 ∧
          s.ring.droppedSamples = 2 ∧ s.passed - s.since = 8 := by
      decide +kernel
    obtain ⟨s, hrun, hplace, hstreaming, hcount, hdropped, hpassed⟩ := hseen
    obtain ⟨pcm, kept, -, -, -, -, hcounted, -, -, hall, -⟩ :=
      recording_faithful 3 overfullRecording s hrun
    refine ⟨s, kept, hrun, hdropped, ?_, ?_⟩
    · rw [hall (Or.inl hplace) hcount, s16le_chunkBytes]
    · rw [← hdropped, ← hpassed]
      exact hcounted hstreaming

end Recorder

end RoomWatchdog.Audio
