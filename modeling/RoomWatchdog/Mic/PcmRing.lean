import RoomWatchdog.Library.Faulting
import RoomWatchdog.Library.RingWindow

namespace RoomWatchdog.Mic

/-- The stream buffer of `N` = AUDIO_STREAM_BUFFER_SAMPLES and its bookkeeping, all guarded by
stateMux. -/
structure PcmRing (N : Nat) where
  pcmRing : Vector Int16 N := .replicate N 0
  pcmReadIndex : Nat := 0
  pcmWriteIndex : Nat := 0
  pcmCount : Nat := 0
  pcmStreaming : Bool := false
  droppedSamples : UInt32 := 0

namespace PcmRing

/-- A size_t difference, none where it would wrap. -/
def minus (a b : Nat) : Option Nat := if b ≤ a then some (a - b) else none

theorem minus_eq {a b : Nat} (h : b ≤ a) : minus a b = some (a - b) := if_pos h

variable {N : Nat}

def appendPcm (s : PcmRing N) (samples : List Int16) : Option (PcmRing N) :=
  if s.pcmStreaming then do
    let sampleCount := samples.length
    let freeSamples ← minus N s.pcmCount
    let accepted := if sampleCount < freeSamples then sampleCount else freeSamples
    let tail ← minus N s.pcmWriteIndex
    let firstPart := if accepted < tail then accepted else tail
    let pcmRing ← RingWindow.blit s.pcmRing s.pcmWriteIndex (samples.take firstPart)
    let pcmRing ← RingWindow.blit pcmRing 0 ((samples.drop firstPart).take (accepted - firstPart))
    some { s with
      pcmRing
      pcmWriteIndex := (s.pcmWriteIndex + accepted) % N
      pcmCount := s.pcmCount + accepted
      droppedSamples := s.droppedSamples + UInt32.ofNat (sampleCount - accepted) }
  else some s

/-- The critical section of micReadPcm, which copies out at most `maxSamples`. -/
def readPcm (s : PcmRing N) (maxSamples : Nat) : Option (PcmRing N × List Int16) := do
  let available := if s.pcmCount < maxSamples then s.pcmCount else maxSamples
  let tail ← minus N s.pcmReadIndex
  let firstPart := if available < tail then available else tail
  let front ← RingWindow.slice s.pcmRing s.pcmReadIndex firstPart
  let back ← RingWindow.slice s.pcmRing 0 (available - firstPart)
  some ({ s with
    pcmReadIndex := (s.pcmReadIndex + available) % N
    pcmCount := s.pcmCount - available }, front ++ back)

def micStartPcmStream (s : PcmRing N) : PcmRing N × Bool :=
  if s.pcmStreaming then (s, false)
  else ({ s with pcmReadIndex := 0, pcmWriteIndex := 0, pcmCount := 0, droppedSamples := 0,
                 pcmStreaming := true }, true)

def micStopPcmStream (s : PcmRing N) : PcmRing N :=
  { s with pcmStreaming := false, pcmCount := 0 }

inductive Op where
  | append (samples : List Int16)
  | read (maxSamples : Nat)
  | start
  | stop

/-- What a call hands back. -/
inductive Answer where
  | appended
  | samples (read : List Int16)
  | started (claimed : Bool)
  | stopped
  deriving DecidableEq

def step (s : PcmRing N) : Op → Option (PcmRing N × Answer)
  | .append samples => (s.appendPcm samples).map fun s => (s, .appended)
  | .read maxSamples => (s.readPcm maxSamples).map fun (s, read) => (s, .samples read)
  | .start =>
    let (s, claimed) := s.micStartPcmStream
    some (s, .started claimed)
  | .stop => some (s.micStopPcmStream, .stopped)

end PcmRing

/-! The stream as its two ends see it. -/

/-- One streaming period: what was offered and accepted since the start, and what was read. -/
structure Period where
  streaming : Bool := false
  offered : Nat := 0
  accepted : List Int16 := []
  read : List Int16 := []

namespace Period

/-- The samples accepted and not read yet. -/
def unread (p : Period) : List Int16 := p.accepted.drop p.read.length

def append (N : Nat) (p : Period) (samples : List Int16) : Period :=
  if p.streaming then
    { p with
      offered := p.offered + samples.length
      accepted := p.accepted ++ samples.take (N - p.unread.length) }
  else p

def take (p : Period) (maxSamples : Nat) : Period × List Int16 :=
  if p.streaming then
    ({ p with read := p.read ++ p.unread.take maxSamples }, p.unread.take maxSamples)
  else (p, [])

def step (N : Nat) (p : Period) : PcmRing.Op → Period × PcmRing.Answer
  | .append samples => (p.append N samples, .appended)
  | .read maxSamples => ((p.take maxSamples).1, .samples (p.take maxSamples).2)
  | .start => if p.streaming then (p, .started false) else ({ streaming := true }, .started true)
  | .stop => ({ p with streaming := false }, .stopped)

end Period

end RoomWatchdog.Mic
