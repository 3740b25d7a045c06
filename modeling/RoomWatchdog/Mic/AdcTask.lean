import RoomWatchdog.Audio.PcmEncoder
import RoomWatchdog.Config
import RoomWatchdog.Detectors

namespace RoomWatchdog.Mic

def windowSamples : Nat := Config.audioSampleRateHz * Config.soundSampleWindowMs / 1000

def dmaReadBytes : Nat := 2048

/-- SOC_ADC_DIGI_RESULT_BYTES of the ESP32-C3. -/
def resultBytes : Nat := 4

def dmaSamples : Nat := dmaReadBytes / resultBytes

/-- The results of adc_continuous_read that are told apart. -/
inductive EspErr where
  | ok
  | timeout
  | invalidState
  | failed
  deriving DecidableEq

inductive AdcUnit where
  | unit1
  | unit2
  deriving DecidableEq

/-- The type2 fields of one conversion result. -/
structure Record where
  unit : AdcUnit
  channel : Nat
  data : BitVec 12
  deriving DecidableEq

/-- What one adc_continuous_read leaves in dmaBuffer; it never reports more than fits. -/
structure DmaRead where
  result : EspErr
  dmaBuffer : Vector Record dmaSamples
  bytesRead : Nat
  fits : bytesRead ≤ dmaReadBytes

/-- The locals of micAdcTask that samples change. -/
structure Sampler where
  encoder : PcmEncoder := {}
  window : LevelWindow := {}
  samplesInWindow : Nat := 0

/-- The locals that outlive one turn of the loop. -/
structure AdcTask extends Sampler where
  overflowReported : Bool := false

/-- The windows published in one turn, and the chunk passed to appendPcm at its end. -/
structure Turn where
  published : List LevelWindow := []
  appended : Option (List Int16) := none

/-- `raw`, as the window and the encoder take it. -/
def raw (data : BitVec 12) : UInt16 := UInt16.ofNat data.toNat

def level (data : BitVec 12) : Int := (raw data).toNat

/-- One sample of the microphone: its PCM value, and the window it completes. -/
def Sampler.take (window : Nat) (s : Sampler) (data : BitVec 12) :
    Option (Sampler × Int16 × Option LevelWindow) := do
  let levels := s.window.add (level data)
  let (encoder, pcm) ← s.encoder.encode (raw data)
  let samplesInWindow := s.samplesInWindow + 1
  if samplesInWindow = window then
    some (⟨encoder, {}, 0⟩, pcm, some levels)
  else some (⟨encoder, levels, samplesInWindow⟩, pcm, none)

/-- The loop over the records of one read, from `offset` on. -/
def Sampler.scan (window channel : Nat) (bytesRead : Nat) (s : Sampler) (offset : Nat) :
    List Record → Option (Sampler × List Int16 × List LevelWindow)
  | [] => some (s, [], [])
  | record :: records =>
    if offset + resultBytes ≤ bytesRead then
      if record.unit ≠ .unit1 ∨ record.channel ≠ channel then
        s.scan window channel bytesRead (offset + resultBytes) records
      else do
        let (s, pcm, complete) ← s.take window record.data
        let (s, pcmBuffer, published) ←
          s.scan window channel bytesRead (offset + resultBytes) records
        some (s, pcm :: pcmBuffer, complete.toList ++ published)
    else some (s, [], [])

/-- One turn of micAdcTask; `channel` is micAdcChannel and `window` is WINDOW_SAMPLES. -/
def micAdcTask (window channel : Nat) (t : AdcTask) (read : DmaRead) : Option (AdcTask × Turn) :=
  if read.result = .timeout then some (t, {})
  else if read.result ≠ .ok ∧ read.result ≠ .invalidState then some (t, {})
  else do
    let overflowReported := t.overflowReported || read.result = .invalidState
    let (s, pcmBuffer, published) ←
      t.scan window channel read.bytesRead 0 read.dmaBuffer.toList
    some ({ s with overflowReported }, { published, appended := some pcmBuffer })

/-- The reads that are processed. -/
def DmaRead.processed (read : DmaRead) : Bool := read.result = .ok ∨ read.result = .invalidState

/-- The microphone's samples in the part of the buffer that a read filled. -/
def DmaRead.samples (channel : Nat) (read : DmaRead) : List (BitVec 12) :=
  ((read.dmaBuffer.toList.take (read.bytesRead / resultBytes)).filter fun record =>
    record.unit = .unit1 ∧ record.channel = channel).map Record.data

/-- The microphone's samples in the reads that are processed, in order. -/
def samples (channel : Nat) (reads : List DmaRead) : List (BitVec 12) :=
  (reads.filter DmaRead.processed).flatMap (DmaRead.samples channel)

end RoomWatchdog.Mic
