import Mathlib.Algebra.Order.Ring.Int
import RoomWatchdog.Library.Faulting
import RoomWatchdog.Library.LeakyFilter

namespace RoomWatchdog

/-- Removes the microphone's DC bias and maps the 12-bit ADC range into signed 16-bit PCM. -/
structure PcmEncoder where
  initialized : Bool := false
  dcQ8 : Int := 0
  deriving DecidableEq

namespace PcmEncoder

def adcMax : UInt16 := 4095
def fractionBits : Nat := 8
def dcFilterShift : Nat := 12
def pcmScaleShift : Nat := 3

/-- A result of type int32_t, none where the expression overflows. -/
def int32 (v : Int) : Option Int := if -2 ^ 31 ≤ v ∧ v < 2 ^ 31 then some v else none

theorem int32_eq {v : Int} (h : -2 ^ 31 ≤ v ∧ v < 2 ^ 31) : int32 v = some v := if_pos h

/-- The branch of encode that sets dcQ8_: the first sample establishes the bias. -/
def nextDcQ8 (e : PcmEncoder) (sampleQ8 : Int) : Option Int :=
  if e.initialized = false then some sampleQ8
  else do
    let error ← int32 (sampleQ8 - e.dcQ8)
    int32 (e.dcQ8 + error >>> dcFilterShift)

def encode (e : PcmEncoder) (sample : UInt16) : Option (PcmEncoder × Int16) := do
  let sample := if sample > adcMax then adcMax else sample
  let sampleQ8 ← int32 ((sample.toNat : Int) <<< fractionBits)
  let dcQ8 ← e.nextDcQ8 sampleQ8
  let error ← int32 (sampleQ8 - dcQ8)
  let centered := error >>> fractionBits
  let pcm ← int32 (centered <<< pcmScaleShift)
  some ({ initialized := true, dcQ8 }, Int16.ofInt pcm)

def reset (_ : PcmEncoder) : PcmEncoder := { initialized := false, dcQ8 := 0 }

inductive Op where
  | encode (sample : UInt16)
  | reset
  deriving DecidableEq

def step (e : PcmEncoder) : Op → Option (PcmEncoder × Option Int16)
  | .encode sample => (e.encode sample).map fun (e, pcm) => (e, some pcm)
  | .reset => some (e.reset, none)

/-- The sample as it enters the filter. -/
def clamp (sample : UInt16) : Int := min sample.toNat 4095

/-- The filter's target less its estimate. -/
def error (e : PcmEncoder) (sample : UInt16) : Int :=
  if e.initialized then 256 * clamp sample - e.dcQ8 else 0

/-- Where one sample takes the estimate. -/
def track (e : PcmEncoder) (sample : UInt16) : PcmEncoder :=
  ⟨true, 256 * clamp sample - LeakyFilter.leak 4096 (e.error sample)⟩

/-- The PCM value in exact arithmetic. -/
def pcm (e : PcmEncoder) (sample : UInt16) : Int :=
  8 * (LeakyFilter.leak 4096 (e.error sample) / 256)

/-- The estimate is that of some level the ADC can show. -/
def InRange (e : PcmEncoder) : Prop := 0 ≤ e.dcQ8 ∧ e.dcQ8 ≤ 256 * 4095

variable {e : PcmEncoder} {sample : UInt16}

theorem clamp_bounds (sample : UInt16) : 0 ≤ clamp sample ∧ clamp sample ≤ 4095 := by
  simp only [clamp]
  omega

theorem clamp_mono {s t : UInt16} (h : s ≤ t) : clamp s ≤ clamp t := by
  have hnat := UInt16.le_iff_toNat_le.mp h
  simp only [clamp]
  omega

theorem clamp_eq (sample : UInt16) :
    (((if sample > adcMax then adcMax else sample).toNat : Int)) = clamp sample := by
  have hmax : adcMax.toNat = 4095 := rfl
  simp only [clamp]
  split_ifs with h
  · have hlt : adcMax.toNat < sample.toNat := UInt16.lt_iff_toNat_lt.mp h
    omega
  · have hle : ¬ adcMax.toNat < sample.toNat := fun hlt => h (UInt16.lt_iff_toNat_lt.mpr hlt)
    omega

theorem reset_inRange : InRange {} := by
  simp only [InRange]
  decide

theorem error_bounds (h : e.InRange) (sample : UInt16) :
    -(256 * 4095) ≤ e.error sample ∧ e.error sample ≤ 256 * 4095 := by
  have hclamp := clamp_bounds sample
  simp only [InRange] at h
  simp only [error]
  split_ifs <;> omega

@[simp] theorem track_initialized : (e.track sample).initialized = true := rfl

theorem track_dcQ8 : (e.track sample).dcQ8 =
    256 * clamp sample - LeakyFilter.leak 4096 (e.error sample) := rfl

theorem error_track (e : PcmEncoder) (sample : UInt16) :
    (e.track sample).error sample = LeakyFilter.leak 4096 (e.error sample) := by
  rw [error, if_pos track_initialized, track_dcQ8]
  omega

/-- The estimate ends between where it was and the sample, or at the sample after a reset. -/
theorem track_between (e : PcmEncoder) (sample : UInt16) :
    (e.initialized = false → (e.track sample).dcQ8 = 256 * clamp sample) ∧
    (e.initialized = true →
      min e.dcQ8 (256 * clamp sample) ≤ (e.track sample).dcQ8 ∧
      (e.track sample).dcQ8 ≤ max e.dcQ8 (256 * clamp sample)) := by
  constructor
  · intro h
    have hzero : e.error sample = 0 := if_neg (by simp [h])
    rw [track_dcQ8, hzero, LeakyFilter.leak_of_small (Int.le_refl 0) (by decide), Int.sub_zero]
  · intro h
    have herror : e.error sample = 256 * clamp sample - e.dcQ8 := if_pos h
    rw [track_dcQ8]
    rcases Int.lt_or_le (e.error sample) 0 with hneg | hpos
    · have hleak := @LeakyFilter.leak_of_neg 4096 _ (by decide) hneg
      omega
    · have hleak := @LeakyFilter.leak_of_nonneg 4096 _ (by decide) hpos
      omega

theorem track_inRange (h : e.InRange) (sample : UInt16) : (e.track sample).InRange := by
  have hclamp := clamp_bounds sample
  obtain ⟨hfirst, hlater⟩ := track_between e sample
  simp only [InRange] at h ⊢
  cases hinit : e.initialized with
  | false =>
    have hdc := hfirst hinit
    omega
  | true =>
    have hdc := hlater hinit
    omega

theorem scale_eq (v : Int) : v <<< fractionBits = 256 * v :=
  (Int.shiftLeft_eq v 8).trans (Int.mul_comm _ _)

theorem unscale_eq (v : Int) : v >>> fractionBits = v / 256 := Int.shiftRight_eq_div_pow v 8

theorem dcFilter_eq (v : Int) : v >>> dcFilterShift = v / 4096 := Int.shiftRight_eq_div_pow v 12

theorem pcmScale_eq (v : Int) : v <<< pcmScaleShift = 8 * v :=
  (Int.shiftLeft_eq v 3).trans (Int.mul_comm _ _)

theorem nextDcQ8_eq (h : e.InRange) (sample : UInt16) :
    e.nextDcQ8 (256 * clamp sample) = some (e.track sample).dcQ8 := by
  have hclamp := clamp_bounds sample
  have htrack := track_inRange h sample
  simp only [InRange] at h htrack
  rw [nextDcQ8]
  cases hinit : e.initialized with
  | false => rw [if_pos rfl, (track_between e sample).1 hinit]
  | true =>
    have hnew : e.dcQ8 + (256 * clamp sample - e.dcQ8) / 4096 = (e.track sample).dcQ8 := by
      rw [track_dcQ8, error, if_pos hinit, LeakyFilter.leak]
      omega
    rw [if_neg (by simp), int32_eq (by omega), Option.bind_eq_bind, Option.bind_some,
      dcFilter_eq, hnew, int32_eq (by omega)]

/-- No expression of encode overflows, and this is what it computes. -/
theorem encode_eq (h : e.InRange) (sample : UInt16) :
    e.encode sample = some (e.track sample, Int16.ofInt (e.pcm sample)) := by
  have hclamp := clamp_bounds sample
  have herror := error_bounds (track_inRange h sample) sample
  have hleft : 256 * clamp sample - (e.track sample).dcQ8 =
      LeakyFilter.leak 4096 (e.error sample) := by
    rw [track_dcQ8, Int.sub_sub_self]
  rw [error_track] at herror
  simp only [encode, clamp_eq, scale_eq, unscale_eq, pcmScale_eq, Option.bind_eq_bind]
  rw [int32_eq (by omega), Option.bind_some, nextDcQ8_eq h, Option.bind_some, hleft,
    int32_eq (by omega), Option.bind_some, int32_eq (by omega), Option.bind_some]
  rfl

/-- The encoder in exact arithmetic. -/
def exact (e : PcmEncoder) : Op → PcmEncoder × Option Int16
  | .encode sample => (e.track sample, some (Int16.ofInt (e.pcm sample)))
  | .reset => (e.reset, none)

theorem implements_exact :
    Faulting.Implements (fun e t => e = t ∧ e.InRange) step exact := by
  rintro e t op ⟨rfl, h⟩
  cases op with
  | encode sample =>
    refine ⟨e.track sample, ?_, rfl, track_inRange h sample⟩
    rw [step, encode_eq h, Option.map_some]
    rfl
  | reset => exact ⟨e.reset, rfl, rfl, reset_inRange⟩

/-- Whatever comes in, the code goes through as exact arithmetic does. -/
theorem exec_eq (ops : List Op) :
    Faulting.exec step {} ops = some (Mealy.run exact {} ops, Mealy.outputs exact {} ops) ∧
    (Mealy.run exact {} ops).InRange := by
  obtain ⟨e, hexec, rfl, hrange⟩ := implements_exact.exec ⟨rfl, reset_inRange⟩ ops
  exact ⟨hexec, hrange⟩

theorem pcm_bounds (h : e.InRange) (sample : UInt16) :
    -32760 ≤ e.pcm sample ∧ e.pcm sample ≤ 32760 := by
  have htrack := track_inRange h sample
  have hclamp := clamp_bounds sample
  have hleft := @track_dcQ8 e sample
  simp only [InRange] at htrack
  simp only [pcm]
  omega

/-- The cast to int16_t does not change the value. -/
theorem toInt_pcm (h : e.InRange) (sample : UInt16) :
    (Int16.ofInt (e.pcm sample)).toInt = e.pcm sample := by
  have hbounds := pcm_bounds h sample
  apply Int16.toInt_ofInt_of_le
  · omega
  · omega

end PcmEncoder

end RoomWatchdog
