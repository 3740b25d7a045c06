import RoomWatchdog.Audio.PcmEncoder

namespace RoomWatchdog.PcmEncoder
open LeakyFilter (leak)

/-- From some sample on, each output is at most one ADC count for as long as `sample` is fed. -/
def Settles (e : PcmEncoder) (sample : UInt16) : Prop :=
  ∃ n, ∀ m, ∃ next outputs,
    Faulting.exec step e (List.replicate m (.encode sample)) = some (next, outputs) ∧
    ∀ (i : Nat) (value : Int16), n ≤ i → outputs[i]? = some (some value) →
      -8 ≤ value.toInt ∧ value.toInt ≤ 8

/-- What `n` equal samples leave behind. -/
def fed (e : PcmEncoder) (sample : UInt16) (n : Nat) : PcmEncoder :=
  Mealy.run exact e (List.replicate n (.encode sample))

variable {e : PcmEncoder} {sample : UInt16}

theorem fed_succ (e : PcmEncoder) (sample : UInt16) (n : Nat) :
    e.fed sample (n + 1) = (e.fed sample n).track sample := by
  simp only [fed]
  rw [List.replicate_succ', Mealy.run_append]
  rfl

theorem fed_inRange (h : e.InRange) (n : Nat) : (e.fed sample n).InRange := by
  induction n with
  | zero => exact h
  | succ n ih =>
    rw [fed_succ]
    exact track_inRange ih sample

/-- Each equal sample takes the error through the filter once. -/
theorem error_fed (e : PcmEncoder) (sample : UInt16) (n : Nat) :
    (e.fed sample n).error sample = (leak 4096)^[n] (e.error sample) := by
  induction n with
  | zero => rfl
  | succ n ih => rw [fed_succ, error_track, ih, Function.iterate_succ_apply']

theorem pcm_fed (e : PcmEncoder) (sample : UInt16) (n : Nat) :
    (e.fed sample n).pcm sample = 8 * ((leak 4096)^[n + 1] (e.error sample) / 256) := by
  rw [pcm, error_fed, Function.iterate_succ_apply']

theorem exec_replicate (h : e.InRange) (sample : UInt16) (m : Nat) :
    Faulting.exec step e (List.replicate m (.encode sample)) =
      some (e.fed sample m, Mealy.outputs exact e (List.replicate m (.encode sample))) := by
  obtain ⟨next, hexec, rfl, -⟩ :=
    implements_exact.exec ⟨rfl, h⟩ (List.replicate m (.encode sample))
  exact hexec

theorem outputs_replicate {i m : Nat} (hi : i < m) :
    (Mealy.outputs exact e (List.replicate m (.encode sample)))[i]? =
      some (some (Int16.ofInt ((e.fed sample i).pcm sample))) := by
  rw [Mealy.outputs_getElem?, List.getElem?_replicate_of_lt hi, List.take_replicate,
    Nat.min_eq_left (Nat.le_of_lt hi)]
  rfl

/-- Settling is a matter of the exact PCM values. -/
theorem settles_iff (h : e.InRange) :
    e.Settles sample ↔
      ∃ n, ∀ i, n ≤ i → -8 ≤ (e.fed sample i).pcm sample ∧ (e.fed sample i).pcm sample ≤ 8 := by
  constructor
  · rintro ⟨n, hn⟩
    refine ⟨n, ?_⟩
    intro i hi
    obtain ⟨next, outputs, hexec, hall⟩ := hn (i + 1)
    rw [exec_replicate h] at hexec
    cases hexec
    have hvalue := hall i _ hi (outputs_replicate (Nat.lt_succ_self i))
    rwa [toInt_pcm (fed_inRange h i)] at hvalue
  · rintro ⟨n, hn⟩
    refine ⟨n, ?_⟩
    intro m
    refine ⟨_, _, exec_replicate h sample m, ?_⟩
    intro i value hi hvalue
    have him : i < m := by
      have hlt := (List.getElem?_eq_some_iff.mp hvalue).1
      simpa using hlt
    rw [outputs_replicate him] at hvalue
    obtain rfl := Option.some.inj (Option.some.inj hvalue)
    rw [toInt_pcm (fed_inRange h i)]
    exact hn i hi

/-- An error that reaches the filter's dead zone from above stays fifteen counts. -/
theorem pcm_fed_ge (herror : 4095 ≤ e.error sample) (n : Nat) :
    120 ≤ (e.fed sample n).pcm sample := by
  have hstays : 4095 ≤ (leak 4096)^[n + 1] (e.error sample) :=
    LeakyFilter.le_iterate (by decide) (by decide) (by decide) herror (n + 1)
  rw [pcm_fed]
  omega

/-- Within two counts above the estimate, or anywhere below it, the outputs come within one count and stay there. -/
theorem settles_of_error_lt (h : e.InRange) (herror : e.error sample < 512) :
    e.Settles sample := by
  apply (settles_iff h).mpr
  rcases Int.lt_or_le (e.error sample) 0 with hneg | hpos
  · obtain ⟨n, hn⟩ := @LeakyFilter.settles_of_nonpos 4096 _ (by decide) (Int.le_of_lt hneg)
    refine ⟨n, ?_⟩
    intro i hi
    rw [pcm_fed, hn (i + 1) (by omega)]
    decide
  · refine ⟨0, ?_⟩
    intro i _
    have hfixed : (leak 4096)^[i + 1] (e.error sample) = e.error sample :=
      Function.iterate_fixed (LeakyFilter.leak_of_small hpos (by omega)) (i + 1)
    rw [pcm_fed, hfixed]
    omega

/-- From farther below the bias estimate stops more than one count short of the level. -/
theorem error_lt_of_settles (h : e.InRange) (hsettles : e.Settles sample) :
    e.error sample < 512 := by
  obtain ⟨n, hn⟩ := (settles_iff h).mp hsettles
  by_contra hfar
  have hstays : 512 ≤ (leak 4096)^[n + 1] (e.error sample) :=
    LeakyFilter.le_iterate (by decide) (by decide) (by decide) (Int.not_lt.mp hfar) (n + 1)
  have hvalue := (hn n (Nat.le_refl n)).2
  rw [pcm_fed] at hvalue
  omega

/-- After any history a constant level is brought within one ADC count exactly when the
encoder starts afresh or its estimate is less than two counts below that level. -/
theorem bias_removed_iff (ops : List Op) (sample : UInt16) :
    ∃ e outputs, Faulting.exec step {} ops = some (e, outputs) ∧
      (e.Settles sample ↔
        e.initialized = false ∨ 256 * clamp sample - e.dcQ8 < 512) := by
  obtain ⟨hexec, hrange⟩ := exec_eq ops
  refine ⟨_, _, hexec, ?_⟩
  have hsettles : (Mealy.run exact {} ops).Settles sample ↔
      (Mealy.run exact {} ops).error sample < 512 :=
    ⟨error_lt_of_settles hrange, settles_of_error_lt hrange⟩
  rw [hsettles, error]
  cases (Mealy.run exact {} ops).initialized <;> simp

/-- A bias learned at 2000 never gets nearer than fifteen counts to a level of 2100. -/
theorem bias_stays_short :
    ∃ e outputs, Faulting.exec step {} [.encode 2000] = some (e, outputs) ∧
      ¬ e.Settles 2100 ∧ ∀ n, 120 ≤ (e.fed 2100 n).pcm 2100 := by
  obtain ⟨hexec, hrange⟩ := exec_eq [.encode 2000]
  refine ⟨_, _, hexec, ?_, ?_⟩
  · intro hsettles
    have herror := error_lt_of_settles hrange hsettles
    exact absurd herror (by decide)
  · intro n
    exact pcm_fed_ge (by decide) n

end RoomWatchdog.PcmEncoder
