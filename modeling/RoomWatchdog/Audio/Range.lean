import Mathlib.Data.List.Induction
import RoomWatchdog.Audio.PcmEncoder

namespace RoomWatchdog.PcmEncoder

def note (seen : List Int) : Op → List Int
  | .encode sample => seen ++ [clamp sample]
  | .reset => []

/-- The clamped samples since the last reset. -/
def seen (ops : List Op) : List Int := ops.foldl note []

/-- The estimate keeps between any bounds of the samples since the last reset. -/
structure Hull (e : PcmEncoder) (seen : List Int) : Prop where
  initialized : e.initialized = true ↔ seen ≠ []
  between : seen ≠ [] → ∀ lo hi, (∀ x ∈ seen, lo ≤ x ∧ x ≤ hi) →
    256 * lo ≤ e.dcQ8 ∧ e.dcQ8 ≤ 256 * hi

variable {e : PcmEncoder} {xs : List Int}

theorem Hull.step (h : Hull e xs) (op : Op) : Hull (exact e op).1 (note xs op) := by
  cases op with
  | reset =>
    refine ⟨by simp [exact, PcmEncoder.reset, note], ?_⟩
    intro hne
    exact absurd rfl hne
  | encode sample =>
    refine ⟨by simp [exact, note], ?_⟩
    intro _ lo hi hbounds
    have hnew := hbounds (clamp sample) (List.mem_append_right _ (List.mem_singleton_self _))
    obtain ⟨hfirst, hlater⟩ := track_between e sample
    change 256 * lo ≤ (e.track sample).dcQ8 ∧ (e.track sample).dcQ8 ≤ 256 * hi
    cases hinit : e.initialized with
    | false =>
      have hdc := hfirst hinit
      omega
    | true =>
      have hdc := hlater hinit
      have hold := h.between (h.initialized.mp hinit) lo hi
        fun x hx => hbounds x (List.mem_append_left _ hx)
      omega

theorem hull_run (ops : List Op) : Hull (Mealy.run exact {} ops) (seen ops) := by
  induction ops using List.reverseRecOn with
  | nil =>
    refine ⟨by simp [seen], ?_⟩
    intro hne
    exact absurd rfl hne
  | append_singleton ops op ih =>
    rw [Mealy.run_append, seen, List.foldl_append]
    exact ih.step op

theorem pcm_mono {s t : UInt16} (h : s ≤ t) : e.pcm s ≤ e.pcm t := by
  have herror : e.error s ≤ e.error t := by
    have hclamp := clamp_mono h
    simp only [error]
    split_ifs <;> omega
  have hleak := LeakyFilter.leak_mono (k := 4096) (by decide) herror
  simp only [pcm]
  omega

/-- No history overflows. The estimate lies between the smallest and the largest sample
since the last reset, each output is the scaled floor of the sample less the new estimate,
fits 16 bits, and does not fall when the sample rises. -/
theorem pcm_range (ops : List Op) :
    ∃ e outputs, Faulting.exec PcmEncoder.step {} ops = some (e, outputs) ∧
      (∀ lo hi, (seen ops).min? = some lo → (seen ops).max? = some hi →
        256 * lo ≤ e.dcQ8 ∧ e.dcQ8 ≤ 256 * hi) ∧
      ∀ sample, ∃ next value, e.encode sample = some (next, value) ∧
        value.toInt = 8 * ((256 * clamp sample - next.dcQ8) / 256) ∧
        -32760 ≤ value.toInt ∧ value.toInt ≤ 32760 ∧
        ∀ larger, sample ≤ larger → ∃ next' value', e.encode larger = some (next', value') ∧
          value.toInt ≤ value'.toInt := by
  obtain ⟨hexec, hrange⟩ := exec_eq ops
  refine ⟨_, _, hexec, ?_, ?_⟩
  · intro lo hi hlo hhi
    obtain ⟨hmem, hmin⟩ := List.min?_eq_some_iff.mp hlo
    obtain ⟨-, hmax⟩ := List.max?_eq_some_iff.mp hhi
    apply (hull_run ops).between (List.ne_nil_of_mem hmem)
    intro x hx
    exact ⟨hmin x hx, hmax x hx⟩
  · intro sample
    refine ⟨_, _, encode_eq hrange sample, ?_, ?_⟩
    · rw [toInt_pcm hrange, track_dcQ8, Int.sub_sub_self]
      rfl
    · rw [toInt_pcm hrange]
      obtain ⟨hlow, hhigh⟩ := pcm_bounds hrange sample
      refine ⟨hlow, hhigh, ?_⟩
      intro larger hle
      refine ⟨_, _, encode_eq hrange larger, ?_⟩
      rw [toInt_pcm hrange]
      exact pcm_mono hle

end RoomWatchdog.PcmEncoder
