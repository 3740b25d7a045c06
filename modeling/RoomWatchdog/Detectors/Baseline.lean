import Mathlib.Data.Int.Basic
import RoomWatchdog.Detectors
import RoomWatchdog.Library.Mealy

namespace RoomWatchdog.DistanceTracker

inductive Call where
  | onDistance (distanceCm : UInt16) (nowMs : UInt32)
  | notificationSent (distanceCm : UInt16) (nowMs : UInt32)
  | reset
  deriving DecidableEq

def call (t : DistanceTracker) : Call → DistanceTracker × Option Bool
  | .onDistance distanceCm nowMs =>
    let (t, update) := t.onDistance distanceCm nowMs
    (t, some update)
  | .notificationSent distanceCm nowMs => (t.notificationSent distanceCm nowMs, none)
  | .reset => (t.reset, none)

/-- What a list of distance readings with their times leaves behind. -/
def feed (t : DistanceTracker) (readings : List (UInt16 × UInt32)) : DistanceTracker :=
  Mealy.run call t (readings.map fun (distanceCm, nowMs) => .onDistance distanceCm nowMs)

/-- After the confirmation of `d` at `sentMs`, and whatever readings follow, an update is due
exactly far enough from `d` and late enough after `sentMs`. -/
def ConfirmedIsBaseline (t : DistanceTracker) (d : UInt16) (sentMs : UInt32) : Prop :=
  ∀ readings x nowMs,
    (((t.notificationSent d sentMs).feed readings).onDistance x nowMs).2 = true ↔
      0 < x ∧ t.deltaCm.toNat ≤ ((x.toNat : Int) - d.toNat).natAbs ∧
        t.minIntervalMs ≤ nowMs - sentMs

variable {t : DistanceTracker} {d x y : UInt16} {sentMs nowMs : UInt32}

theorem gap_natAbs (a b : UInt16) : (gap a b).toNat = ((a.toNat : Int) - b.toNat).natAbs := by
  rw [gap_toNat]
  omega

theorem le_gap_iff : t.deltaCm ≤ gap x d ↔
    t.deltaCm.toNat ≤ ((x.toNat : Int) - d.toNat).natAbs := by
  rw [UInt16.le_iff_toNat_le, gap_natAbs]

/-- A tracker with a baseline answers by it and keeps it. -/
theorem onDistance_of_baseline (h : t.hasBaseline = true) (x : UInt16) (nowMs : UInt32) :
    t.onDistance x nowMs =
      (t, decide (0 < x ∧ t.deltaCm ≤ gap x t.baselineCm ∧
        t.minIntervalMs ≤ nowMs - t.lastEventMs)) := by
  by_cases hx : x = 0
  · rw [hx, onDistance_zero]
    simp
  · rw [onDistance_later hx h]
    simp [UInt16.pos_iff_ne_zero, hx]

theorem feed_cons (x : UInt16) (nowMs : UInt32) (readings : List (UInt16 × UInt32)) :
    t.feed ((x, nowMs) :: readings) = (t.onDistance x nowMs).1.feed readings := rfl

theorem feed_of_baseline (h : t.hasBaseline = true) (readings : List (UInt16 × UInt32)) :
    t.feed readings = t := by
  induction readings with
  | nil => rfl
  | cons reading readings ih => rw [feed_cons, onDistance_of_baseline h, ih]

theorem confirmed_of_baseline (h : t.hasBaseline = true) (d : UInt16) (sentMs : UInt32) :
    t.ConfirmedIsBaseline d sentMs := by
  intro readings x nowMs
  have hsent : (t.notificationSent d sentMs).hasBaseline = true := h
  rw [feed_of_baseline hsent, onDistance_of_baseline hsent, ← le_gap_iff]
  exact decide_eq_true_iff

theorem not_far (hx : 0 < x) (hd : 0 < d) :
    ¬ 65535 ≤ ((x.toNat : Int) - d.toNat).natAbs := by
  have hx' : 0 < x.toNat := UInt16.lt_iff_toNat_lt.mp hx
  have hd' : 0 < d.toNat := UInt16.lt_iff_toNat_lt.mp hd
  have hxmax := x.toNat_lt
  have hdmax := d.toNat_lt
  omega

/-- With a delta that no two distances reach nothing is ever due. -/
theorem feed_quiet (hdelta : t.deltaCm = 65535) (hbase : 0 < t.baselineCm)
    (readings : List (UInt16 × UInt32)) :
    ((t.feed readings).onDistance x nowMs).2 = false := by
  induction readings generalizing t with
  | nil =>
    change (t.onDistance x nowMs).2 = false
    cases hhas : t.hasBaseline with
    | true =>
      rw [onDistance_of_baseline hhas, decide_eq_false_iff_not]
      rintro ⟨hx, hle, -⟩
      rw [le_gap_iff, hdelta] at hle
      exact not_far hx hbase hle
    | false =>
      by_cases hx : x = 0
      · rw [hx, onDistance_zero]
      · rw [onDistance_first hx hhas]
  | cons reading readings ih =>
    obtain ⟨y, atMs⟩ := reading
    rw [feed_cons]
    cases hhas : t.hasBaseline with
    | true =>
      rw [onDistance_of_baseline hhas]
      exact ih hdelta hbase
    | false =>
      by_cases hy : y = 0
      · rw [hy, onDistance_zero]
        exact ih hdelta hbase
      · rw [onDistance_first hy hhas]
        exact ih hdelta (UInt16.pos_iff_ne_zero.mpr hy)

theorem confirmed_of_delta_max (hdelta : t.deltaCm = 65535) (hd : 0 < d) (sentMs : UInt32) :
    t.ConfirmedIsBaseline d sentMs := by
  intro readings x nowMs
  have hquiet : (((t.notificationSent d sentMs).feed readings).onDistance x nowMs).2 = false :=
    @feed_quiet (t.notificationSent d sentMs) x nowMs hdelta hd readings
  rw [hquiet, hdelta]
  constructor
  · intro h
    cases h
  · rintro ⟨hx, hle, -⟩
    exact absurd hle (not_far hx hd)

/-- Without a baseline the next reading replaces the confirmed distance. -/
theorem not_confirmed (hhas : t.hasBaseline = false) (hdelta : t.deltaCm ≠ 65535)
    (d : UInt16) (sentMs : UInt32) : ¬ t.ConfirmedIsBaseline d sentMs := by
  intro hlaw
  have hfirst : (t.notificationSent d sentMs).hasBaseline = false := hhas
  have hwait : ∀ startMs : UInt32, t.minIntervalMs ≤ startMs + t.minIntervalMs - startMs := by
    intro startMs
    rw [UInt32.add_comm, UInt32.add_sub_cancel]
    exact UInt32.le_refl _
  by_cases hfar : ∃ x : UInt16, 0 < x ∧ t.deltaCm.toNat ≤ ((x.toNat : Int) - d.toNat).natAbs
  · -- the reading that is far enough is the one that is swallowed
    obtain ⟨x, hx, hle⟩ := hfar
    have hdue := (hlaw [] x (sentMs + t.minIntervalMs)).mpr ⟨hx, hle, hwait sentMs⟩
    change ((t.notificationSent d sentMs).onDistance x _).2 = true at hdue
    rw [onDistance_first (UInt16.pos_iff_ne_zero.mp hx) hfirst] at hdue
    cases hdue
  · -- two readings can be farther apart than any reading is from `d`
    have hdue : (((t.notificationSent d sentMs).feed [(1, 0)]).onDistance 65535
        (0 + t.minIntervalMs)).2 = true := by
      rw [feed_cons, onDistance_first (by decide) hfirst]
      rw [onDistance_of_baseline rfl]
      apply decide_eq_true
      refine ⟨by decide, ?_, hwait 0⟩
      have hmax := t.deltaCm.toNat_lt
      have hne : t.deltaCm.toNat ≠ 65535 := fun h => hdelta (UInt16.toNat_inj.mp h)
      rw [le_gap_iff]
      change t.deltaCm.toNat ≤ 65534
      omega
    obtain ⟨hpos, hle, -⟩ := (hlaw [(1, 0)] 65535 (0 + t.minIntervalMs)).mp hdue
    exact hfar ⟨65535, hpos, hle⟩

/-- In every reachable state, confirming a distance makes it the baseline exactly when the
tracker already has one, or its delta is so large that no update can ever be due. -/
theorem confirmed_is_baseline_iff (deltaCm : UInt16) (minIntervalMs : UInt32) (calls : List Call)
    (d : UInt16) (sentMs : UInt32) (hd : 0 < d) :
    let t := Mealy.run call { deltaCm, minIntervalMs } calls
    t.ConfirmedIsBaseline d sentMs ↔ t.hasBaseline = true ∨ t.deltaCm = 65535 := by
  intro t
  constructor
  · intro hlaw
    by_contra hneither
    obtain ⟨hhas, hdelta⟩ := not_or.mp hneither
    exact not_confirmed (Bool.eq_false_iff.mpr hhas) hdelta d sentMs hlaw
  · rintro (hhas | hdelta)
    · exact confirmed_of_baseline hhas d sentMs
    · exact confirmed_of_delta_max hdelta hd sentMs

/-- A presence is reported at 150cm before the first reading; the move to 400cm, thirty
seconds later, becomes a silent baseline instead of an update. -/
theorem confirmed_distance_overwritten :
    let t := Mealy.run call { deltaCm := 100, minIntervalMs := 10000 } []
    ((t.notificationSent 150 0).onDistance 400 30000).2 = false ∧
    ¬ t.ConfirmedIsBaseline 150 0 := by
  intro t
  exact ⟨rfl, not_confirmed rfl (by decide) 150 0⟩

theorem confirmed_is_baseline_after_reading :
    (Mealy.run call { deltaCm := 100, minIntervalMs := 10000 }
      [.onDistance 150 0]).ConfirmedIsBaseline 300 20000 :=
  (confirmed_is_baseline_iff 100 10000 [.onDistance 150 0] 300 20000 (by decide)).mpr (Or.inl rfl)

end RoomWatchdog.DistanceTracker
