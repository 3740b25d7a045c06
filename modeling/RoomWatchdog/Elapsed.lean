import Mathlib.Data.List.Induction
import RoomWatchdog.Detectors
import RoomWatchdog.Net.Backoff

/-! The two decisions whose timestamp nothing refreshes while nothing happens. -/

namespace RoomWatchdog
open WrapClock (read)

/-- A sound detector whose notifications were confirmed at the given true times. -/
def SoundDetector.confirmed (ppThreshold : Int) (cooldownMs : UInt32) (times : List Nat) :
    SoundDetector :=
  times.foldl (fun d time => d.notificationSent (read time)) { ppThreshold, cooldownMs }

namespace Elapsed

/-- What shouldNotify answers on a clock that never wraps. -/
def SoundDue (ppThreshold : Int) (cooldownMs : UInt32) (times : List Nat) (peakToPeak : Int)
    (now : Nat) : Prop :=
  ppThreshold ≤ peakToPeak ∧ ∀ last ∈ times.getLast?, cooldownMs.toNat ≤ now - last

/-- What pushBackingOff answers on a clock that never wraps. -/
def BackingOff (backoffMs : UInt32) (attempts : List Net.Attempt) (now : Nat) : Prop :=
  ∃ last ∈ attempts.getLast?, last.ok = false ∧ now - last.time < backoffMs.toNat

variable {ppThreshold : Int} {cooldownMs backoffMs : UInt32} {times : List Nat}
  {attempts : List Net.Attempt} {peakToPeak : Int} {now : Nat}

theorem confirmed_append (times : List Nat) (last : Nat) :
    SoundDetector.confirmed ppThreshold cooldownMs (times ++ [last]) =
      (SoundDetector.confirmed ppThreshold cooldownMs times).notificationSent (read last) :=
  List.foldl_append

theorem confirmed_ppThreshold (times : List Nat) :
    (SoundDetector.confirmed ppThreshold cooldownMs times).ppThreshold = ppThreshold ∧
    (SoundDetector.confirmed ppThreshold cooldownMs times).cooldownMs = cooldownMs := by
  induction times using List.reverseRecOn with
  | nil => exact ⟨rfl, rfl⟩
  | append_singleton times last ih =>
    rw [confirmed_append]
    exact ih

/-- The detector's answer, in the elapsed time as the 32-bit clock shows it. -/
theorem shouldNotify_iff :
    (SoundDetector.confirmed ppThreshold cooldownMs times).shouldNotify peakToPeak (read now) = true ↔
      ppThreshold ≤ peakToPeak ∧ ∀ last ∈ times.getLast?, cooldownMs ≤ read now - read last := by
  obtain ⟨hthreshold, hcooldown⟩ := @confirmed_ppThreshold ppThreshold cooldownMs times
  rw [SoundDetector.shouldNotify_iff, hthreshold, hcooldown]
  apply and_congr_right
  intro _
  cases times using List.reverseRecOn with
  | nil => simp [SoundDetector.confirmed]
  | append_singleton times last =>
    rw [confirmed_append, List.getLast?_concat]
    simp [SoundDetector.notificationSent]

theorem pushBackingOff_iff :
    Net.pushBackingOff backoffMs (Net.pushHealth attempts) (read now) = true ↔
      ∃ last ∈ attempts.getLast?, last.ok = false ∧ ¬ backoffMs ≤ read now - read last.time := by
  rw [Net.pushBackingOff_iff]
  cases attempts using List.reverseRecOn with
  | nil => simp [Net.pushHealth]
  | append_singleton attempts last =>
    obtain ⟨hfailure, htime⟩ := Net.pushHealth_append attempts last
    rw [hfailure, List.getLast?_concat]
    cases hok : last.ok with
    | true => simp [hok]
    | false => simp [hok, htime hok]

theorem last_le {α : Type*} {time : α → Nat} {l : List α} (h : ∀ a ∈ l, time a ≤ now) :
    ∀ last ∈ l.getLast?, time last ≤ now := by
  intro last hlast
  exact h last (List.mem_of_getLast? hlast)

/-- In every run and at every later moment, each decision is that of an unbounded clock
except when 2^32 ms or more have brought the 32-bit difference below the interval again. -/
theorem decisions_agree_iff (ppThreshold : Int) (cooldownMs backoffMs : UInt32)
    (times : List Nat) (attempts : List Net.Attempt) (peakToPeak : Int) (now : Nat)
    (htimes : ∀ time ∈ times, time ≤ now) (hattempts : ∀ a ∈ attempts, a.time ≤ now) :
    (((SoundDetector.confirmed ppThreshold cooldownMs times).shouldNotify peakToPeak (read now) =
        true ↔ SoundDue ppThreshold cooldownMs times peakToPeak now) ↔
      ¬ (ppThreshold ≤ peakToPeak ∧ ∃ last ∈ times.getLast?,
        cooldownMs.toNat ≤ now - last ∧ (now - last) % 2 ^ 32 < cooldownMs.toNat)) ∧
    ((Net.pushBackingOff backoffMs (Net.pushHealth attempts) (read now) = true ↔
        BackingOff backoffMs attempts now) ↔
      ¬ ∃ last ∈ attempts.getLast?, last.ok = false ∧
        backoffMs.toNat ≤ now - last.time ∧ (now - last.time) % 2 ^ 32 < backoffMs.toNat) := by
  constructor
  · have hlast := last_le htimes
    rw [shouldNotify_iff, SoundDue]
    cases hcase : times.getLast? with
    | none => simp
    | some last =>
      have hexact := @WrapClock.elapsed_exact_iff last now cooldownMs (hlast last hcase)
      by_cases hloud : ppThreshold ≤ peakToPeak
      · simpa [hloud] using hexact
      · simp [hloud]
  · have hlast := last_le hattempts
    rw [pushBackingOff_iff, BackingOff]
    cases hcase : attempts.getLast? with
    | none => simp
    | some last =>
      have hexact := @WrapClock.elapsed_exact_iff last.time now backoffMs (hlast last hcase)
      cases hok : last.ok with
      | true => simp [hok]
      | false =>
        have hnot : (¬ backoffMs ≤ read now - read last.time ↔ now - last.time < backoffMs.toNat) ↔
            (backoffMs ≤ read now - read last.time ↔ backoffMs.toNat ≤ now - last.time) := by
          rw [← Nat.not_le]
          exact not_iff_not
        simpa [hok] using hnot.trans hexact

/-- A push that found no network. -/
def offline (time : Nat) : Net.Attempt := ⟨false, false, 0, time⟩

theorem decisions_agree_in_the_evening :
    (SoundDetector.confirmed Config.soundPpThreshold Config.soundNotifyCooldownMs
        [1000, 20000]).shouldNotify 3000 (read 40000) = true ∧
    Net.pushBackingOff Config.gotifyRetryBackoffMs (Net.pushHealth [offline 15000])
      (read 40000) = true := by
  obtain ⟨hsound, hpush⟩ := decisions_agree_iff Config.soundPpThreshold
    Config.soundNotifyCooldownMs Config.gotifyRetryBackoffMs [1000, 20000] [offline 15000] 3000
    40000 (by decide) (by decide)
  constructor
  · apply (hsound.mpr ?_).mpr
    · refine ⟨by decide, ?_⟩
      intro last hlast
      obtain rfl := Option.some.inj hlast
      decide
    · rintro ⟨-, last, hlast, -, hwrapped⟩
      obtain rfl := Option.some.inj hlast
      exact absurd hwrapped (by decide)
  · apply (hpush.mpr ?_).mpr
    · exact ⟨offline 15000, rfl, rfl, by decide⟩
    · rintro ⟨last, hlast, -, hlong, -⟩
      obtain rfl := Option.some.inj hlast
      exact absurd hlong (by decide)

/-- Ten milliseconds after a full turn of the counter both decisions are wrong. -/
theorem decisions_wrong_after_a_turn :
    (SoundDetector.confirmed Config.soundPpThreshold Config.soundNotifyCooldownMs
        [0]).shouldNotify 3000 (read (2 ^ 32 + 10)) = false ∧
    SoundDue Config.soundPpThreshold Config.soundNotifyCooldownMs [0] 3000 (2 ^ 32 + 10) ∧
    Net.pushBackingOff Config.gotifyRetryBackoffMs (Net.pushHealth [offline 0])
      (read (2 ^ 32 + 10)) = true ∧
    ¬ BackingOff Config.gotifyRetryBackoffMs [offline 0] (2 ^ 32 + 10) := by
  refine ⟨by decide, ⟨by decide, ?_⟩, by decide, ?_⟩
  · intro last hlast
    obtain rfl := Option.some.inj hlast
    decide
  · rintro ⟨last, hlast, -, hshort⟩
    obtain rfl := Option.some.inj hlast
    exact absurd hshort (by decide)

end Elapsed

end RoomWatchdog
