import Mathlib.Data.List.Chain
import Mathlib.Data.List.DropRight
import Mathlib.Data.List.ReduceOption
import RoomWatchdog.Library.Mealy
import RoomWatchdog.Library.WrapClock
import RoomWatchdog.Notifications

namespace RoomWatchdog.Notifications
open Ld2412 (Report)

/-- One call of notifyPresenceChanges: the reading, the true time at which onSample read the
clock, the published report and the second clock reading. -/
structure PresenceCall where
  present : Bool
  time : Nat
  report : Report := {}
  confirmMs : UInt32 := 0
  deriving DecidableEq

variable (metres : UInt16 → String)

def presenceCall (d : Detectors) (c : PresenceCall) : Detectors × Option Emission :=
  notifyPresenceChanges metres d c.present c.report (WrapClock.read c.time) c.confirmMs

/-- The state named by the last alert, absent before the first one. -/
def lastAlerted (emitted : List (Option Emission)) : Bool :=
  (emitted.reduceOption.getLast?.map fun e => decide (e.type = .presence)).getD false

/-- The maximal block of equal readings that ends with `c`. -/
def blockOf (past : List PresenceCall) (c : PresenceCall) : List PresenceCall :=
  past.rtakeWhile (fun p => p.present == c.present) ++ [c]

def blockStart (past : List PresenceCall) (c : PresenceCall) : PresenceCall :=
  (blockOf past c).head?.getD c

/-- Times never go backwards, and consecutive samples are closer than one turn of the
millisecond counter less the debounce time. -/
def Clocked (debounceMs : UInt32) (calls : List PresenceCall) : Prop :=
  calls.IsChain fun a b => a.time ≤ b.time ∧ b.time - a.time < 2 ^ 32 - debounceMs.toNat

instance (debounceMs : UInt32) (calls : List PresenceCall) : Decidable (Clocked debounceMs calls) :=
  inferInstanceAs (Decidable (List.IsChain _ _))

/-- A reading that differs from the last alerted state and has held for the debounce time. -/
def Due (debounceMs : UInt32) (past : List PresenceCall) (emitted : List (Option Emission))
    (c : PresenceCall) : Prop :=
  c.present ≠ lastAlerted emitted ∧ debounceMs.toNat ≤ c.time - (blockStart past c).time

instance (debounceMs : UInt32) (past : List PresenceCall) (emitted : List (Option Emission))
    (c : PresenceCall) : Decidable (Due debounceMs past emitted c) :=
  inferInstanceAs (Decidable (_ ∧ _))

def alertFor (c : PresenceCall) : Emission :=
  if c.present then alert .presence (personDetectedMessage metres c.report)
  else alert .cleared "Presence cleared"

theorem lastAlerted_none (emitted : List (Option Emission)) :
    lastAlerted (emitted ++ [none]) = lastAlerted emitted := by
  simp [lastAlerted, List.reduceOption_append]

theorem lastAlerted_alertFor (emitted : List (Option Emission)) (c : PresenceCall) :
    lastAlerted (emitted ++ [some (alertFor metres c)]) = c.present := by
  cases h : c.present <;> simp [lastAlerted, List.reduceOption_append, alertFor, alert, h]

theorem blockStart_nil (c : PresenceCall) : blockStart [] c = c := rfl

/-- A change of reading starts a new block. -/
theorem blockStart_change (past : List PresenceCall) {p c : PresenceCall}
    (h : p.present ≠ c.present) : blockStart (past ++ [p]) c = c := by
  simp [blockStart, blockOf, List.rtakeWhile_concat_neg, h]

/-- An equal reading continues the block. -/
theorem blockStart_same (past : List PresenceCall) {p c : PresenceCall}
    (h : p.present = c.present) : blockStart (past ++ [p]) c = blockStart past p := by
  have hblock : blockOf (past ++ [p]) c = blockOf past p ++ [c] := by
    simp [blockOf, List.rtakeWhile_concat_pos, h]
  rw [blockStart, hblock, blockStart, blockOf]
  cases past.rtakeWhile fun x => x.present == p.present <;> rfl

/-! The detector's fields are a summary of the whole history of readings. -/

/-- What the monitor holds after `past`, during which `emitted` was handed out. -/
structure Tracks (debounceMs : UInt32) (past : List PresenceCall)
    (emitted : List (Option Emission)) (m : PresenceMonitor) : Prop where
  debounce : m.debounceMs = debounceMs
  notified : m.notified = lastAlerted emitted
  candidate : m.candidate = (past.getLast?.map PresenceCall.present).getD false
  idle : past = [] → m.candidate = m.notified
  since : ∀ before last, past = before ++ [last] → m.candidate ≠ m.notified →
    m.candidateSinceMs = WrapClock.read (blockStart before last).time ∧
    (blockStart before last).time ≤ last.time ∧
    last.time - (blockStart before last).time < debounceMs.toNat

theorem tracks_boot (t : Tuning) : Tracks t.debounceMs [] [] (Detectors.boot t).presenceMonitor where
  debounce := rfl
  notified := rfl
  candidate := rfl
  idle := fun _ => rfl
  since := by
    intro before last h
    simp at h

section step
variable {debounceMs : UInt32} {past : List PresenceCall}
  {emitted : List (Option Emission)} {d : Detectors} {c : PresenceCall}

/-- A change of reading only restarts the debounce. -/
theorem tracks_edge (h : Tracks debounceMs past emitted d.presenceMonitor) (hpos : 0 < debounceMs)
    (hedge : c.present ≠ d.presenceMonitor.candidate) :
    presenceCall metres d c =
      ({ d with presenceMonitor := { d.presenceMonitor with
          candidate := c.present, candidateSinceMs := WrapClock.read c.time } }, none) ∧
    ¬ Due debounceMs past emitted c ∧
    Tracks debounceMs (past ++ [c]) (emitted ++ [none])
      { d.presenceMonitor with candidate := c.present, candidateSinceMs := WrapClock.read c.time } := by
  have hnat : 0 < debounceMs.toNat := UInt32.lt_iff_toNat_lt.mp hpos
  have hstart : blockStart past c = c := by
    rcases List.eq_nil_or_concat' past with rfl | ⟨before, last, rfl⟩
    · exact blockStart_nil c
    · apply blockStart_change
      intro hsame
      apply hedge
      simp [h.candidate, hsame]
  refine ⟨?_, ?_, ?_⟩
  · exact notifyPresenceChanges_none (PresenceMonitor.onSample_edge hedge)
  · intro hdue
    have := hdue.2
    rw [hstart] at this
    omega
  · refine ⟨h.debounce, ?_, by simp, by simp, ?_⟩
    · rw [lastAlerted_none]
      exact h.notified
    · intro before last hsplit _
      obtain ⟨rfl, hlast⟩ := List.append_inj' hsplit rfl
      obtain rfl : c = last := by simpa using hlast
      rw [hstart]
      exact ⟨rfl, Nat.le_refl _, by omega⟩

/-- A repeated reading is alerted exactly when it is due. -/
theorem tracks_hold (h : Tracks debounceMs past emitted d.presenceMonitor)
    (hclock : Clocked debounceMs (past ++ [c])) (hhold : c.present = d.presenceMonitor.candidate)
    (hne : d.presenceMonitor.candidate ≠ d.presenceMonitor.notified) :
    ∃ before last, past = before ++ [last] ∧ blockStart past c = blockStart before last ∧
      (blockStart past c).time ≤ c.time ∧
      (d.presenceMonitor.debounceMs ≤
        WrapClock.read c.time - d.presenceMonitor.candidateSinceMs ↔
        debounceMs.toNat ≤ c.time - (blockStart past c).time) := by
  rcases List.eq_nil_or_concat' past with hnil | ⟨before, last, hsplit⟩
  · exact absurd (h.idle hnil) hne
  · obtain ⟨hsince, hle, hlt⟩ := h.since before last hsplit hne
    have hsame : last.present = c.present := by simp [hhold, h.candidate, hsplit]
    have hstart : blockStart past c = blockStart before last := by
      rw [hsplit, blockStart_same before hsame]
    have hgap : last.time ≤ c.time ∧ c.time - last.time < 2 ^ 32 - debounceMs.toNat := by
      have hchain := hclock
      rw [hsplit, List.append_assoc] at hchain
      exact (List.isChain_append_cons_cons.mp hchain).2.1
    rw [h.debounce, hsince, hstart]
    exact ⟨before, last, hsplit, rfl, by omega, WrapClock.elapsed_iff (by omega) (by omega)⟩

theorem presenceCall_due (hhold : c.present = d.presenceMonitor.candidate)
    (hne : d.presenceMonitor.candidate ≠ d.presenceMonitor.notified)
    (hdue : d.presenceMonitor.debounceMs ≤
      WrapClock.read c.time - d.presenceMonitor.candidateSinceMs) :
    (presenceCall metres d c).2 = some (alertFor metres c) ∧
    (presenceCall metres d c).1.presenceMonitor = d.presenceMonitor.notificationSent := by
  have hevent := PresenceMonitor.onSample_due hhold hne hdue
  unfold presenceCall alertFor
  cases hpresent : c.present with
  | true =>
    rw [hpresent] at hevent
    rw [notifyPresenceChanges_detected hevent]
    exact ⟨rfl, rfl⟩
  | false =>
    rw [hpresent] at hevent
    rw [notifyPresenceChanges_cleared hevent]
    exact ⟨rfl, rfl⟩

theorem presenceCall_quiet (hhold : c.present = d.presenceMonitor.candidate)
    (hquiet : ¬ (d.presenceMonitor.candidate ≠ d.presenceMonitor.notified ∧
      d.presenceMonitor.debounceMs ≤
        WrapClock.read c.time - d.presenceMonitor.candidateSinceMs)) :
    (presenceCall metres d c).2 = none ∧
    (presenceCall metres d c).1.presenceMonitor = d.presenceMonitor := by
  rw [presenceCall, notifyPresenceChanges_none (PresenceMonitor.onSample_quiet hhold hquiet)]
  exact ⟨rfl, rfl⟩

/-- The same reading again, with nothing handed out. -/
theorem Tracks.again {m : PresenceMonitor} (h : Tracks debounceMs past emitted m)
    (hhold : c.present = m.candidate)
    (hsince : m.candidate ≠ m.notified →
      m.candidateSinceMs = WrapClock.read (blockStart past c).time ∧
      (blockStart past c).time ≤ c.time ∧
      c.time - (blockStart past c).time < debounceMs.toNat) :
    Tracks debounceMs (past ++ [c]) (emitted ++ [none]) m := by
  refine ⟨h.debounce, ?_, by simp [hhold], by simp, ?_⟩
  · rw [lastAlerted_none]
    exact h.notified
  · intro before last hsplit hne
    obtain ⟨rfl, hlast⟩ := List.append_inj' hsplit rfl
    obtain rfl : c = last := by simpa using hlast
    exact hsince hne

/-- The same reading again, with its alert handed out and confirmed. -/
theorem Tracks.alerted {m : PresenceMonitor} (h : Tracks debounceMs past emitted m)
    (hhold : c.present = m.candidate) :
    Tracks debounceMs (past ++ [c]) (emitted ++ [some (alertFor metres c)]) m.notificationSent := by
  refine ⟨h.debounce, ?_, by simp [hhold, PresenceMonitor.notificationSent], by simp, ?_⟩
  · rw [lastAlerted_alertFor]
    exact hhold.symm
  · intro _ _ _ hne
    exact absurd rfl hne

/-- One call alerts exactly when the reading is due, and keeps the summary true. -/
theorem tracks_step (h : Tracks debounceMs past emitted d.presenceMonitor) (hpos : 0 < debounceMs)
    (hclock : Clocked debounceMs (past ++ [c])) :
    (presenceCall metres d c).2 =
      (if Due debounceMs past emitted c then some (alertFor metres c) else none) ∧
    Tracks debounceMs (past ++ [c]) (emitted ++ [(presenceCall metres d c).2])
      (presenceCall metres d c).1.presenceMonitor := by
  by_cases hhold : c.present = d.presenceMonitor.candidate
  · by_cases hne : d.presenceMonitor.candidate = d.presenceMonitor.notified
    · -- back at the state already alerted
      obtain ⟨hout, hmon⟩ := presenceCall_quiet metres hhold (fun hquiet => hquiet.1 hne)
      have hnot : ¬ Due debounceMs past emitted c := by
        intro hdue
        apply hdue.1
        rw [hhold, hne, h.notified]
      rw [hout, hmon, if_neg hnot]
      refine ⟨rfl, h.again hhold ?_⟩
      intro hchanged
      exact absurd hne hchanged
    · obtain ⟨before, last, hpast, hstart, hle, hiff⟩ := tracks_hold h hclock hhold hne
      have hdiffers : c.present ≠ lastAlerted emitted := by
        rw [hhold, ← h.notified]
        exact hne
      by_cases htime : debounceMs.toNat ≤ c.time - (blockStart past c).time
      · obtain ⟨hout, hmon⟩ := presenceCall_due metres hhold hne (hiff.mpr htime)
        rw [hout, hmon, if_pos ⟨hdiffers, htime⟩]
        exact ⟨rfl, h.alerted metres hhold⟩
      · obtain ⟨hout, hmon⟩ := presenceCall_quiet metres hhold
          (fun hquiet => htime (hiff.mp hquiet.2))
        have hnot : ¬ Due debounceMs past emitted c := by
          intro hdue
          exact htime hdue.2
        rw [hout, hmon, if_neg hnot]
        refine ⟨rfl, h.again hhold ?_⟩
        intro _
        have hsince := (h.since before last hpast hne).1
        rw [← hstart] at hsince
        exact ⟨hsince, hle, Nat.lt_of_not_le htime⟩
  · obtain ⟨hcall, hnot, htracks⟩ := tracks_edge metres h hpos hhold
    rw [hcall, if_neg hnot]
    exact ⟨rfl, htracks⟩

end step

theorem tracks_run (t : Tuning) (hpos : 0 < t.debounceMs) (calls : List PresenceCall)
    (hclock : Clocked t.debounceMs calls) :
    Tracks t.debounceMs calls (Mealy.outputs (presenceCall metres) (.boot t) calls)
      (Mealy.run (presenceCall metres) (.boot t) calls).presenceMonitor := by
  induction calls using List.reverseRecOn with
  | nil => exact tracks_boot t
  | append_singleton past c ih =>
    have hpast := ih (List.IsChain.left_of_append hclock)
    rw [Mealy.outputs_append, Mealy.run_append]
    exact (tracks_step metres hpast hpos hclock).2

/-- Exact debounce over whole runs: call `i` alerts if and only if its reading differs from
the last alerted state and its block of equal readings has lasted the debounce time, with
the alert named after the reading; the notified state is always the last alerted one. -/
theorem alert_iff_held (t : Tuning) (hpos : 0 < t.debounceMs) (calls : List PresenceCall)
    (hclock : Clocked t.debounceMs calls) (i : Fin calls.length) :
    let emitted := Mealy.outputs (presenceCall metres) (.boot t) calls
    emitted[i.val]? = some
      (if calls[i].present ≠ lastAlerted (emitted.take i) ∧
          t.debounceMs.toNat ≤ calls[i].time - (blockStart (calls.take i) calls[i]).time
        then some (alertFor metres calls[i]) else none) ∧
    (Mealy.run (presenceCall metres) (.boot t) (calls.take (i + 1))).presenceMonitor.notifiedState =
      lastAlerted (emitted.take (i + 1)) := by
  intro emitted
  have htake (n : Nat) : emitted.take n =
      Mealy.outputs (presenceCall metres) (.boot t) (calls.take n) := Mealy.outputs_take calls n
  have hsplit : calls.take (i + 1) = calls.take i ++ [calls[i]] :=
    List.take_succ_eq_append_getElem i.isLt
  have hprev := tracks_run metres t hpos (calls.take i) (hclock.take i)
  have hnext := tracks_run metres t hpos (calls.take (i + 1)) (hclock.take (i + 1))
  constructor
  · have hclocked : Clocked t.debounceMs (calls.take i ++ [calls[i]]) :=
      hsplit ▸ hclock.take (i + 1)
    have hstep := (tracks_step metres hprev hpos hclocked).1
    rw [Mealy.outputs_getElem?, List.getElem?_eq_getElem i.isLt, Option.map_some, htake]
    exact congrArg some hstep
  · rw [htake]
    exact hnext.notified

/-- A person arrives 1.5 s before the millisecond counter wraps and stays. -/
def arrivalAtRollover : List PresenceCall :=
  [⟨true, 2 ^ 32 - 1500, {}, 0⟩, ⟨true, 2 ^ 32 + 499, {}, 0⟩, ⟨true, 2 ^ 32 + 500, {}, 0⟩]

/-- The alert comes 2 s after the arrival, on the other side of the rollover. -/
theorem alert_across_rollover :
    (Mealy.outputs (presenceCall fun _ => "") (.boot .config) arrivalAtRollover)[2]? =
      some (some (alertFor (fun _ => "") ⟨true, 2 ^ 32 + 500, {}, 0⟩)) := by
  have h := (alert_iff_held (fun _ => "") .config (by decide) arrivalAtRollover (by decide)
    ⟨2, by decide⟩).1
  rw [if_pos (by decide)] at h
  exact h

end RoomWatchdog.Notifications
