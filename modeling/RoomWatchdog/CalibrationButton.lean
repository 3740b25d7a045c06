import Mathlib.Data.List.Chain
import Mathlib.Data.List.Induction
import RoomWatchdog.Library.Mealy
import RoomWatchdog.Library.WrapClock

namespace RoomWatchdog.CalibrationButton
open WrapClock (read)

inductive Level where
  | high
  | low
  deriving DecidableEq

/-- One call: what digitalRead gives, and the true time at which millis() is read. -/
structure Poll where
  pin : Level
  time : Nat
  deriving DecidableEq

/-- The static pressedSinceMs afterwards, and whether requestCalibration was called. -/
def calibrationButtonPoll (pressedSinceMs : UInt32) (p : Poll) : UInt32 × Bool :=
  if p.pin = .high then (0, false)
  else if pressedSinceMs = 0 then (read p.time, false)
  else if read p.time - pressedSinceMs ≥ 1000 then (0, true)
  else (pressedSinceMs, false)

/-- Polls come in order and less than half a turn of millis() apart. -/
def Clock (polls : List Poll) : Prop :=
  polls.IsChain fun p q => p.time ≤ q.time ∧ q.time - p.time < 2 ^ 31

instance (polls : List Poll) : Decidable (Clock polls) :=
  inferInstanceAs (Decidable (List.IsChain _ _))

/-- `press` is a maximal stretch of low readings between `pre` and `post`. -/
structure Press (pre press post : List Poll) : Prop where
  low : ∀ p ∈ press, p.pin = .low
  released : ∀ p ∈ pre.getLast?, p.pin = .high
  ends : ∀ p ∈ post.head?, p.pin = .high

/-- One request, at the first poll from `due` on. -/
def requestAt (due : Nat) : List Nat → List Bool
  | [] => []
  | t :: ts => if t < due then false :: requestAt due ts else true :: ts.map fun _ => false

/-- What a press is meant to raise, poll by poll. -/
def wanted : List Nat → List Bool
  | [] => []
  | t :: ts => requestAt (t + 1000) (t :: ts)

/-- The first time at which millis() is not zero. -/
def firstShown (ts : List Nat) : Option Nat := ts.find? fun t => read t ≠ 0

/-- The button is let go before a second has passed since millis() was first not zero. -/
def LetGo (ts : List Nat) : Prop := ∀ t ∈ ts, ∀ first ∈ firstShown ts, t < first + 1000

/-- From `due` on: the first poll comes a second after the clock was first seen, and the
button is let go soon after it. -/
def RequestsFrom (due : Nat) (ts : List Nat) (first : Option Nat) : Prop :=
  match ts.dropWhile fun t => t < due with
  | [] => True
  | t :: later => (∃ a ∈ first, a + 1000 ≤ t) ∧ LetGo later

/-- When a press raises what it is meant to. -/
def RequestsOnce (ts : List Nat) : Prop :=
  match ts with
  | [] => True
  | t :: _ => RequestsFrom (t + 1000) ts (firstShown ts)

/-- What the code counts from after it has stored millis() at `t`. -/
def stored (t : Nat) : Option Nat := if read t = 0 then none else some t

/-- The press on a clock that never wraps. -/
def held : Option Nat → List Nat → List Bool
  | _, [] => []
  | none, t :: ts => false :: held (stored t) ts
  | some since, t :: ts =>
    if t < since + 1000 then false :: held (some since) ts else true :: held none ts

/-- How the static variable holds it. -/
def marker : Option Nat → UInt32
  | none => 0
  | some since => read since

variable {t u since due : Nat} {ts : List Nat} {pre press post : List Poll}

@[simp] theorem poll_idle (time : Nat) :
    calibrationButtonPoll 0 ⟨.low, time⟩ = (read time, false) := rfl

/-- Up to half a turn after the last poll, millis() shows what has passed since the press. -/
theorem poll_armed (hshown : read since ≠ 0) (hle : since ≤ t) (hturn : t - since < 2 ^ 32) :
    calibrationButtonPoll (read since) ⟨.low, t⟩ =
      if t < since + 1000 then (read since, false) else (0, true) := by
  have hdue : (1000 : UInt32) ≤ read t - read since ↔ 1000 ≤ t - since :=
    WrapClock.elapsed_iff (d := 1000) hle hturn
  have hlow : Level.low ≠ .high := by decide
  rw [calibrationButtonPoll, if_neg hlow, if_neg hshown]
  by_cases hearly : t < since + 1000
  · rw [if_pos hearly, if_neg]
    intro h
    have := hdue.mp h
    omega
  · rw [if_neg hearly, if_pos]
    apply hdue.mpr
    omega

@[simp] theorem marker_stored (t : Nat) : marker (stored t) = read t := by
  rw [stored]
  split_ifs with hzero
  · exact hzero.symm
  · rfl

theorem mem_stored : since ∈ stored t ↔ read t ≠ 0 ∧ t = since := by
  rw [stored, Option.mem_def, Option.ite_none_left_eq_some, Option.some_inj]

/-- The code counts as if its clock never wrapped. -/
theorem outputs_held {last : Nat} (first : Option Nat)
    (hclock : Clock ((last :: ts).map (Poll.mk .low)))
    (hfirst : ∀ since ∈ first, read since ≠ 0 ∧ since ≤ last ∧ last < since + 1000) :
    Mealy.outputs calibrationButtonPoll (marker first) (ts.map (Poll.mk .low)) =
      held first ts := by
  induction ts generalizing last first with
  | nil => rfl
  | cons t ts ih =>
    rw [List.map_cons, List.map_cons, Clock, List.isChain_cons_cons] at hclock
    obtain ⟨⟨hle, hgap⟩, hclock⟩ := hclock
    rw [← List.map_cons] at hclock
    dsimp only at hle hgap
    rw [List.map_cons, Mealy.outputs_cons]
    cases first with
    | none =>
      have hnext := ih (stored t) hclock ?_
      · rw [marker_stored] at hnext
        rw [marker, poll_idle, held, hnext]
      · intro since hsince
        obtain ⟨hshown, rfl⟩ := mem_stored.mp hsince
        exact ⟨hshown, Nat.le_refl _, by omega⟩
    | some since =>
      obtain ⟨hshown, hpast, hlast⟩ := hfirst since rfl
      rw [marker, poll_armed hshown (by omega) (by omega), held]
      by_cases hearly : t < since + 1000
      · rw [if_pos hearly, if_pos hearly]
        have hnext := ih (some since) hclock ?_
        · rw [marker] at hnext
          rw [hnext]
        · rintro _ ⟨⟩
          exact ⟨hshown, by omega, hearly⟩
      · rw [if_neg hearly, if_neg hearly]
        have hnext := ih none hclock ?_
        · rw [marker] at hnext
          rw [hnext]
        · rintro _ ⟨⟩

theorem firstShown_cons (t : Nat) (ts : List Nat) :
    firstShown (t :: ts) = (stored t).or (firstShown ts) := by
  rw [firstShown, List.find?_cons, stored]
  by_cases hzero : read t = 0
  · simp [hzero, firstShown]
  · simp [hzero]

/-- Counting from `since`, nothing is raised exactly if the button is let go in time. -/
theorem held_quiet_iff (since : Nat) (ts : List Nat) :
    (held (some since) ts = ts.map fun _ => false) ↔ ∀ t ∈ ts, t < since + 1000 := by
  induction ts with
  | nil => simp [held]
  | cons t ts ih =>
    rw [held, List.forall_mem_cons, List.map_cons]
    by_cases hearly : t < since + 1000
    · rw [if_pos hearly, List.cons.injEq, ih]
      simp [hearly]
    · rw [if_neg hearly, List.cons.injEq]
      simp [hearly]

theorem held_none_quiet_iff (hsorted : ts.Pairwise (· ≤ ·)) :
    (held none ts = ts.map fun _ => false) ↔ LetGo ts := by
  induction ts with
  | nil => simp [held, LetGo]
  | cons t ts ih =>
    obtain ⟨hfirst, hsorted⟩ := List.pairwise_cons.mp hsorted
    rw [held, List.map_cons, List.cons.injEq, LetGo, firstShown_cons, List.forall_mem_cons]
    by_cases hzero : read t = 0
    · rw [stored, if_pos hzero, Option.none_or, ih hsorted]
      constructor
      · rintro ⟨-, hquiet⟩
        refine ⟨?_, hquiet⟩
        intro first hshown
        have := hfirst first (List.mem_of_find?_eq_some hshown)
        omega
      · rintro ⟨-, hquiet⟩
        exact ⟨rfl, hquiet⟩
    · rw [stored, if_neg hzero, Option.some_or, held_quiet_iff]
      simp

theorem requestsFrom_early {first : Option Nat} (h : t < due) :
    RequestsFrom due (t :: ts) first ↔ RequestsFrom due ts first := by
  have hdrop : (t :: ts).dropWhile (fun t => t < due) = ts.dropWhile fun t => t < due :=
    List.dropWhile_cons_of_pos (decide_eq_true h)
  rw [RequestsFrom, RequestsFrom, hdrop]

theorem requestsFrom_due {first : Option Nat} (h : ¬ t < due) :
    RequestsFrom due (t :: ts) first ↔ (∃ a ∈ first, a + 1000 ≤ t) ∧ LetGo ts := by
  have hdrop : (t :: ts).dropWhile (fun t => t < due) = t :: ts :=
    List.dropWhile_cons_of_neg (by simpa using h)
  rw [RequestsFrom, hdrop]

/-- Counting from `since`, which is not before the press began. -/
theorem held_eq_iff (hsince : due ≤ since + 1000) (hsorted : ts.Pairwise (· ≤ ·)) :
    held (some since) ts = requestAt due ts ↔ RequestsFrom due ts (some since) := by
  induction ts with
  | nil => simp [held, requestAt, RequestsFrom]
  | cons t ts ih =>
    obtain ⟨-, hsorted⟩ := List.pairwise_cons.mp hsorted
    rw [held, requestAt]
    by_cases hearly : t < due
    · have hbefore : t < since + 1000 := by omega
      rw [if_pos hearly, if_pos hbefore, requestsFrom_early hearly, List.cons.injEq, ih hsorted]
      simp
    · rw [if_neg hearly, requestsFrom_due hearly]
      by_cases hbefore : t < since + 1000
      · rw [if_pos hbefore]
        constructor
        · intro h
          cases (List.cons.inj h).1
        · rintro ⟨⟨_, ⟨⟩, hpast⟩, -⟩
          omega
      · rw [if_neg hbefore, List.cons.injEq, held_none_quiet_iff hsorted]
        simp only [Option.mem_some_iff, true_and, exists_eq_left']
        exact ⟨fun h => ⟨by omega, h⟩, fun h => h.2⟩

/-- A press from `start` on, of which millis() has shown nothing yet. -/
theorem held_none_eq_iff {start : Nat} (hstart : ∀ t ∈ ts, start ≤ t)
    (hsorted : ts.Pairwise (· ≤ ·)) :
    held none ts = requestAt (start + 1000) ts ↔
      RequestsFrom (start + 1000) ts (firstShown ts) := by
  induction ts with
  | nil => simp [held, requestAt, RequestsFrom]
  | cons t ts ih =>
    have hfirst := (List.pairwise_cons.mp hsorted).1
    have htail := (List.pairwise_cons.mp hsorted).2
    have hfrom := hstart t List.mem_cons_self
    rw [held, requestAt]
    by_cases hearly : t < start + 1000
    · rw [if_pos hearly, requestsFrom_early hearly, firstShown_cons, List.cons.injEq, stored]
      by_cases hzero : read t = 0
      · rw [if_pos hzero, Option.none_or, ih (fun u hu => hstart u (List.mem_cons_of_mem t hu)) htail]
        simp
      · rw [if_neg hzero, Option.some_or, held_eq_iff (by omega) htail]
        simp
    · rw [if_neg hearly, requestsFrom_due hearly]
      constructor
      · intro h
        cases (List.cons.inj h).1
      · rintro ⟨⟨a, hshown, hpast⟩, -⟩
        exfalso
        rcases List.mem_cons.mp (List.mem_of_find?_eq_some hshown) with rfl | hmem
        · omega
        · have := hfirst a hmem
          omega

/-- The static variable is clear when a press begins. -/
theorem run_released (hpre : ∀ p ∈ pre.getLast?, p.pin = .high) :
    Mealy.run calibrationButtonPoll 0 pre = 0 := by
  cases pre using List.reverseRecOn with
  | nil => rfl
  | append_singleton pre p =>
    obtain ⟨pin, time⟩ := p
    have hpin : pin = .high := hpre ⟨pin, time⟩ (by rw [List.getLast?_concat, Option.mem_def])
    rw [Mealy.run_append, hpin]
    rfl

/-- A press is known by its times. -/
theorem exists_times (hlow : ∀ p ∈ press, p.pin = .low) :
    ∃ ts : List Nat, press = ts.map (Poll.mk .low) := by
  induction press with
  | nil => exact ⟨[], rfl⟩
  | cons p press ih =>
    obtain ⟨pin, time⟩ := p
    obtain rfl : pin = .low := hlow _ List.mem_cons_self
    obtain ⟨ts, rfl⟩ := ih fun q hq => hlow q (List.mem_cons_of_mem _ hq)
    exact ⟨time :: ts, rfl⟩

/-- A press answered from the clear variable. -/
theorem press_iff (hclock : Clock (ts.map (Poll.mk .low))) :
    Mealy.outputs calibrationButtonPoll 0 (ts.map (Poll.mk .low)) = wanted ts ↔
      RequestsOnce ts := by
  have hsorted : ts.Pairwise (· ≤ ·) := by
    have hchain : ts.IsChain (· ≤ ·) := by
      rw [Clock, List.isChain_map] at hclock
      exact hclock.imp fun _ _ h => h.1
    exact List.isChain_iff_pairwise.mp hchain
  cases ts with
  | nil => exact iff_of_true rfl trivial
  | cons start ts =>
    have hstart : ∀ t ∈ start :: ts, start ≤ t := by
      intro t ht
      rcases List.mem_cons.mp ht with rfl | ht
      · exact Nat.le_refl _
      · exact (List.pairwise_cons.mp hsorted).1 t ht
    have hagain : Clock ((start :: start :: ts).map (Poll.mk .low)) :=
      List.IsChain.cons_cons ⟨Nat.le_refl _, by simp⟩ hclock
    have hheld := outputs_held none hagain (by rintro _ ⟨⟩)
    rw [marker] at hheld
    rw [hheld]
    exact held_none_eq_iff hstart hsorted

/-- In every run and for every press in it: the answers to its polls are one request, at the
first poll that comes a second after the first, exactly if that poll also comes a second after
millis() was first not zero, and the button is then let go in time. -/
theorem press_requests_once_iff (pre press post : List Poll)
    (hclock : Clock (pre ++ press ++ post)) (hpress : Press pre press post) :
    ((Mealy.outputs calibrationButtonPoll 0 (pre ++ press ++ post)).drop pre.length).take
        press.length = wanted (press.map Poll.time) ↔
      RequestsOnce (press.map Poll.time) := by
  have hpre : (Mealy.outputs calibrationButtonPoll 0 pre).length = pre.length :=
    Mealy.outputs_length pre
  have hanswers : ((Mealy.outputs calibrationButtonPoll 0 (pre ++ press ++ post)).drop
      pre.length).take press.length = Mealy.outputs calibrationButtonPoll 0 press := by
    rw [Mealy.outputs_append, Mealy.outputs_append, run_released hpress.released,
      List.append_assoc, List.drop_left' hpre]
    exact List.take_left' (Mealy.outputs_length press)
  have hmiddle : Clock press := (List.IsChain.left_of_append hclock).right_of_append
  obtain ⟨ts, rfl⟩ := exists_times hpress.low
  have htimes : (ts.map (Poll.mk .low)).map Poll.time = ts := by
    rw [List.map_map]
    exact List.map_id ts
  rw [hanswers, htimes]
  exact press_iff hmiddle

theorem press_requests_once_iff_short :
    (Clock [⟨.high, 5⟩, ⟨.low, 10⟩, ⟨.low, 1010⟩, ⟨.high, 1100⟩] ∧
      Press [⟨.high, 5⟩] [⟨.low, 10⟩, ⟨.low, 1010⟩] [⟨.high, 1100⟩]) ∧
    (((Mealy.outputs calibrationButtonPoll 0
        ([⟨.high, 5⟩] ++ [⟨.low, 10⟩, ⟨.low, 1010⟩] ++ [⟨.high, 1100⟩])).drop 1).take 2 =
      wanted [10, 1010] ↔ RequestsOnce [10, 1010]) := by
  have hclock : Clock [⟨.high, 5⟩, ⟨.low, 10⟩, ⟨.low, 1010⟩, ⟨.high, 1100⟩] := by decide
  have hpress : Press [⟨.high, 5⟩] [⟨.low, 10⟩, ⟨.low, 1010⟩] [⟨.high, 1100⟩] :=
    ⟨by decide, by simp, by simp⟩
  exact ⟨⟨hclock, hpress⟩, press_requests_once_iff [⟨.high, 5⟩] [⟨.low, 10⟩, ⟨.low, 1010⟩]
    [⟨.high, 1100⟩] hclock hpress⟩

/-- A button held on raises a second request, and a press that begins while millis() is zero
raises none at the poll that is due. -/
theorem press_requests_again :
    (let press : List Poll := [⟨.low, 10⟩, ⟨.low, 1010⟩, ⟨.low, 1011⟩, ⟨.low, 2011⟩]
    Clock press ∧ Press [] press [] ∧
      Mealy.outputs calibrationButtonPoll 0 press = [false, true, false, true] ∧
      wanted (press.map Poll.time) = [false, true, false, false]) ∧
    (let press : List Poll := [⟨.low, 4294967296⟩, ⟨.low, 4294968296⟩]
    Clock press ∧ Press [] press [] ∧
      Mealy.outputs calibrationButtonPoll 0 press = [false, false] ∧
      wanted (press.map Poll.time) = [false, true]) :=
  ⟨⟨by decide, ⟨by decide, by simp, by simp⟩, by decide, by decide⟩,
    ⟨by decide, ⟨by decide, by simp, by simp⟩, by decide, by decide⟩⟩

end RoomWatchdog.CalibrationButton
