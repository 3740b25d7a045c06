import RoomWatchdog.Library.Doorbell
import RoomWatchdog.Net.Conservation

namespace RoomWatchdog.Net

/-- The delivery with queueSignal; `giving` counts the callers of queueGotify that have given
queueLock back and not given queueSignal yet. -/
structure Signalled (depth messageMax : Nat) where
  delivery : Delivery depth messageMax
  queueSignal : Bool := false
  giving : Nat := 0

/-- A step of a caller's task or of the worker, whose wait for queueSignal ends in one of two
ways. -/
inductive Step where
  | queueGotify (message : CString) (acquired : Bool)
  | give
  | takeNextMessage
  | signalled
  | timedOut
  | pushGotify (ok : Bool)
  | retry

/-- What a step is to the delivery, for which the signal does not exist. -/
def Step.action : Step → Option Action
  | .queueGotify message acquired => some (.queueGotify message acquired)
  | .give => none
  | .takeNextMessage => some .takeNextMessage
  | .signalled => some .wake
  | .timedOut => some .wake
  | .pushGotify ok => some (.pushGotify ok)
  | .retry => some .retry

namespace Signalled

variable {depth messageMax : Nat}

def gotifyBegin (created : Bool) (garbage : Vector UInt8 messageMax) :
    Signalled depth messageMax where
  delivery := .gotifyBegin created garbage

/-- queueGotify until it has given queueLock back. -/
def queueGotify (s : Signalled depth messageMax) (message : CString) (acquired : Bool) :
    Option (Signalled depth messageMax) := do
  let delivery ← s.delivery.queueGotify message acquired
  let pushed := s.delivery.queueLock && acquired
  some { s with delivery, giving := if pushed then s.giving + 1 else s.giving }

def give (s : Signalled depth messageMax) : Option (Signalled depth messageMax) :=
  match s.giving with
  | 0 => none
  | giving + 1 => some { s with queueSignal := true, giving }

def signalled (s : Signalled depth messageMax) : Option (Signalled depth messageMax) :=
  if s.queueSignal then do
    let delivery ← s.delivery.wake
    some { s with delivery, queueSignal := false }
  else none

/-- What the worker does with the queue and the server. -/
def work (s : Signalled depth messageMax) (delivery : Option (Delivery depth messageMax)) :
    Option (Signalled depth messageMax) := do
  let delivery ← delivery
  some { s with delivery }

def step (maxAttempts : UInt8) (s : Signalled depth messageMax) :
    Step → Option (Signalled depth messageMax)
  | .queueGotify message acquired => s.queueGotify message acquired
  | .give => s.give
  | .takeNextMessage => s.work s.delivery.takeNextMessage
  | .signalled => s.signalled
  | .timedOut => s.work s.delivery.wake
  | .pushGotify ok => s.work (s.delivery.pushGotify maxAttempts ok)
  | .retry => s.work s.delivery.retry

/-- The worker is in its wait for queueSignal. -/
def Asleep (s : Signalled depth messageMax) : Bool := s.delivery.worker = .sleeping

def doorbell (s : Signalled depth messageMax) : Doorbell.State where
  ready := s.delivery.pending.count ≠ 0
  asleep := s.Asleep
  bell := s.queueSignal
  owed := s.giving

section cases
variable {s t : Signalled depth messageMax} {message : CString} {acquired : Bool}

theorem queueGotify_cases (h : s.queueGotify message acquired = some t) :
    ∃ delivery, s.delivery.queueGotify message acquired = some delivery ∧
      { s with
        delivery
        giving := if s.delivery.queueLock && acquired then s.giving + 1 else s.giving } = t := by
  obtain ⟨delivery, hqueue, hnew⟩ := Option.bind_eq_some_iff.mp h
  exact ⟨delivery, hqueue, Option.some.inj hnew⟩

theorem give_cases (h : s.give = some t) :
    ∃ giving, s.giving = giving + 1 ∧ { s with queueSignal := true, giving } = t := by
  simp only [give] at h
  split at h
  · cases h
  next giving hgiving => exact ⟨giving, hgiving, Option.some.inj h⟩

theorem signalled_cases (h : s.signalled = some t) :
    s.queueSignal = true ∧ ∃ delivery, s.delivery.wake = some delivery ∧
      { s with delivery, queueSignal := false } = t := by
  rw [signalled] at h
  split_ifs at h with hsignal
  obtain ⟨delivery, hwake, hnew⟩ := Option.bind_eq_some_iff.mp h
  exact ⟨hsignal, delivery, hwake, Option.some.inj hnew⟩

theorem work_cases {delivery : Option (Delivery depth messageMax)}
    (h : s.work delivery = some t) : ∃ d, delivery = some d ∧ { s with delivery := d } = t := by
  obtain ⟨d, hd, hnew⟩ := Option.bind_eq_some_iff.mp h
  exact ⟨d, hd, Option.some.inj hnew⟩

end cases

section turns
variable {s t : Signalled depth messageMax} {maxAttempts : UInt8}
open Doorbell (Turn)

/-- A push is put, and its caller owes the signal; without one the queue is left alone. -/
theorem turns_queueGotify {message : CString} {acquired : Bool}
    (h : s.queueGotify message acquired = some t) :
    Relation.ReflTransGen Turn s.doorbell t.doorbell := by
  obtain ⟨delivery, hqueue, rfl⟩ := queueGotify_cases h
  rcases Delivery.queueGotify_cases hqueue with
    ⟨hlock, rfl⟩ | ⟨hlock, rfl, rfl⟩ | ⟨hlock, rfl, pending, kept, -, rfl⟩
  · rw [hlock]
    exact Relation.ReflTransGen.refl
  · rw [Bool.and_false]
    exact Relation.ReflTransGen.refl
  · rw [hlock]
    exact Relation.ReflTransGen.single (Turn.put s.doorbell (decide (pending.count ≠ 0)))

theorem turns_give (h : s.give = some t) : Relation.ReflTransGen Turn s.doorbell t.doorbell := by
  obtain ⟨giving, hgiving, rfl⟩ := give_cases h
  exact Relation.ReflTransGen.single (Turn.ring s.doorbell hgiving)

/-- The worker takes what is there, or has found the queue empty when it goes to sleep. -/
theorem turns_takeNextMessage (hlength : 1 < messageMax)
    (h : s.work s.delivery.takeNextMessage = some t) :
    Relation.ReflTransGen Turn s.doorbell t.doorbell := by
  obtain ⟨delivery, htake, rfl⟩ := work_cases h
  obtain ⟨hworker, htaken⟩ := Delivery.takeNextMessage_cases htake
  apply Relation.ReflTransGen.single
  have hawake : s.Asleep = false := by simp [Asleep, hworker]
  rcases htaken with ⟨hnone, rfl⟩ | ⟨hsome, pending, message, -, rfl⟩
  · have hempty : s.delivery.pending.count = 0 := hnone.resolve_right (by omega)
    exact Turn.sleep s.doorbell (by simp [doorbell, hempty])
  · obtain ⟨hcount, -⟩ := not_or.mp hsome
    have hready : s.doorbell.ready = true := by simp [doorbell, hcount]
    have hstill : s.doorbell.asleep = false := hawake
    have hturn : Turn s.doorbell
        { s.doorbell with ready := decide (pending.count ≠ 0), asleep := false } := by
      rw [← hstill]
      exact Turn.take s.doorbell fun _ => hready
    exact hturn

theorem turns_signalled (h : s.signalled = some t) :
    Relation.ReflTransGen Turn s.doorbell t.doorbell := by
  obtain ⟨-, delivery, hwake, rfl⟩ := signalled_cases h
  obtain ⟨-, rfl⟩ := Delivery.wake_cases hwake
  exact Relation.ReflTransGen.single (Turn.wake s.doorbell)

theorem turns_timedOut (h : s.work s.delivery.wake = some t) :
    Relation.ReflTransGen Turn s.doorbell t.doorbell := by
  obtain ⟨delivery, hwake, rfl⟩ := work_cases h
  obtain ⟨-, rfl⟩ := Delivery.wake_cases hwake
  exact Relation.ReflTransGen.single (Turn.timeOut s.doorbell)

/-- A worker that pushes or backs off is awake before and after, and the queue is not its
concern. -/
theorem turns_awake {delivery : Delivery depth messageMax}
    (hpending : delivery.pending = s.delivery.pending) (hbefore : s.delivery.worker ≠ .sleeping)
    (hafter : delivery.worker ≠ .sleeping) :
    Relation.ReflTransGen Turn s.doorbell (doorbell { s with delivery }) := by
  have hsame : doorbell { s with delivery } = s.doorbell := by
    simp [doorbell, Asleep, hpending, hbefore, hafter]
  rw [hsame]

theorem turns_pushGotify {ok : Bool}
    (h : s.work (s.delivery.pushGotify maxAttempts ok) = some t) :
    Relation.ReflTransGen Turn s.doorbell t.doorbell := by
  obtain ⟨delivery, hpush, rfl⟩ := work_cases h
  obtain ⟨attempt, job, hworker, -, hresult⟩ := Delivery.pushGotify_cases hpush
  have hbefore : s.delivery.worker ≠ .sleeping := by simp [hworker]
  rcases hresult with ⟨-, rfl⟩ | ⟨-, -, rfl⟩ | ⟨-, -, rfl⟩
  · exact turns_awake rfl hbefore (by simp)
  · exact turns_awake rfl hbefore (by simp)
  · exact turns_awake rfl hbefore (by simp)

theorem turns_retry (h : s.work s.delivery.retry = some t) :
    Relation.ReflTransGen Turn s.doorbell t.doorbell := by
  obtain ⟨delivery, hretry, rfl⟩ := work_cases h
  obtain ⟨attempt, hworker, rfl⟩ := Delivery.retry_cases hretry
  exact turns_awake rfl (by simp [hworker]) (by simp)

/-- Every step is a turn of the doorbell, or none of its business. -/
theorem turns_step (hlength : 1 < messageMax) (s : Signalled depth messageMax) (a : Step)
    (t : Signalled depth messageMax) (h : s.step maxAttempts a = some t) :
    Relation.ReflTransGen Turn s.doorbell t.doorbell := by
  cases a with
  | queueGotify message acquired => exact turns_queueGotify h
  | give => exact turns_give h
  | takeNextMessage => exact turns_takeNextMessage hlength h
  | signalled => exact turns_signalled h
  | timedOut => exact turns_timedOut h
  | pushGotify ok => exact turns_pushGotify h
  | retry => exact turns_retry h

end turns

section runs
variable {s t : Signalled depth messageMax} {maxAttempts : UInt8}

/-- The delivery takes the same step, or none when the signal alone changes. -/
theorem step_delivery {a : Step} (h : s.step maxAttempts a = some t) :
    Guarded.exec (Delivery.step maxAttempts) s.delivery a.action.toList = some t.delivery := by
  have hone : ∀ {action : Action} {delivery : Delivery depth messageMax},
      Delivery.step maxAttempts s.delivery action = some delivery →
      Guarded.exec (Delivery.step maxAttempts) s.delivery [action] = some delivery := by
    intro action delivery hstep
    exact Guarded.exec_cons.mpr ⟨delivery, hstep, rfl⟩
  cases a with
  | queueGotify message acquired =>
    obtain ⟨delivery, hqueue, rfl⟩ := queueGotify_cases h
    exact hone hqueue
  | give =>
    obtain ⟨giving, -, rfl⟩ := give_cases h
    rfl
  | takeNextMessage =>
    obtain ⟨delivery, htake, rfl⟩ := work_cases h
    exact hone htake
  | signalled =>
    obtain ⟨-, delivery, hwake, rfl⟩ := signalled_cases h
    exact hone hwake
  | timedOut =>
    obtain ⟨delivery, hwake, rfl⟩ := work_cases h
    exact hone hwake
  | pushGotify ok =>
    obtain ⟨delivery, hpush, rfl⟩ := work_cases h
    exact hone hpush
  | retry =>
    obtain ⟨delivery, hretry, rfl⟩ := work_cases h
    exact hone hretry

/-- A run with the signal is a run of the delivery. -/
theorem exec_delivery {steps : List Step} (h : Guarded.exec (step maxAttempts) s steps = some t) :
    Guarded.exec (Delivery.step maxAttempts) s.delivery (steps.filterMap Step.action) =
      some t.delivery := by
  induction steps generalizing s with
  | nil => exact congrArg (Option.map Signalled.delivery) h
  | cons a steps ih =>
    obtain ⟨u, hstep, hrest⟩ := Guarded.exec_cons.mp h
    have hhere := step_delivery hstep
    rw [List.filterMap_cons]
    cases haction : a.action with
    | none =>
      rw [haction] at hhere
      rw [Option.some.inj hhere]
      exact ih hrest
    | some action =>
      rw [haction] at hhere
      obtain ⟨d, hd, hlast⟩ := Guarded.exec_cons.mp hhere
      obtain rfl := Option.some.inj hlast
      exact Guarded.exec_cons.mpr ⟨u.delivery, hd, ih hrest⟩

/-- No push is slept through. Whatever the callers, the worker and the lock do, and whether
the worker was created or not: while the worker waits for queueSignal with a message pending,
the signal has been given or is still to be given by a caller, so that its wait ends without
the timeout. The delivery itself runs as it does without the signal. -/
theorem no_message_slept_through (hlength : 1 < messageMax) (maxAttempts : UInt8)
    (created : Bool) (garbage : Vector UInt8 messageMax) (steps : List Step)
    (s : Signalled depth messageMax)
    (h : Guarded.exec (step maxAttempts) (gotifyBegin created garbage) steps = some s) :
    (s.delivery.worker = .sleeping → s.delivery.pending.count ≠ 0 →
      (s.queueSignal = true ∨ 0 < s.giving) ∧
      (s.giving = 0 → ∃ t, s.signalled = some t ∧ t.delivery.worker = .taking)) ∧
    Guarded.exec (Delivery.step maxAttempts) (.gotifyBegin created garbage)
      (steps.filterMap Step.action) = some s.delivery := by
  refine ⟨?_, exec_delivery h⟩
  have hawake : (gotifyBegin created garbage : Signalled depth messageMax).doorbell.asleep =
      false := by cases created <;> rfl
  have halert := Guarded.exec_preserves (fun s => Doorbell.Alert s.doorbell)
    (fun s a t hstep hs => Doorbell.Turn.alerts (turns_step hlength s a t hstep) hs) h
    (Doorbell.alert_of_awake hawake)
  intro hworker hcount
  have hasleep : s.doorbell.asleep = true := decide_eq_true hworker
  have hready : s.doorbell.ready = true := decide_eq_true hcount
  refine ⟨halert hasleep hready, ?_⟩
  intro hgiving
  have hsignal : s.queueSignal = true := halert.rung hasleep hready hgiving
  refine ⟨{ s with delivery := { s.delivery with worker := .taking }, queueSignal := false },
    ?_, rfl⟩
  rw [signalled, if_pos hsignal, Delivery.wake, hworker]
  rfl

/-- The push comes between the worker's look into the queue and its wait. -/
def lateMessage : List Step :=
  [.takeNextMessage, .queueGotify ⟨[72, 105, 0], by decide⟩ true, .give]

theorem late_message_signalled :
    ∃ s : Signalled 2 4,
      Guarded.exec (step 3) (gotifyBegin true (.replicate 4 7)) lateMessage = some s ∧
      s.delivery.worker = .sleeping ∧ s.delivery.pending.count = 1 ∧
      ∃ t, s.signalled = some t ∧ t.delivery.worker = .taking := by
  obtain ⟨s, hrun⟩ : ∃ s : Signalled 2 4,
      Guarded.exec (step 3) (gotifyBegin true (.replicate 4 7)) lateMessage = some s := ⟨_, rfl⟩
  obtain ⟨hawake, -⟩ := no_message_slept_through (by decide) 3 true _ lateMessage s hrun
  obtain rfl := Option.some.inj hrun
  refine ⟨_, rfl, rfl, rfl, ?_⟩
  exact (hawake rfl (by decide)).2 rfl

end runs

end Signalled

end RoomWatchdog.Net
