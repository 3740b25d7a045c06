import RoomWatchdog.Config
import RoomWatchdog.Library.Guarded
import RoomWatchdog.Notify.DropOldest

namespace RoomWatchdog.Net
open NotificationQueue (cString)

/-- Where gotifyWorkerTask stands: before takeNextMessage, waiting for queueSignal, before
the given attempt's pushGotify, or in the delay after it. -/
inductive Worker where
  | absent
  | taking
  | sleeping
  | pushing (attempt : UInt8)
  | backingOff (attempt : UInt8)
  deriving DecidableEq

/-- What became of a message the worker took: the text and the result of each pushGotify
call made for it, and how often it was counted as undeliverable. -/
structure Job where
  text : List UInt8
  attempts : List (List UInt8 × Bool) := []
  givenUp : Nat := 0
  deriving DecidableEq

/-- The delivery state, and from `calls` on its history; `depth` is GOTIFY_QUEUE_DEPTH and
`messageMax` is GOTIFY_MESSAGE_MAX. -/
structure Delivery (depth messageMax : Nat) where
  queueLock : Bool
  pending : NotificationQueue depth messageMax := {}
  undeliverable : UInt32 := 0
  message : Vector UInt8 messageMax
  worker : Worker
  calls : Nat := 0
  accepted : List CString := []
  jobs : List Job := []
  job : Option Job := none

/-- A step of a caller's task or of the worker. The flags say whether the timed lock was
acquired and whether pushGotify succeeded. -/
inductive Action where
  | queueGotify (message : CString) (acquired : Bool)
  | takeNextMessage
  | wake
  | pushGotify (ok : Bool)
  | retry

namespace Delivery

variable {depth messageMax : Nat}

/-- `garbage` is what the worker's buffer holds before it is first written. -/
def gotifyBegin (created : Bool) (garbage : Vector UInt8 messageMax) : Delivery depth messageMax where
  queueLock := created
  message := garbage
  worker := if created then .taking else .absent

def queueGotify (s : Delivery depth messageMax) (message : CString) (acquired : Bool) :
    Option (Delivery depth messageMax) :=
  let s := { s with calls := s.calls + 1 }
  if s.queueLock = false then some s
  else if acquired = false then some { s with undeliverable := s.undeliverable + 1 }
  else do
    let (pending, _) ← s.pending.push (some message)
    some { s with pending, accepted := s.accepted ++ [message] }

/-- takeNextMessage and the branch on its result. -/
def takeNextMessage (s : Delivery depth messageMax) : Option (Delivery depth messageMax) :=
  match s.worker with
  | .taking => do
    let (pending, taken, message) ← s.pending.pop (.whole s.message)
    match taken, message with
    | true, some message => some { s with
        pending, message, worker := .pushing 1, job := some { text := cString message } }
    | _, _ => some { s with worker := .sleeping }
  | _ => none

def wake (s : Delivery depth messageMax) : Option (Delivery depth messageMax) :=
  match s.worker with
  | .sleeping => some { s with worker := .taking }
  | _ => none

/-- One turn of the attempt loop, up to the break or the delay. -/
def pushGotify (maxAttempts : UInt8) (s : Delivery depth messageMax) (ok : Bool) :
    Option (Delivery depth messageMax) :=
  match s.worker, s.job with
  | .pushing attempt, some job =>
    let job := { job with attempts := job.attempts ++ [(cString s.message, ok)] }
    if ok then some { s with worker := .taking, jobs := s.jobs ++ [job], job := none }
    else if attempt ≥ maxAttempts then
      let job := { job with givenUp := job.givenUp + 1 }
      some { s with
        undeliverable := s.undeliverable + 1, worker := .taking, jobs := s.jobs ++ [job], job := none }
    else some { s with worker := .backingOff attempt, job := some job }
  | _, _ => none

def retry (s : Delivery depth messageMax) : Option (Delivery depth messageMax) :=
  match s.worker with
  | .backingOff attempt => some { s with worker := .pushing (attempt + 1) }
  | _ => none

def step (maxAttempts : UInt8) (s : Delivery depth messageMax) :
    Action → Option (Delivery depth messageMax)
  | .queueGotify message acquired => s.queueGotify message acquired
  | .takeNextMessage => s.takeNextMessage
  | .wake => s.wake
  | .pushGotify ok => s.pushGotify maxAttempts ok
  | .retry => s.retry

section cases
variable {s t : Delivery depth messageMax}

/-- Without a worker the call is lost, without the lock it is counted, else it is queued. -/
theorem queueGotify_cases {message : CString} {acquired : Bool}
    (h : s.queueGotify message acquired = some t) :
    s.queueLock = false ∧ { s with calls := s.calls + 1 } = t ∨
    s.queueLock = true ∧ acquired = false ∧
      { s with calls := s.calls + 1, undeliverable := s.undeliverable + 1 } = t ∨
    s.queueLock = true ∧ acquired = true ∧ ∃ pending kept,
      s.pending.push (some message) = some (pending, kept) ∧
      { s with calls := s.calls + 1, pending, accepted := s.accepted ++ [message] } = t := by
  simp only [queueGotify] at h
  split_ifs at h with hlock hacquired
  · exact Or.inl ⟨hlock, Option.some.inj h⟩
  · exact Or.inr (Or.inl ⟨by simpa using hlock, hacquired, Option.some.inj h⟩)
  · obtain ⟨⟨pending, kept⟩, hpush, ht⟩ := Option.bind_eq_some_iff.mp h
    exact Or.inr (Or.inr ⟨by simpa using hlock, by simpa using hacquired, pending, kept, hpush,
      Option.some.inj ht⟩)

/-- The worker takes a message exactly if there is one and room for it. -/
theorem takeNextMessage_cases (h : s.takeNextMessage = some t) : s.worker = .taking ∧
    ((s.pending.count = 0 ∨ messageMax = 0) ∧ { s with worker := .sleeping } = t ∨
    ¬ (s.pending.count = 0 ∨ messageMax = 0) ∧ ∃ pending message,
      s.pending.pop (.whole s.message) = some (pending, true, some message) ∧
      { s with
        pending, message, worker := .pushing 1, job := some { text := cString message } } = t) := by
  simp only [takeNextMessage] at h
  split at h
  case h_2 => cases h
  next hworker =>
    refine ⟨hworker, ?_⟩
    obtain ⟨⟨pending, taken, message⟩, hpop, ht⟩ := Option.bind_eq_some_iff.mp h
    by_cases hunusable : s.pending.count = 0 ∨ messageMax = 0
    · have hnone : s.pending.count = 0 ∨ (Out.whole s.message).pointer = none ∨
          (Out.whole s.message).outSize = 0 := hunusable.imp_right Or.inr
      rw [NotificationQueue.pop_unusable hnone] at hpop
      cases hpop
      exact Or.inl ⟨hunusable, Option.some.inj ht⟩
    · obtain ⟨rfl, hsome⟩ := NotificationQueue.pop_takes rfl hunusable hpop
      obtain ⟨buffer, rfl⟩ := Option.isSome_iff_exists.mp hsome
      exact Or.inr ⟨hunusable, pending, buffer, hpop, Option.some.inj ht⟩

theorem wake_cases (h : s.wake = some t) :
    s.worker = .sleeping ∧ { s with worker := .taking } = t := by
  simp only [wake] at h
  split at h
  next hworker => exact ⟨hworker, Option.some.inj h⟩
  · cases h

/-- A push delivers the message, gives up on it, or leads into the delay. -/
theorem pushGotify_cases {maxAttempts : UInt8} {ok : Bool}
    (h : s.pushGotify maxAttempts ok = some t) :
    ∃ attempt job, s.worker = .pushing attempt ∧ s.job = some job ∧
    (ok = true ∧ { s with
        worker := .taking, job := none,
        jobs := s.jobs ++ [{ job with attempts := job.attempts ++ [(cString s.message, ok)] }] } = t ∨
      ok = false ∧ maxAttempts ≤ attempt ∧ { s with
        undeliverable := s.undeliverable + 1, worker := .taking, job := none,
        jobs := s.jobs ++ [{ job with
          attempts := job.attempts ++ [(cString s.message, ok)], givenUp := job.givenUp + 1 }] } = t ∨
      ok = false ∧ ¬ maxAttempts ≤ attempt ∧ { s with
        worker := .backingOff attempt,
        job := some { job with attempts := job.attempts ++ [(cString s.message, ok)] } } = t) := by
  simp only [pushGotify] at h
  split at h
  case h_2 => cases h
  next attempt job hworker hjob =>
    refine ⟨attempt, job, hworker, hjob, ?_⟩
    split_ifs at h with hok hlast
    · exact Or.inl ⟨hok, Option.some.inj h⟩
    · exact Or.inr (Or.inl ⟨by simpa using hok, hlast, Option.some.inj h⟩)
    · exact Or.inr (Or.inr ⟨by simpa using hok, hlast, Option.some.inj h⟩)

theorem retry_cases (h : s.retry = some t) :
    ∃ attempt, s.worker = .backingOff attempt ∧
      { s with worker := .pushing (attempt + 1) } = t := by
  simp only [retry] at h
  split at h
  next attempt hworker => exact ⟨attempt, hworker, Option.some.inj h⟩
  · cases h

end cases

/-- The texts of the calls of pushGotify that succeeded, in order. -/
def delivered (s : Delivery depth messageMax) : List (List UInt8) :=
  ((s.jobs ++ s.job.toList).flatMap Job.attempts).filterMap fun (text, ok) =>
    if ok then some text else none

/-- The texts of the messages taken off the queue, in order. -/
def taken (s : Delivery depth messageMax) : List (List UInt8) :=
  (s.jobs ++ s.job.toList).map Job.text

/-- The accepted messages as the queue keeps them. -/
def kept (s : Delivery depth messageMax) : List (List UInt8) :=
  s.accepted.map fun message => message.text.take (messageMax - 1)

end Delivery

end RoomWatchdog.Net
