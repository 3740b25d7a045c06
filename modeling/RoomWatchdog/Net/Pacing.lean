import Mathlib.Data.List.Chain
import RoomWatchdog.Net.Delivery

namespace RoomWatchdog.Net

inductive PushResult where
  | delivered
  | failed
  | gaveUp
  deriving DecidableEq

/-- How a call of pushGotify ended. -/
structure Outcome where
  time : Nat
  result : PushResult
  deriving DecidableEq

/-- A call of pushGotify, with no outcome before it returns. -/
structure Call where
  start : Nat
  outcome : Option Outcome := none
  deriving DecidableEq

/-- The delivery on a true clock: `delayedAt` is when the worker last called vTaskDelay, the
rest is the history of the calls, of which `calling` has not returned. -/
structure Clocked (depth messageMax : Nat) where
  delivery : Delivery depth messageMax
  now : Nat := 0
  delayedAt : Nat := 0
  calls : List Call := []
  calling : Option Call := none

structure Event where
  time : Nat
  action : Action

variable {depth messageMax : Nat}

/-- What the worker makes of the answer of pushGotify. -/
def Delivery.pushResult (maxAttempts : UInt8) (s : Delivery depth messageMax) (ok : Bool) :
    PushResult :=
  match s.worker with
  | .pushing attempt => if ok then .delivered else if attempt ≥ maxAttempts then .gaveUp else .failed
  | _ => .delivered

section delivery
variable {maxAttempts : UInt8} {s t : Delivery depth messageMax}

theorem Delivery.queueGotify_worker {message : CString} {acquired : Bool}
    (h : s.queueGotify message acquired = some t) : t.worker = s.worker := by
  rcases queueGotify_cases h with ⟨-, rfl⟩ | ⟨-, -, rfl⟩ | ⟨-, -, pending, kept, -, rfl⟩
  · rfl
  · rfl
  · rfl

/-- The worker takes a message exactly if there is one. -/
theorem Delivery.takeNextMessage_worker (hlength : 0 < messageMax)
    (h : s.takeNextMessage = some t) : s.worker = .taking ∧
      t.worker = if s.pending.empty then .sleeping else .pushing 1 := by
  obtain ⟨hworker, ⟨hunusable, rfl⟩ | ⟨husable, pending, message, -, rfl⟩⟩ :=
    takeNextMessage_cases h
  · have hempty : s.pending.count = 0 := by omega
    exact ⟨hworker, by simp [NotificationQueue.empty, hempty]⟩
  · have hsome : ¬ s.pending.count = 0 := by omega
    exact ⟨hworker, by simp [NotificationQueue.empty, hsome]⟩

/-- A push ends the attempts or leads into the delay. -/
theorem Delivery.pushGotify_worker {ok : Bool} (h : s.pushGotify maxAttempts ok = some t) :
    ∃ attempt, s.worker = .pushing attempt ∧
      t.worker = if s.pushResult maxAttempts ok = .failed then .backingOff attempt else .taking := by
  obtain ⟨attempt, job, hworker, -, hcases⟩ := pushGotify_cases h
  refine ⟨attempt, hworker, ?_⟩
  simp only [pushResult, hworker]
  rcases hcases with ⟨rfl, rfl⟩ | ⟨rfl, hlast, rfl⟩ | ⟨rfl, hlast, rfl⟩
  · rfl
  · simp [hlast]
  · simp [hlast]

end delivery

namespace Clocked

def begin (created : Bool) (garbage : Vector UInt8 messageMax) : Clocked depth messageMax where
  delivery := Delivery.gotifyBegin created garbage

variable (backoffMs : Nat) (maxAttempts : UInt8)

/-- When an action may come at the earliest. -/
def due (s : Clocked depth messageMax) : Action → Nat
  | .retry => s.delayedAt + backoffMs
  | _ => s.now

/-- A message taken is pushed at once, and so is one whose delay is over. -/
def record (s : Clocked depth messageMax) (e : Event) (delivery : Delivery depth messageMax) :
    Clocked depth messageMax :=
  match e.action with
  | .queueGotify _ _ => { s with delivery, now := e.time }
  | .wake => { s with delivery, now := e.time }
  | .takeNextMessage => { s with
      delivery, now := e.time,
      calling := match delivery.worker with
        | .pushing _ => some { start := e.time }
        | _ => none }
  | .pushGotify ok =>
    let outcome := ⟨e.time, s.delivery.pushResult maxAttempts ok⟩
    let returned := s.calling.map ({ · with outcome := some outcome })
    { s with
      delivery, now := e.time, delayedAt := e.time, calls := s.calls ++ returned.toList,
      calling := none }
  | .retry => { s with delivery, now := e.time, calling := some { start := e.time } }

def step (s : Clocked depth messageMax) (e : Event) : Option (Clocked depth messageMax) :=
  if e.time < s.now ∨ e.time < s.due backoffMs e.action then none
  else (s.delivery.step maxAttempts e.action).map (s.record maxAttempts e)

/-- All calls in order, also the one under way. -/
def made (s : Clocked depth messageMax) : List Call := s.calls ++ s.calling.toList

/-- If the first of two calls failed, the second came a backoff later. -/
def Apart (a b : Call) : Prop :=
  ∀ o ∈ a.outcome, o.result ≠ .delivered → o.time + backoffMs ≤ b.start

def Spaced (s : Clocked depth messageMax) : Prop := s.made.IsChain (Apart backoffMs)

/-- The worker finds nothing in the queue, or a backoff has passed since it gave up on a
message. -/
def Rests (s : Clocked depth messageMax) (e : Event) : Prop :=
  match e.action with
  | .takeNextMessage => s.delivery.pending.empty = false →
    ∀ last ∈ s.calls.getLast?, ∀ o ∈ last.outcome, o.result = .gaveUp → o.time + backoffMs ≤ e.time
  | _ => True

/-- The worker's place and the history agree: outside the attempts of a message the last
call succeeded or was the last that its message was allowed. -/
def InStep (s : Clocked depth messageMax) : Prop :=
  match s.delivery.worker with
  | .pushing _ => ∃ start, s.calling = some { start }
  | .backingOff _ => s.calling = none ∧
    ∀ last ∈ s.calls.getLast?, ∀ o ∈ last.outcome, o.time = s.delayedAt
  | _ => s.calling = none ∧
    ∀ last ∈ s.calls.getLast?, ∀ o ∈ last.outcome, o.result ≠ .failed

variable {backoffMs maxAttempts} {s t : Clocked depth messageMax}

theorem inStep_begin (created : Bool) (garbage : Vector UInt8 messageMax) :
    (begin created garbage : Clocked depth messageMax).InStep := by
  cases created <;> exact ⟨rfl, by simp [begin]⟩

theorem spaced_begin (created : Bool) (garbage : Vector UInt8 messageMax) :
    (begin created garbage : Clocked depth messageMax).Spaced backoffMs := List.IsChain.nil

/-- One more call in the history. -/
theorem chain_append (calls : List Call) (c : Call) :
    (calls ++ [c]).IsChain (Apart backoffMs) ↔ calls.IsChain (Apart backoffMs) ∧
      ∀ last ∈ calls.getLast?, Apart backoffMs last c := by
  rw [List.isChain_append]
  simp

theorem step_eq {e : Event} (h : s.step backoffMs maxAttempts e = some t) :
    s.due backoffMs e.action ≤ e.time ∧ ∃ delivery,
      s.delivery.step maxAttempts e.action = some delivery ∧ s.record maxAttempts e delivery = t := by
  rw [step] at h
  split_ifs at h with hearly
  obtain ⟨delivery, hdelivery, ht⟩ := Option.map_eq_some_iff.mp h
  exact ⟨Nat.le_of_not_lt (not_or.mp hearly).2, delivery, hdelivery, ht⟩

/-- A step that leaves the worker and the history alone. -/
theorem queueGotify_step {time : Nat} {message : CString} {acquired : Bool}
    (h : s.step backoffMs maxAttempts ⟨time, .queueGotify message acquired⟩ = some t)
    (hs : s.InStep) : t.InStep ∧ t.made = s.made := by
  obtain ⟨-, delivery, hdelivery, rfl⟩ := step_eq h
  have hworker := Delivery.queueGotify_worker hdelivery
  refine ⟨?_, rfl⟩
  simp only [InStep, record, hworker]
  exact hs

theorem wake_step {time : Nat} (h : s.step backoffMs maxAttempts ⟨time, .wake⟩ = some t)
    (hs : s.InStep) : t.InStep ∧ t.made = s.made := by
  obtain ⟨-, delivery, hdelivery, rfl⟩ := step_eq h
  obtain ⟨hworker, rfl⟩ := Delivery.wake_cases hdelivery
  simp only [InStep, hworker] at hs
  exact ⟨hs, rfl⟩

theorem made_of_idle (h : s.calling = none) : s.made = s.calls := by
  rw [made, h]
  exact List.append_nil _

/-- Only a message taken too soon after a give-up breaks the law. -/
theorem takeNextMessage_step (hlength : 0 < messageMax) {time : Nat}
    (h : s.step backoffMs maxAttempts ⟨time, .takeNextMessage⟩ = some t) (hs : s.InStep) :
    t.InStep ∧
    (t.Spaced backoffMs ↔ s.Spaced backoffMs ∧ s.Rests backoffMs ⟨time, .takeNextMessage⟩) := by
  obtain ⟨-, delivery, hdelivery, rfl⟩ := step_eq h
  obtain ⟨hbefore, hafter⟩ := Delivery.takeNextMessage_worker hlength hdelivery
  simp only [InStep, hbefore] at hs
  obtain ⟨hcalling, hfailed⟩ := hs
  rw [Spaced, Spaced, made_of_idle hcalling]
  cases hempty : s.delivery.pending.empty with
  | true =>
    rw [hempty, if_pos rfl] at hafter
    simp only [record, InStep, made, Rests, hafter, hempty]
    exact ⟨⟨trivial, hfailed⟩, by simp⟩
  | false =>
    rw [hempty, if_neg Bool.false_ne_true] at hafter
    simp only [record, InStep, made, Rests, hafter, hempty, Option.toList_some, chain_append]
    refine ⟨⟨time, rfl⟩, and_congr_right fun _ => ?_⟩
    constructor
    · intro hapart _ last hlast o ho hgaveUp
      apply hapart last hlast o ho
      simp [hgaveUp]
    · intro hrests last hlast o ho hnot
      apply hrests trivial last hlast o ho
      have hend := hfailed last hlast o ho
      cases hresult : o.result with
      | delivered => exact absurd hresult hnot
      | failed => exact absurd hresult hend
      | gaveUp => rfl

theorem pushGotify_step {time : Nat} {ok : Bool}
    (h : s.step backoffMs maxAttempts ⟨time, .pushGotify ok⟩ = some t) (hs : s.InStep) :
    t.InStep ∧ (t.Spaced backoffMs ↔ s.Spaced backoffMs) := by
  obtain ⟨-, delivery, hdelivery, rfl⟩ := step_eq h
  obtain ⟨attempt, hbefore, hafter⟩ := Delivery.pushGotify_worker hdelivery
  simp only [InStep, hbefore] at hs
  obtain ⟨start, hcalling⟩ := hs
  refine ⟨?_, ?_⟩
  · by_cases hfailed : s.delivery.pushResult maxAttempts ok = .failed
    · rw [if_pos hfailed] at hafter
      simp [record, InStep, hafter, hcalling]
    · rw [if_neg hfailed] at hafter
      simp [record, InStep, hafter, hcalling, hfailed]
  · simp only [Spaced, record, made, hcalling, Option.map_some, Option.toList_some,
      Option.toList_none, List.append_nil, chain_append]
    exact Iff.rfl

theorem retry_step {time : Nat} (h : s.step backoffMs maxAttempts ⟨time, .retry⟩ = some t)
    (hs : s.InStep) : t.InStep ∧ (t.Spaced backoffMs ↔ s.Spaced backoffMs) := by
  obtain ⟨hdue, delivery, hdelivery, rfl⟩ := step_eq h
  obtain ⟨attempt, hworker, rfl⟩ := Delivery.retry_cases hdelivery
  simp only [InStep, hworker] at hs
  obtain ⟨hcalling, hdelayed⟩ := hs
  refine ⟨⟨time, rfl⟩, ?_⟩
  rw [Spaced, Spaced, made_of_idle hcalling]
  change (s.calls ++ [_]).IsChain _ ↔ _
  rw [chain_append, and_iff_left_iff_imp]
  intro _ last hlast o ho _
  rw [hdelayed last hlast o ho]
  exact hdue

theorem step_spaced (hlength : 0 < messageMax) (s : Clocked depth messageMax) (e : Event)
    (t : Clocked depth messageMax) (h : s.step backoffMs maxAttempts e = some t) (hs : s.InStep) :
    t.InStep ∧ (t.Spaced backoffMs ↔ s.Spaced backoffMs ∧ s.Rests backoffMs e) := by
  obtain ⟨time, action⟩ := e
  have hany : s.Spaced backoffMs ↔ s.Spaced backoffMs ∧ True := (and_iff_left trivial).symm
  cases action with
  | queueGotify message acquired =>
    obtain ⟨ht, hmade⟩ := queueGotify_step h hs
    rw [Spaced, hmade]
    exact ⟨ht, hany⟩
  | takeNextMessage => exact takeNextMessage_step hlength h hs
  | wake =>
    obtain ⟨ht, hmade⟩ := wake_step h hs
    rw [Spaced, hmade]
    exact ⟨ht, hany⟩
  | pushGotify ok =>
    obtain ⟨ht, hspaced⟩ := pushGotify_step h hs
    exact ⟨ht, hspaced.trans hany⟩
  | retry =>
    obtain ⟨ht, hspaced⟩ := retry_step h hs
    exact ⟨ht, hspaced.trans hany⟩

/-- In every run a failed push is followed by no other for a backoff, exactly if the queue is empty
whenever the worker looks into it within a backoff after it gave up on a message. -/
theorem pushes_spaced_iff (hlength : 0 < messageMax) (backoffMs : Nat) (maxAttempts : UInt8)
    (created : Bool) (garbage : Vector UInt8 messageMax) (events : List Event)
    (s : Clocked depth messageMax)
    (h : Guarded.exec (step backoffMs maxAttempts) (begin created garbage) events = some s) :
    s.Spaced backoffMs ↔ Guarded.Throughout (step backoffMs maxAttempts) (Rests backoffMs)
      (begin created garbage : Clocked depth messageMax) events := by
  rw [Guarded.exec_iff InStep (Spaced backoffMs) (step_spaced hlength) h
    (inStep_begin created garbage)]
  exact and_iff_right (spaced_begin created garbage)

/-- Two messages for a server that is down, each push of which takes five seconds. -/
def deadServer : List Event :=
  [⟨0, .queueGotify ⟨[65, 0], by decide⟩ true⟩, ⟨0, .queueGotify ⟨[66, 0], by decide⟩ true⟩,
    ⟨0, .takeNextMessage⟩, ⟨5000, .pushGotify false⟩, ⟨35000, .retry⟩, ⟨40000, .pushGotify false⟩,
    ⟨70000, .retry⟩, ⟨75000, .pushGotify false⟩]

/-- As long as the first message is tried the pushes are spaced. -/
theorem dead_server_spaced :
    ∃ s : Clocked Config.gotifyQueueDepth Config.gotifyMessageMax,
      Guarded.exec (step Config.gotifyRetryBackoffMs.toNat Config.gotifyMaxAttempts)
        (begin true (.replicate _ 0)) deadServer = some s ∧
      s.Spaced Config.gotifyRetryBackoffMs.toNat ∧
      Guarded.Throughout (step Config.gotifyRetryBackoffMs.toNat Config.gotifyMaxAttempts)
        (Rests Config.gotifyRetryBackoffMs.toNat)
        (begin true (.replicate _ 0) : Clocked Config.gotifyQueueDepth Config.gotifyMessageMax)
        deadServer := by
  obtain ⟨s, hrun⟩ : ∃ s : Clocked Config.gotifyQueueDepth Config.gotifyMessageMax,
      Guarded.exec (step Config.gotifyRetryBackoffMs.toNat Config.gotifyMaxAttempts)
        (begin true (.replicate _ 0)) deadServer = some s := ⟨_, rfl⟩
  have hlaw := pushes_spaced_iff (by decide) _ _ _ _ deadServer s hrun
  have hspaced : s.Spaced Config.gotifyRetryBackoffMs.toNat := by
    obtain rfl := Option.some.inj hrun
    change List.IsChain (Apart _) [⟨0, some ⟨5000, .failed⟩⟩, ⟨35000, some ⟨40000, .failed⟩⟩,
      ⟨70000, some ⟨75000, .gaveUp⟩⟩]
    simp [Apart, Config.gotifyRetryBackoffMs]
  exact ⟨s, hrun, hspaced, hlaw.mp hspaced⟩

/-- The second message is pushed in the moment the first one is given up on. -/
theorem dead_server_hammered :
    ∃ s : Clocked Config.gotifyQueueDepth Config.gotifyMessageMax,
      Guarded.exec (step Config.gotifyRetryBackoffMs.toNat Config.gotifyMaxAttempts)
        (begin true (.replicate _ 0)) (deadServer ++ [⟨75000, .takeNextMessage⟩]) = some s ∧
      s.made = [⟨0, some ⟨5000, .failed⟩⟩, ⟨35000, some ⟨40000, .failed⟩⟩,
        ⟨70000, some ⟨75000, .gaveUp⟩⟩, ⟨75000, none⟩] ∧
      ¬ s.Spaced Config.gotifyRetryBackoffMs.toNat := by
  refine ⟨_, rfl, rfl, ?_⟩
  change ¬ List.IsChain (Apart _) [⟨0, some ⟨5000, .failed⟩⟩, ⟨35000, some ⟨40000, .failed⟩⟩,
    ⟨70000, some ⟨75000, .gaveUp⟩⟩, ⟨75000, none⟩]
  simp [Apart, Config.gotifyRetryBackoffMs]

end Clocked

end RoomWatchdog.Net
