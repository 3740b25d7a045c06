import RoomWatchdog.Config
import RoomWatchdog.Detectors
import RoomWatchdog.Library.Guarded
import RoomWatchdog.Library.Mailbox

namespace RoomWatchdog.Mic

/-- Where the sensor loop stands: before or in xQueueReceive, back from it without a window,
or past micSampleWindow with the window that notifyLoudSounds will judge. -/
inductive LoopAt where
  | receiving
  | timedOut
  | passing (window : LevelWindow)
  deriving DecidableEq

/-- What happened, in order. -/
inductive Event where
  | published (window : LevelWindow)
  | received (answer : Option LevelWindow)
  | judged (peakToPeak : Int)
  deriving DecidableEq

structure Windows where
  lastWindow : LevelWindow := {}
  windowQueue : Option LevelWindow := none
  /-- The window of a publishWindow call that has not reached xQueueOverwrite. -/
  publishing : Option LevelWindow := none
  loopAt : LoopAt := .receiving
  events : List Event := []
  deriving DecidableEq

/-- The atomic steps of the ADC task (`store`, `overwrite`) and of the sensor loop. -/
inductive Step where
  | store (window : LevelWindow)
  | overwrite
  | receive
  | clear
  | judge
  deriving DecidableEq

namespace Windows

/-- The guarded store of publishWindow. -/
def store (s : Windows) (window : LevelWindow) : Option Windows :=
  match s.publishing with
  | none => some { s with lastWindow := window, publishing := some window }
  | some _ => none

/-- xQueueOverwrite on the queue of one. -/
def overwrite (s : Windows) : Option Windows :=
  match s.publishing with
  | some window => some { s with
      windowQueue := some window, publishing := none, events := s.events ++ [.published window] }
  | none => none

/-- xQueueReceive: the queued window, or the timeout when there is none. -/
def receive (s : Windows) : Option Windows :=
  match s.loopAt with
  | .receiving => some { s with
      windowQueue := none
      loopAt := match s.windowQueue with
        | some window => .passing window
        | none => .timedOut
      events := s.events ++ [.received s.windowQueue] }
  | _ => none

/-- The guarded store of the empty window after a timeout. -/
def clear (s : Windows) : Option Windows :=
  match s.loopAt with
  | .timedOut => some { s with lastWindow := {}, loopAt := .passing {} }
  | _ => none

/-- The rest of the pass, in which notifyLoudSounds asks shouldNotify. -/
def judge (s : Windows) : Option Windows :=
  match s.loopAt with
  | .passing window => some { s with
      loopAt := .receiving, events := s.events ++ [.judged window.peakToPeak] }
  | _ => none

def step (s : Windows) : Step → Option Windows
  | .store window => s.store window
  | .overwrite => s.overwrite
  | .receive => s.receive
  | .clear => s.clear
  | .judge => s.judge

section cases
variable {s t : Windows}

theorem store_cases {window : LevelWindow} (h : s.store window = some t) :
    s.publishing = none ∧ { s with lastWindow := window, publishing := some window } = t := by
  simp only [store] at h
  split at h
  next hpublishing => exact ⟨hpublishing, Option.some.inj h⟩
  · cases h

theorem overwrite_cases (h : s.overwrite = some t) :
    ∃ window, s.publishing = some window ∧ { s with
      windowQueue := some window, publishing := none,
      events := s.events ++ [.published window] } = t := by
  simp only [overwrite] at h
  split at h
  next window hpublishing => exact ⟨window, hpublishing, Option.some.inj h⟩
  · cases h

/-- The receiver takes the queued window or times out. -/
theorem receive_cases (h : s.receive = some t) : s.loopAt = .receiving ∧
    (s.windowQueue = none ∧ { s with
        windowQueue := none, loopAt := .timedOut, events := s.events ++ [.received none] } = t ∨
      ∃ window, s.windowQueue = some window ∧ { s with
        windowQueue := none, loopAt := .passing window,
        events := s.events ++ [.received (some window)] } = t) := by
  simp only [receive] at h
  split at h
  next hat =>
    refine ⟨hat, ?_⟩
    cases hqueue : s.windowQueue with
    | none =>
      rw [hqueue] at h
      exact Or.inl ⟨rfl, Option.some.inj h⟩
    | some window =>
      rw [hqueue] at h
      exact Or.inr ⟨window, rfl, Option.some.inj h⟩
  · cases h

theorem clear_cases (h : s.clear = some t) :
    s.loopAt = .timedOut ∧ { s with lastWindow := {}, loopAt := .passing {} } = t := by
  simp only [clear] at h
  split at h
  next hat => exact ⟨hat, Option.some.inj h⟩
  · cases h

theorem judge_cases (h : s.judge = some t) :
    ∃ window, s.loopAt = .passing window ∧ { s with
      loopAt := .receiving, events := s.events ++ [.judged window.peakToPeak] } = t := by
  simp only [judge] at h
  split at h
  next window hat => exact ⟨window, hat, Option.some.inj h⟩
  · cases h

end cases

end Windows

namespace Event

/-- The use of the queue that an event is. -/
def exchange : Event → Option (Mailbox.Op LevelWindow)
  | published window => some (.put window)
  | received _ => some .take
  | judged _ => none

def answer : Event → Option (Option LevelWindow)
  | received answer => some answer
  | _ => none

def verdict : Event → Option Int
  | judged peakToPeak => some peakToPeak
  | _ => none

end Event

namespace Windows

def exchanges (s : Windows) : List (Mailbox.Op LevelWindow) := s.events.filterMap Event.exchange

def published (s : Windows) : List LevelWindow := Mailbox.sent s.exchanges

/-- The answers of xQueueReceive, a timeout being none. -/
def answers (s : Windows) : List (Option LevelWindow) := s.events.filterMap Event.answer

/-- The published windows that micSampleWindow returned. -/
def returned (s : Windows) : List LevelWindow := s.answers.reduceOption

/-- The loudness values that reached shouldNotify. -/
def verdicts (s : Windows) : List Int := s.events.filterMap Event.verdict

/-- The loudness of a window taken and not judged yet. -/
def unjudged (s : Windows) : List Int :=
  match s.loopAt with
  | .receiving => []
  | .timedOut => [LevelWindow.peakToPeak {}]
  | .passing window => [window.peakToPeak]

/-- The queue is a mailbox, and each answer of it is judged in turn. -/
structure Accounted (s : Windows) : Prop where
  queue : s.windowQueue = Mealy.run Mailbox.step none s.exchanges
  returned : s.returned = Mailbox.received none s.exchanges
  judged : s.verdicts ++ s.unjudged = s.answers.map fun answer => (answer.getD {}).peakToPeak

theorem accounted_boot : Accounted {} := ⟨rfl, rfl, rfl⟩

section steps
variable {s t : Windows} (hs : s.Accounted)
include hs

theorem accounted_store {window : LevelWindow} (h : s.store window = some t) : t.Accounted := by
  obtain ⟨-, rfl⟩ := store_cases h
  exact ⟨hs.queue, hs.returned, hs.judged⟩

theorem accounted_overwrite (h : s.overwrite = some t) : t.Accounted := by
  obtain ⟨window, -, rfl⟩ := overwrite_cases h
  refine ⟨?_, ?_, ?_⟩
  · simp [exchanges, Event.exchange, Mealy.run_append, Mailbox.step]
  · simpa [returned, answers, exchanges, Event.exchange, Event.answer, List.filterMap_cons,
      Mailbox.received_append] using hs.returned
  · simpa [verdicts, answers, unjudged, Event.verdict, Event.answer, List.filterMap_cons]
      using hs.judged

theorem accounted_receive (h : s.receive = some t) : t.Accounted := by
  obtain ⟨hat, hcases⟩ := receive_cases h
  have hqueue : Mealy.run Mailbox.step none (s.events.filterMap Event.exchange) = s.windowQueue :=
    hs.queue.symm
  have hreturned : (s.events.filterMap Event.answer).reduceOption =
      Mailbox.received none (s.events.filterMap Event.exchange) := hs.returned
  have hjudged : s.verdicts = s.answers.map fun answer => (answer.getD {}).peakToPeak := by
    have hall := hs.judged
    rw [unjudged, hat, List.append_nil] at hall
    exact hall
  rcases hcases with ⟨hslot, rfl⟩ | ⟨window, hslot, rfl⟩
  · refine ⟨?_, ?_, ?_⟩
    · simp [exchanges, Event.exchange, Mealy.run_append, Mailbox.step]
    · simp [returned, answers, exchanges, Event.exchange, Event.answer, Mailbox.received_append,
        List.reduceOption_append, hreturned, hqueue, hslot]
    · simpa [verdicts, answers, unjudged, Event.verdict, Event.answer, List.filterMap_cons]
        using hjudged
  · refine ⟨?_, ?_, ?_⟩
    · simp [exchanges, Event.exchange, Mealy.run_append, Mailbox.step]
    · simp [returned, answers, exchanges, Event.exchange, Event.answer, Mailbox.received_append,
        List.reduceOption_append, hreturned, hqueue, hslot]
    · simpa [verdicts, answers, unjudged, Event.verdict, Event.answer, List.filterMap_cons]
        using hjudged

theorem accounted_clear (h : s.clear = some t) : t.Accounted := by
  obtain ⟨hat, rfl⟩ := clear_cases h
  refine ⟨hs.queue, hs.returned, ?_⟩
  have hjudged := hs.judged
  rw [unjudged, hat] at hjudged
  exact hjudged

theorem accounted_judge (h : s.judge = some t) : t.Accounted := by
  obtain ⟨window, hat, rfl⟩ := judge_cases h
  have hjudged : s.verdicts ++ [window.peakToPeak] =
      s.answers.map fun answer => (answer.getD {}).peakToPeak := by
    have hall := hs.judged
    rw [unjudged, hat] at hall
    exact hall
  refine ⟨?_, ?_, ?_⟩
  · simpa [exchanges, Event.exchange, List.filterMap_cons] using hs.queue
  · simpa [returned, answers, exchanges, Event.exchange, Event.answer, List.filterMap_cons]
      using hs.returned
  · simpa [verdicts, answers, unjudged, Event.verdict, Event.answer, List.filterMap_cons]
      using hjudged

end steps

theorem accounted_step (s : Windows) (a : Step) (t : Windows) (h : s.step a = some t)
    (hs : s.Accounted) : t.Accounted := by
  cases a with
  | store window => exact accounted_store hs h
  | overwrite => exact accounted_overwrite hs h
  | receive => exact accounted_receive hs h
  | clear => exact accounted_clear hs h
  | judge => exact accounted_judge hs h

/-- In every interleaving micSampleWindow returns exactly the windows it takes before the
next publication, in order and each once, and each value it returns is judged. Nothing is
lost exactly when no publication finds the previous window still queued. -/
theorem windows_accounted (steps : List Step) (s : Windows)
    (h : Guarded.exec step {} steps = some s) :
    s.returned = Mailbox.answered s.exchanges ∧
    (s.returned ++ s.windowQueue.toList).Sublist s.published ∧
    (s.returned ++ s.windowQueue.toList = s.published ↔
      s.exchanges.IsChain fun a b => ¬ a.Overwrites b) ∧
    s.verdicts ++ s.unjudged = s.answers.map fun answer => (answer.getD {}).peakToPeak := by
  obtain ⟨hqueue, hreturned, hjudged⟩ :=
    Guarded.exec_preserves Accounted accounted_step h accounted_boot
  rw [hreturned, hqueue]
  exact ⟨Mailbox.received_eq_answered _, Mailbox.received_sublist none _,
    Mailbox.received_eq_sent_iff none _, hjudged⟩

/-- A short sound, and the silence after it, published while the loop is busy elsewhere. -/
def shortSound : LevelWindow := ⟨1000, 3000⟩

def silence : LevelWindow := ⟨2000, 2010⟩

theorem windows_accounted_when_polled : ∃ s,
    Guarded.exec step {} [.store shortSound, .overwrite, .receive, .judge, .store silence,
      .overwrite, .receive] = some s ∧
    s.returned = [shortSound, silence] ∧
    s.verdicts ++ s.unjudged = [2000, 10] := by
  obtain ⟨s, hrun⟩ : ∃ s, Guarded.exec step {} [.store shortSound, .overwrite, .receive, .judge,
      .store silence, .overwrite, .receive] = some s := ⟨_, rfl⟩
  obtain ⟨hreturned, -, -, hjudged⟩ := windows_accounted _ s hrun
  obtain rfl := Option.some.inj hrun
  exact ⟨_, rfl, hreturned, hjudged⟩

/-- Both windows are published before the loop receives again: the sound is overwritten, and
only silence is judged. -/
theorem short_sound_lost : ∃ s,
    Guarded.exec step {} [.store shortSound, .overwrite, .store silence, .overwrite, .receive,
      .judge] = some s ∧
    s.published = [shortSound, silence] ∧ s.windowQueue = none ∧ s.loopAt = .receiving ∧
    s.returned = [silence] ∧ s.verdicts = [10] ∧
    Config.soundPpThreshold ≤ shortSound.peakToPeak := by
  exact ⟨_, rfl, rfl, rfl, rfl, rfl, rfl, by decide⟩

end Windows

end RoomWatchdog.Mic
