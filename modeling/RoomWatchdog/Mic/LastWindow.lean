import RoomWatchdog.Mic.Window

namespace RoomWatchdog.Mic

namespace Event

/-- The window that clients should be shown after an event, when it was `window` before. -/
def shown (window : LevelWindow) : Event → LevelWindow
  | published window => window
  | received none => {}
  | _ => window

end Event

namespace Windows

def micLastWindow (s : Windows) : LevelWindow := s.lastWindow

/-- The last window published, or the empty one before the first and after a timeout. -/
def current (s : Windows) : LevelWindow := s.events.foldl Event.shown {}

/-- Neither publishWindow nor micSampleWindow is between its two steps. -/
def Quiet (s : Windows) : Prop := s.publishing = none ∧ s.loopAt ≠ .timedOut

/-- Whether the last publication and the last wait that timed out have overlapped, given
whether they had before the step. -/
def overlap (s : Windows) (before : Bool) : Step → Bool
  | .store _ => s.loopAt = .timedOut
  | .receive => if s.windowQueue = none then s.publishing.isSome else before
  | _ => before

/-- The same for the steps of a run that starts in `s`. -/
def overlaps (s : Windows) (before : Bool) : List Step → Bool
  | [] => before
  | a :: as =>
    match s.step a with
    | some t => t.overlaps (s.overlap before a) as
    | none => before

/-- What lastWindow holds, as long as a call is under way and after it. -/
def Shows (s : Windows) (overlapped : Bool) : Prop :=
  match s.publishing, s.loopAt with
  | some _, .timedOut => overlapped = true
  | none, .timedOut => overlapped = false → s.current = {}
  | some window, _ => s.lastWindow = if overlapped then {} else window
  | none, _ => s.lastWindow = if overlapped then {} else s.current

theorem shows_boot : Shows {} false := rfl

section steps
variable {s t : Windows} {overlapped : Bool}

theorem shows_store {window : LevelWindow} (h : s.store window = some t) :
    t.Shows (s.overlap overlapped (.store window)) := by
  obtain ⟨-, rfl⟩ := store_cases h
  cases hat : s.loopAt <;> simp [Shows, overlap, hat]

variable (hs : s.Shows overlapped)
include hs

theorem shows_overwrite (h : s.overwrite = some t) : t.Shows (s.overlap overlapped .overwrite) := by
  obtain ⟨window, hpublishing, rfl⟩ := overwrite_cases h
  cases hat : s.loopAt with
  | timedOut =>
    simp only [Shows, hpublishing, hat] at hs
    simp [Shows, overlap, hs]
  | receiving =>
    simp only [Shows, hpublishing, hat] at hs
    simpa [Shows, overlap, current, Event.shown] using hs
  | passing judging =>
    simp only [Shows, hpublishing, hat] at hs
    simpa [Shows, overlap, current, Event.shown] using hs

theorem shows_receive (h : s.receive = some t) : t.Shows (s.overlap overlapped .receive) := by
  obtain ⟨hat, ⟨hqueue, rfl⟩ | ⟨window, hqueue, rfl⟩⟩ := receive_cases h
  · cases hpublishing : s.publishing with
    | none => simp [Shows, overlap, current, Event.shown, hqueue, hpublishing]
    | some publishing => simp [Shows, overlap, hqueue, hpublishing]
  · cases hpublishing : s.publishing with
    | none =>
      simp only [Shows, hpublishing, hat] at hs
      simpa [Shows, overlap, current, Event.shown, hqueue, hpublishing] using hs
    | some publishing =>
      simp only [Shows, hpublishing, hat] at hs
      simpa [Shows, overlap, hqueue, hpublishing] using hs

/-- Clearing is right for a wait that no publication overlapped. -/
theorem shows_clear (h : s.clear = some t) : t.Shows (s.overlap overlapped .clear) := by
  obtain ⟨hat, rfl⟩ := clear_cases h
  cases hpublishing : s.publishing with
  | none =>
    simp only [Shows, hpublishing, hat] at hs
    cases overlapped with
    | true => simp [Shows, overlap]
    | false => exact (hs rfl).symm
  | some window =>
    simp only [Shows, hpublishing, hat] at hs
    simp [Shows, overlap, hs]

theorem shows_judge (h : s.judge = some t) : t.Shows (s.overlap overlapped .judge) := by
  obtain ⟨window, hat, rfl⟩ := judge_cases h
  cases hpublishing : s.publishing with
  | none =>
    simp only [Shows, hpublishing, hat] at hs
    simpa [Shows, overlap, current, Event.shown, hpublishing] using hs
  | some publishing =>
    simp only [Shows, hpublishing, hat] at hs
    simp only [Shows]
    exact hs

end steps

theorem shows_step {s t : Windows} {overlapped : Bool} {a : Step} (h : s.step a = some t)
    (hs : s.Shows overlapped) : t.Shows (s.overlap overlapped a) := by
  cases a with
  | store window => exact shows_store h
  | overwrite => exact shows_overwrite hs h
  | receive => exact shows_receive hs h
  | clear => exact shows_clear hs h
  | judge => exact shows_judge hs h

theorem shows_run {s t : Windows} {overlapped : Bool} {steps : List Step}
    (h : Guarded.exec step s steps = some t) (hs : s.Shows overlapped) :
    t.Shows (s.overlaps overlapped steps) := by
  induction steps generalizing s overlapped with
  | nil =>
    cases h
    exact hs
  | cons a steps ih =>
    obtain ⟨u, ha, hrest⟩ := Guarded.exec_cons.mp h
    simp only [overlaps, ha]
    exact ih hrest (shows_step ha hs)

theorem Shows.quiet {s : Windows} {overlapped : Bool} (hs : s.Shows overlapped) (h : s.Quiet) :
    s.micLastWindow = if overlapped then {} else s.current := by
  obtain ⟨hpublishing, hat⟩ := h
  cases hloop : s.loopAt with
  | timedOut => exact absurd hloop hat
  | receiving =>
    simp only [Shows, hpublishing, hloop] at hs
    exact hs
  | passing window =>
    simp only [Shows, hpublishing, hloop] at hs
    exact hs

/-- In every interleaving, with both functions at rest: clients are shown the last window
published, or the empty one before the first and after a timeout, exactly if the last
publication and the last wait that timed out did not overlap, or that window is empty itself. -/
theorem last_window_current_iff (steps : List Step) (s : Windows)
    (h : Guarded.exec step {} steps = some s) (hquiet : s.Quiet) :
    s.micLastWindow = s.current ↔ overlaps {} false steps = false ∨ s.current = {} := by
  have hshown := (shows_run h shows_boot).quiet hquiet
  rw [hshown]
  cases overlaps {} false steps with
  | true => simp [eq_comm]
  | false => simp

theorem last_window_current_after_timeout :
    (∃ s, Guarded.exec step {} [.store shortSound, .overwrite, .receive, .judge, .receive, .clear,
      .judge, .store silence, .overwrite] = some s ∧ s.Quiet ∧
      s.micLastWindow = s.current ∧ s.current = silence) := by
  obtain ⟨s, hrun⟩ : ∃ s, Guarded.exec step {} [.store shortSound, .overwrite, .receive, .judge,
      .receive, .clear, .judge, .store silence, .overwrite] = some s := ⟨_, rfl⟩
  have hquiet : s.Quiet := by
    obtain rfl := Option.some.inj hrun
    exact ⟨rfl, by decide⟩
  have hlaw := (last_window_current_iff _ s hrun hquiet).mpr (Or.inl (by decide))
  refine ⟨s, hrun, hquiet, hlaw, ?_⟩
  obtain rfl := Option.some.inj hrun
  rfl

/-- A window published between the timeout and the clearing is blanked. -/
theorem fresh_window_blanked : ∃ s,
    Guarded.exec step {} [.receive, .store shortSound, .overwrite, .clear] = some s ∧ s.Quiet ∧
      s.events = [.received none, .published shortSound] ∧ s.current = shortSound ∧
      s.micLastWindow = {} ∧ s.micLastWindow ≠ s.current :=
  ⟨_, rfl, ⟨rfl, by decide⟩, rfl, rfl, rfl, by decide⟩

end Windows

end RoomWatchdog.Mic
