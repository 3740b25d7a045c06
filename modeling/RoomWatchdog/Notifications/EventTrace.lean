import RoomWatchdog.Notifications.Ledger

namespace RoomWatchdog.Notifications

/-! At every point of a run each detector agrees with the ledger of the events so far. A
stored reading of millis() stands for a true time `seen` that is not over yet. -/

structure PresenceAgrees (t : Tuning) (clock : Nat) (m : PresenceMonitor) (present : Bool)
    (edgeAt : Option Nat) : Prop where
  debounce : m.debounceMs = t.debounceMs
  state : m.notified = present
  past : ∀ edge ∈ edgeAt, edge ≤ clock
  since : m.candidate ≠ m.notified → ∃ seen, m.candidateSinceMs = WrapClock.read seen ∧
    seen ≤ clock ∧ ∀ edge ∈ edgeAt, edge ≤ seen

structure MovementAgrees (t : Tuning) (clock : Nat) (d : DistanceTracker) (present : Bool)
    (base : Option (UInt16 × Nat)) : Prop where
  delta : d.deltaCm = t.deltaCm
  interval : d.minIntervalMs = t.minIntervalMs
  baseline : d.hasBaseline = base.isSome
  absent : present = false → base = none
  since : ∀ b ∈ base, d.baselineCm = b.1 ∧
    ∃ seen, d.lastEventMs = WrapClock.read seen ∧ seen ≤ clock ∧ b.2 ≤ seen

structure SoundAgrees (t : Tuning) (clock : Nat) (d : SoundDetector) (soundAt : Option Nat) :
    Prop where
  cooldown : d.cooldownMs = t.soundCooldownMs
  since : ∀ alerted ∈ soundAt, d.notified = true ∧
    ∃ seen, d.lastNotifyMs = WrapClock.read seen ∧ seen ≤ clock ∧ alerted ≤ seen

structure Agrees (t : Tuning) (s : Loop) (l : Ledger) : Prop where
  presence : PresenceAgrees t s.clock s.detectors.presenceMonitor l.present l.edgeAt
  movement : MovementAgrees t s.clock s.detectors.distanceTracker l.present l.base
  sound : SoundAgrees t s.clock s.detectors.soundDetector l.soundAt

theorem agrees_boot (t : Tuning) : Agrees t (.boot t) {} where
  presence := ⟨rfl, rfl, by simp, fun h => absurd rfl h⟩
  movement := ⟨rfl, rfl, rfl, fun _ => rfl, by simp⟩
  sound := ⟨rfl, by simp⟩

section later
variable {t : Tuning} {clock later : Nat} {present : Bool} {edgeAt soundAt : Option Nat}
  {base : Option (UInt16 × Nat)} (hle : clock ≤ later)
include hle

theorem PresenceAgrees.mono {m : PresenceMonitor} (h : PresenceAgrees t clock m present edgeAt) :
    PresenceAgrees t later m present edgeAt := by
  refine ⟨h.debounce, h.state, ?_, ?_⟩
  · intro edge hedge
    exact (h.past edge hedge).trans hle
  · intro hne
    obtain ⟨seen, hread, hseen, hedges⟩ := h.since hne
    exact ⟨seen, hread, hseen.trans hle, hedges⟩

theorem MovementAgrees.mono {d : DistanceTracker} (h : MovementAgrees t clock d present base) :
    MovementAgrees t later d present base := by
  refine ⟨h.delta, h.interval, h.baseline, h.absent, ?_⟩
  intro b hb
  obtain ⟨hcm, seen, hread, hseen, hbefore⟩ := h.since b hb
  exact ⟨hcm, seen, hread, hseen.trans hle, hbefore⟩

theorem SoundAgrees.mono {d : SoundDetector} (h : SoundAgrees t clock d soundAt) :
    SoundAgrees t later d soundAt := by
  refine ⟨h.cooldown, ?_⟩
  intro alerted halerted
  obtain ⟨hnotified, seen, hread, hseen, hbefore⟩ := h.since alerted halerted
  exact ⟨hnotified, seen, hread, hseen.trans hle, hbefore⟩

theorem Agrees.mono {d : Detectors} {l : Ledger} (h : Agrees t ⟨clock, d⟩ l) :
    Agrees t ⟨later, d⟩ l :=
  ⟨h.presence.mono hle, h.movement.mono hle, h.sound.mono hle⟩

end later

/-- From agreement, a stage hands out only lawful marks and ends in agreement again. -/
def Keeps (t : Tuning) (stage : Loop → Loop × List Mark) : Prop :=
  ∀ s l, Agrees t s l →
    l.Lawful t (stage s).2 ∧ Agrees t (stage s).1 ((stage s).2.foldl Ledger.next l)

theorem Keeps.andThen {t : Tuning} {f g : Loop → Loop × List Mark} (hf : Keeps t f)
    (hg : Keeps t g) : Keeps t fun s => ((g (f s).1).1, (f s).2 ++ (g (f s).1).2) := by
  intro s l h
  obtain ⟨hlawful, hmid⟩ := hf s l h
  obtain ⟨hlawful', hend⟩ := hg _ _ hmid
  refine ⟨Monitor.accepts_append.mpr ⟨hlawful, hlawful'⟩, ?_⟩
  rw [List.foldl_append]
  exact hend

variable {t : Tuning} (metres : UInt16 → String) (p : Pass)

theorem keeps_calibration : Keeps t (Loop.calibration · p) := by
  intro s l h
  have hlater : Agrees t ⟨s.clock + p.toCalibration, s.detectors⟩ l := h.mono (Nat.le_add_right _ _)
  cases hrequest : p.calibrationRequested with
  | false => simpa [Loop.calibration, Mark.stamp, hrequest] using hlater
  | true =>
    simpa [Loop.calibration, Mark.stamp, hrequest, alert, Ledger.Allows, Ledger.next] using hlater

/-- A debounce the monitor has seen pass has really passed since the last edge. -/
theorem PresenceAgrees.debounced {clock now : Nat} {m : PresenceMonitor} {present : Bool}
    {edgeAt : Option Nat} (h : PresenceAgrees t clock m present edgeAt) (hnow : clock ≤ now)
    (hne : m.candidate ≠ m.notified) (hdue : m.debounceMs ≤ WrapClock.read now - m.candidateSinceMs) :
    ∀ edge ∈ edgeAt, edge + t.debounceMs.toNat ≤ now := by
  intro edge hedge
  obtain ⟨seen, hread, hseen, hedges⟩ := h.since hne
  rw [h.debounce, hread] at hdue
  have helapsed := WrapClock.le_of_elapsed (hseen.trans hnow) hdue
  have := hedges edge hedge
  omega

/-- A confirmed alert leaves nothing pending. -/
theorem PresenceAgrees.alerted {clock told later : Nat} {m : PresenceMonitor} {was now : Bool}
    {edgeAt : Option Nat} (h : PresenceAgrees t clock m was edgeAt) (hhold : now = m.candidate)
    (htold : told ≤ later) :
    PresenceAgrees t later m.notificationSent now (some told) := by
  refine ⟨h.debounce, hhold.symm, ?_, ?_⟩
  · intro edge hedge
    cases hedge
    exact htold
  · intro hne
    exact absurd rfl hne

/-- Without a baseline the tracker agrees with a session that has seen nothing. -/
theorem MovementAgrees.restart {clock later : Nat} {d d' : DistanceTracker} {was now : Bool}
    {base : Option (UInt16 × Nat)} (h : MovementAgrees t clock d was base)
    (hdelta : d'.deltaCm = d.deltaCm) (hinterval : d'.minIntervalMs = d.minIntervalMs)
    (hbaseline : d'.hasBaseline = false) : MovementAgrees t later d' now none := by
  refine ⟨hdelta.trans h.delta, hinterval.trans h.interval, hbaseline, ?_, ?_⟩
  · intro _
    rfl
  · intro b hb
    cases hb

section presence
variable {s : Loop} {l : Ledger} (h : Agrees t s l)
include h

/-- A changed sample starts the debounce over. -/
theorem presence_edge (hchange : p.presentNow ≠ s.detectors.presenceMonitor.candidate) :
    l.Lawful t (s.presence metres p).2 ∧
      Agrees t (s.presence metres p).1 ((s.presence metres p).2.foldl Ledger.next l) := by
  have hsampled : s.clock ≤ s.clock + p.toSample := Nat.le_add_right _ _
  have hover : s.clock + p.toSample ≤ s.clock + p.toSample + p.toAlert + p.toAlertConfirm := by
    omega
  have hlater := h.mono (hsampled.trans hover)
  simp only [Loop.presence, notifyPresenceChanges_none (PresenceMonitor.onSample_edge hchange)]
  refine ⟨trivial, ?_, hlater.movement, hlater.sound⟩
  refine ⟨h.presence.debounce, h.presence.state, hlater.presence.past, ?_⟩
  intro _
  exact ⟨s.clock + p.toSample, rfl, hover, (h.presence.mono hsampled).past⟩

/-- A state that has held for the debounce is told, and its session starts without a position. -/
theorem presence_alert (hhold : p.presentNow = s.detectors.presenceMonitor.candidate)
    (hne : s.detectors.presenceMonitor.candidate ≠ s.detectors.presenceMonitor.notified)
    (hdue : s.detectors.presenceMonitor.debounceMs ≤
      WrapClock.read (s.clock + p.toSample) - s.detectors.presenceMonitor.candidateSinceMs) :
    l.Lawful t (s.presence metres p).2 ∧
      Agrees t (s.presence metres p).1 ((s.presence metres p).2.foldl Ledger.next l) := by
  have hsampled : s.clock ≤ s.clock + p.toSample := Nat.le_add_right _ _
  have hconfirmed : s.clock ≤ s.clock + p.toSample + p.toAlert + p.toAlertConfirm := by omega
  have hevent := PresenceMonitor.onSample_due hhold hne hdue
  have hspaced : ∀ edge ∈ l.edgeAt,
      edge + t.debounceMs.toNat ≤ s.clock + p.toSample + p.toAlert := by
    intro edge hedge
    exact (h.presence.debounced hsampled hne hdue edge hedge).trans (Nat.le_add_right _ _)
  have hwas : l.present = !p.presentNow := by
    rw [← h.presence.state, Bool.eq_not, hhold]
    exact hne.symm
  have hpresence := h.presence.alerted hhold
    (Nat.le_add_right (s.clock + p.toSample + p.toAlert) p.toAlertConfirm)
  have hsound := h.sound.mono hconfirmed
  cases hpresent : p.presentNow with
  | true =>
    rw [hpresent] at hevent hwas hpresence
    have hbaseline := h.movement.baseline
    rw [h.movement.absent hwas] at hbaseline
    simp only [Loop.presence, hpresent, notifyPresenceChanges_detected hevent]
    exact ⟨⟨⟨hwas, hspaced⟩, trivial⟩, hpresence, h.movement.restart rfl rfl hbaseline, hsound⟩
  | false =>
    rw [hpresent] at hevent hwas hpresence
    simp only [Loop.presence, hpresent, notifyPresenceChanges_cleared hevent]
    exact ⟨⟨⟨hwas, hspaced⟩, trivial⟩, hpresence, h.movement.restart rfl rfl rfl, hsound⟩

end presence

theorem keeps_presence : Keeps t (Loop.presence metres · p) := by
  intro s l h
  by_cases hhold : p.presentNow = s.detectors.presenceMonitor.candidate
  · by_cases hdue : s.detectors.presenceMonitor.candidate ≠ s.detectors.presenceMonitor.notified ∧
        s.detectors.presenceMonitor.debounceMs ≤
          WrapClock.read (s.clock + p.toSample) - s.detectors.presenceMonitor.candidateSinceMs
    · exact presence_alert metres p h hhold hdue.1 hdue.2
    · have hconfirmed : s.clock ≤ s.clock + p.toSample + p.toAlert + p.toAlertConfirm := by omega
      simp only [Loop.presence,
        notifyPresenceChanges_none (PresenceMonitor.onSample_quiet hhold hdue)]
      exact ⟨trivial, h.mono hconfirmed⟩
  · exact presence_edge metres p h hhold

/-- An update the tracker finds due is worth telling at any later time. -/
theorem MovementAgrees.worth {clock now : Nat} {d : DistanceTracker} {present : Bool}
    {base : Option (UInt16 × Nat)} (h : MovementAgrees t clock d present base) (hnow : clock ≤ now)
    {distanceCm : UInt16} (hcm : distanceCm ≠ 0) (hbaseline : d.hasBaseline = true)
    (hdelta : d.deltaCm ≤ DistanceTracker.gap distanceCm d.baselineCm)
    (hinterval : d.minIntervalMs ≤ WrapClock.read now - d.lastEventMs) {told : Nat}
    (htold : now ≤ told) : ∃ b ∈ base, Worth t b (distanceCm, told) := by
  obtain ⟨b, hb⟩ := Option.isSome_iff_exists.mp (h.baseline ▸ hbaseline)
  obtain ⟨hcm', seen, hread, hseen, hbefore⟩ := h.since b hb
  rw [h.delta, hcm', UInt16.le_iff_toNat_le, DistanceTracker.gap_toNat] at hdelta
  rw [h.interval, hread] at hinterval
  have helapsed := WrapClock.le_of_elapsed (hseen.trans hnow) hinterval
  refine ⟨b, hb, hcm, ?_, ?_⟩
  · show t.deltaCm.toNat ≤ ((distanceCm.toNat : Int) - b.1.toNat).natAbs
    omega
  · show b.2 + t.minIntervalMs.toNat ≤ told
    omega

section movement
variable {s : Loop} {l : Ledger} (h : Agrees t s l)
include h

/-- A pass that neither tells a move nor sets the first position changes nothing. -/
theorem movement_idle (hkept : l.next (.reading p.report.primaryDistanceCm (s.clock + p.toDistance)) = l)
    (hquiet : notifyMovement metres s.detectors p.report (WrapClock.read (s.clock + p.toDistance))
      (WrapClock.read (s.clock + p.toDistance + p.toMoved + p.toMovedConfirm)) =
        (s.detectors, none)) :
    l.Lawful t (s.movement metres p).2 ∧
      Agrees t (s.movement metres p).1 ((s.movement metres p).2.foldl Ledger.next l) := by
  have hlater : s.clock ≤ s.clock + p.toDistance + p.toMoved + p.toMovedConfirm := by omega
  simp only [Loop.movement, hquiet, Mark.stamp_none]
  refine ⟨⟨trivial, trivial⟩, ?_⟩
  simpa only [List.foldl_cons, List.foldl_nil, hkept] using h.mono hlater

/-- The first distance of a session becomes the position that moves are measured from. -/
theorem movement_first (hpresent : s.detectors.presenceMonitor.notified = true)
    (hcm : p.report.primaryDistanceCm ≠ 0)
    (hbaseline : s.detectors.distanceTracker.hasBaseline = false) :
    l.Lawful t (s.movement metres p).2 ∧
      Agrees t (s.movement metres p).1 ((s.movement metres p).2.foldl Ledger.next l) := by
  have hopen : l.present = true := h.presence.state.symm.trans hpresent
  have hover : s.clock + p.toDistance ≤
      s.clock + p.toDistance + p.toMoved + p.toMovedConfirm := by omega
  have hlater := h.mono (Nat.le_trans (Nat.le_add_right _ _) hover)
  have hbase : l.base = none := by
    rw [← Option.not_isSome_iff_eq_none, ← h.movement.baseline, hbaseline]
    exact Bool.false_ne_true
  have hset : l.next (.reading p.report.primaryDistanceCm (s.clock + p.toDistance)) =
      { l with base := some (p.report.primaryDistanceCm, s.clock + p.toDistance) } := by
    simp [Ledger.next, hopen, hbase, hcm]
  simp only [Loop.movement, Mark.stamp_none,
    notifyMovement_quiet hpresent (DistanceTracker.onDistance_first hcm hbaseline)]
  refine ⟨⟨trivial, trivial⟩, ?_⟩
  simp only [List.foldl_cons, List.foldl_nil, hset]
  refine ⟨hlater.presence, ?_, hlater.sound⟩
  refine ⟨h.movement.delta, h.movement.interval, rfl, ?_, ?_⟩
  · intro hclosed
    exact absurd (hclosed.symm.trans hopen) Bool.false_ne_true
  · intro b hb
    cases hb
    exact ⟨rfl, s.clock + p.toDistance, rfl, hover, Nat.le_refl _⟩

/-- An update is told, and its position is the one the next move is measured from. -/
theorem movement_update (hpresent : s.detectors.presenceMonitor.notified = true)
    (hcm : p.report.primaryDistanceCm ≠ 0)
    (hbaseline : s.detectors.distanceTracker.hasBaseline = true)
    (hkept : l.next (.reading p.report.primaryDistanceCm (s.clock + p.toDistance)) = l)
    (hdelta : s.detectors.distanceTracker.deltaCm ≤
      DistanceTracker.gap p.report.primaryDistanceCm s.detectors.distanceTracker.baselineCm)
    (hinterval : s.detectors.distanceTracker.minIntervalMs ≤
      WrapClock.read (s.clock + p.toDistance) - s.detectors.distanceTracker.lastEventMs) :
    l.Lawful t (s.movement metres p).2 ∧
      Agrees t (s.movement metres p).1 ((s.movement metres p).2.foldl Ledger.next l) := by
  have hopen : l.present = true := h.presence.state.symm.trans hpresent
  have hlater : s.clock ≤ s.clock + p.toDistance + p.toMoved + p.toMovedConfirm := by omega
  have hupdate : s.detectors.distanceTracker.onDistance p.report.primaryDistanceCm
      (WrapClock.read (s.clock + p.toDistance)) = (s.detectors.distanceTracker, true) := by
    rw [DistanceTracker.onDistance_later hcm hbaseline, decide_eq_true ⟨hdelta, hinterval⟩]
  have hworth := h.movement.worth (Nat.le_add_right _ _) hcm hbaseline hdelta hinterval
    (Nat.le_add_right (s.clock + p.toDistance) p.toMoved)
  simp only [Loop.movement, notifyMovement_update hpresent hupdate, Mark.stamp_some]
  refine ⟨⟨trivial, ?_, trivial⟩, ?_⟩
  · rw [hkept]
    exact ⟨hopen, hworth⟩
  · simp only [List.foldl_cons, List.foldl_nil, hkept]
    refine ⟨(h.mono hlater).presence, ?_, (h.mono hlater).sound⟩
    refine ⟨h.movement.delta, h.movement.interval, hbaseline, ?_, ?_⟩
    · intro hclosed
      exact absurd (hclosed.symm.trans hopen) Bool.false_ne_true
    · intro b hb
      cases hb
      exact ⟨rfl, _, rfl, Nat.le_refl _, Nat.le_add_right _ _⟩

end movement

theorem keeps_movement : Keeps t (Loop.movement metres · p) := by
  intro s l h
  cases hpresent : s.detectors.presenceMonitor.notified with
  | false =>
    apply movement_idle metres p h
    · have hclosed : l.present = false := h.presence.state.symm.trans hpresent
      simp [Ledger.next, hclosed]
    · exact notifyMovement_absent hpresent
  | true =>
    by_cases hcm : p.report.primaryDistanceCm = 0
    · apply movement_idle metres p h
      · simp [Ledger.next, hcm]
      · rw [notifyMovement_quiet hpresent (hcm ▸ DistanceTracker.onDistance_zero)]
    · cases hbaseline : s.detectors.distanceTracker.hasBaseline with
      | false => exact movement_first metres p h hpresent hcm hbaseline
      | true =>
        have hsome : l.base ≠ none :=
          Option.isSome_iff_ne_none.mp (h.movement.baseline.symm.trans hbaseline)
        have hkept : l.next (.reading p.report.primaryDistanceCm (s.clock + p.toDistance)) = l := by
          simp [Ledger.next, hsome]
        by_cases hdue : s.detectors.distanceTracker.deltaCm ≤
              DistanceTracker.gap p.report.primaryDistanceCm
                s.detectors.distanceTracker.baselineCm ∧
            s.detectors.distanceTracker.minIntervalMs ≤
              WrapClock.read (s.clock + p.toDistance) - s.detectors.distanceTracker.lastEventMs
        · exact movement_update metres p h hpresent hcm hbaseline hkept hdue.1 hdue.2
        · apply movement_idle metres p h hkept
          have hquiet : s.detectors.distanceTracker.onDistance p.report.primaryDistanceCm
              (WrapClock.read (s.clock + p.toDistance)) = (s.detectors.distanceTracker, false) := by
            rw [DistanceTracker.onDistance_later hcm hbaseline, decide_eq_false hdue]
          exact notifyMovement_quiet hpresent hquiet

theorem keeps_sound : Keeps t (Loop.sound · p) := by
  intro s l h
  have hconfirmed : s.clock ≤ s.clock + p.toLevel + p.toSound + p.toSoundConfirm := by omega
  have hlater := h.mono hconfirmed
  cases hnotify : s.detectors.soundDetector.shouldNotify p.mic.peakToPeak
      (WrapClock.read (s.clock + p.toLevel)) with
  | false =>
    simp only [Loop.sound, notifyLoudSounds_quiet hnotify]
    exact ⟨trivial, hlater⟩
  | true =>
    simp only [Loop.sound, notifyLoudSounds_alert hnotify]
    refine ⟨⟨?_, trivial⟩, hlater.presence, hlater.movement, h.sound.cooldown, ?_⟩
    · intro alerted halerted
      obtain ⟨hnotified, seen, hread, hseen, hbefore⟩ := h.sound.since alerted halerted
      have hcooled := (SoundDetector.shouldNotify_iff.mp hnotify).2 hnotified
      rw [h.sound.cooldown, hread] at hcooled
      have helapsed := WrapClock.le_of_elapsed (by omega) hcooled
      show alerted + t.soundCooldownMs.toNat ≤ s.clock + p.toLevel + p.toSound
      omega
    · intro alerted halerted
      cases halerted
      exact ⟨rfl, _, rfl, Nat.le_refl _, Nat.le_add_right _ _⟩

theorem keeps_pass : Keeps t (Loop.pass metres · p) :=
  (((keeps_calibration p).andThen (keeps_presence metres p)).andThen
    (keeps_movement metres p)).andThen (keeps_sound p)

theorem trace_lawful (t : Tuning) (passes : List Pass) :
    Ledger.Lawful t {} (Loop.trace metres t passes) :=
  Monitor.run_accepts (Agrees t) (fun s l p h => keeps_pass metres p s l h) (agrees_boot t) passes

/-- The discipline of every run of loop(): sessions are well formed, presence alerts are a
debounce apart, sound alerts a cooldown, and between two presence alerts the moves are
paced from the first distance seen. -/
theorem trace_disciplined (t : Tuning) (passes : List Pass) :
    let trace := Loop.trace metres t passes
    (∃ counts : List Nat, trace.filterMap Mark.kind <+: (counts.map session).flatten) ∧
    (trace.filterMap Mark.edge).IsChain (fun a b => a + t.debounceMs.toNat ≤ b) ∧
    (∀ before distanceCm time inside after,
      trace = before ++ .event .presence distanceCm time :: inside ++ after →
      inside.filterMap Mark.edge = [] → Paced t inside) ∧
    (trace.filterMap Mark.loud).IsChain (fun a b => a + t.soundCooldownMs.toNat ≤ b) := by
  intro trace
  have hlawful := trace_lawful metres t passes
  refine ⟨?_, Ledger.lawful_edges hlawful, ?_, Ledger.lawful_sounds hlawful⟩
  · obtain ⟨moves, counts, hword⟩ := Ledger.lawful_kinds hlawful
    exact ⟨counts, hword⟩
  · intro before distanceCm time inside after hsplit hedges
    have hsession : Ledger.Lawful t {} (before ++ (.event .presence distanceCm time :: inside)) := by
      have hall : Ledger.Lawful t {} trace := hlawful
      rw [hsplit] at hall
      exact (Monitor.accepts_append.mp hall).1
    have hinside := (Monitor.accepts_append.mp hsession).2.2
    exact Ledger.lawful_paced hedges hinside rfl rfl

/-- Someone comes in at 3 m, steps back, and leaves. -/
def visit : List Pass :=
  [{ presentNow := true, toSample := 1000 },
    { presentNow := true, report := ⟨1, 300, 0, 0, 0⟩, toSample := 2000, toDistance := 5 },
    { presentNow := true, report := ⟨1, 450, 0, 0, 0⟩, toDistance := 10000, toMoved := 3 },
    { toSample := 500 }, { toSample := 2000 }]

example : Loop.trace (fun _ => "") .config visit =
    [.reading 0 1000, .event .presence 300 3000, .reading 300 3005, .reading 450 13005,
      .event .moved 450 13008, .reading 0 13508, .event .cleared 0 15508, .reading 0 15508] := by
  decide

end RoomWatchdog.Notifications
