import RoomWatchdog.Net.Alerts
import RoomWatchdog.Telemetry.Readings

/-! The sensors and the alerts together: what stands in front of each event. -/

namespace RoomWatchdog.Causes
open Alerts (Short accepted)
open FlatJson (ascii parse)
open Ld2412 (IsReport Payload Report reportOf)
open Mic (level windowSamples)
open Notifications (Detectors Emission EventType personDetectedMessage radarDescribeTarget)
open Readings (FromMic FromRadar)

structure Node (depth messageMax : Nat) where
  sensors : Readings.Node := {}
  alerts : Alerts.Node depth messageMax

/-- A step up to what a task has been given by a sensor, or one of the loop task and the
delivery. -/
inductive Step where
  | sensors (step : Readings.Step)
  | alerts (step : Alerts.Step)

/-- The loop task has its report from radarReport and its window from micSampleWindow. -/
def Given (sensors : Readings.Node) : Alerts.Step → Prop
  | .notifyPresenceChanges _ report _ _ | .notifyMovement report _ _ =>
    report ∈ sensors.radar.published.observed.map Prod.snd
  | .notifyLoudSounds mic _ _ => mic ∈ sensors.mics
  | _ => True

instance (sensors : Readings.Node) : DecidablePred (Given sensors) := by
  intro a
  cases a <;> unfold Given <;> infer_instance

/-- The address in a notification takes at most fifteen characters. -/
def Step.Addressed : Step → Prop
  | .alerts (.notifyBootOnline localIP) => Short 15 localIP
  | _ => True

variable (room : Nat → Nat) (metres : UInt16 → String) (maxAttempts : UInt8)

def step {depth messageMax : Nat} (s : Node depth messageMax) :
    Step → Option (Node depth messageMax)
  | .sensors a => do
    let sensors ← s.sensors.step room a
    some { s with sensors }
  | .alerts a => do
    if Given s.sensors a then
      let alerts ← s.alerts.step metres maxAttempts a
      some { s with alerts }
    else none

/-- A report frame among the bytes has a target, and the text says where it is. -/
def Seen (consumed : List UInt8) (opening message : String) : Prop :=
  ∃ (u v : List UInt8) (d : Payload), Ld2412.Phase.Opens u ∧ consumed = u ++ d.frame ++ v ∧
    IsReport d.bytes ∧ (reportOf d.bytes).hasTarget = true ∧
      message = opening ++ radarDescribeTarget metres (reportOf d.bytes)

/-- A complete block of samples is as loud as the text says, and not quieter than the
threshold. -/
def Loud (threshold : Int) (heard : List (BitVec 12)) (message : String) : Prop :=
  ∃ k low high, let block := ((heard.drop (k * windowSamples)).take windowSamples).map level
    block.length = windowSamples ∧ block.min? = some low ∧ block.max? = some high ∧
      threshold ≤ high - low ∧ message = "Sound detected (level " ++ toString (high - low) ++ ")"

/-- What was there for an event. -/
def Caused (threshold : Int) (consumed : List UInt8) (heard : List (BitVec 12)) (e : Emission) :
    Prop :=
  match e.type with
  | .sound => Loud threshold heard e.message
  | .moved => Seen metres consumed "Person moved to " e.message
  | .presence => e.message = "Person detected" ∨
      Seen metres consumed "Person detected at " e.message
  | .cleared => e.message = "Presence cleared"
  | .boot => ∃ localIP, e.message = "Sensor node online: " ++ localIP
  | .calibration => e.message = Calibration.calibrationAlert.message

section causes
variable {metres} {threshold : Int} {consumed data : List UInt8} {heard : List (BitVec 12)}
  {window : LevelWindow} {e : Emission}

theorem Seen.later {opening message : String} (h : Seen metres consumed opening message)
    (more : List UInt8) : Seen metres (consumed ++ more) opening message := by
  obtain ⟨u, v, d, hu, hsplit, hreport, htarget, hmessage⟩ := h
  refine ⟨u, v ++ more, d, hu, ?_, hreport, htarget, hmessage⟩
  rw [hsplit, List.append_assoc _ v]

/-- Before the first frame there is no target. -/
theorem seen_of_target {opening : String} (hdata : FromRadar consumed data)
    (htarget : (reportOf data).hasTarget = true) :
    Seen metres consumed opening (opening ++ radarDescribeTarget metres (reportOf data)) := by
  obtain rfl | ⟨u, v, d, hu, hsplit, hreport, rfl⟩ := hdata
  · exact absurd htarget (by decide)
  · exact ⟨u, v, d, hu, hsplit, hreport, htarget, rfl⟩

theorem hasTarget_of_distance {report : Report} (h : report.primaryDistanceCm ≠ 0) :
    report.hasTarget = true := by
  rw [Report.hasTarget, bne_iff_ne]
  intro hnone
  apply h
  simp [Report.primaryDistanceCm, Report.isMoving, Report.isStationary, hnone]

/-- Silence stays under every threshold. -/
theorem loud_of_level (hthreshold : 0 < threshold) (hmic : FromMic heard window)
    (hlevel : threshold ≤ window.peakToPeak) :
    Loud threshold heard ("Sound detected (level " ++ toString window.peakToPeak ++ ")") := by
  obtain rfl | ⟨k, hlength, rfl⟩ := hmic
  · have hsilent : LevelWindow.peakToPeak {} = 0 := by decide
    rw [hsilent] at hlevel
    omega
  · have hne := Readings.block_ne_nil hlength
    obtain ⟨hmin, hmax⟩ := Mic.levels_eq hne
    rw [Mic.levels_peakToPeak hne] at hlevel ⊢
    exact ⟨k, _, _, by rw [List.length_map, hlength], hmin, hmax, hlevel, rfl⟩

theorem Loud.later {message : String} (h : Loud threshold heard message) (data : BitVec 12) :
    Loud threshold (heard ++ [data]) message := by
  obtain ⟨k, low, high, hlength, hmin, hmax, hlevel, hmessage⟩ := h
  rw [List.length_map] at hlength
  have hblock := Readings.block_later hlength data
  refine ⟨k, low, high, ?_, ?_, ?_, hlevel, hmessage⟩
  · rw [hblock, List.length_map, hlength]
  · rw [hblock, hmin]
  · rw [hblock, hmax]

theorem Caused.later (h : Caused metres threshold consumed heard e) (more : List UInt8) :
    Caused metres threshold (consumed ++ more) heard e := by
  unfold Caused at h ⊢
  split at h
  · exact h
  · exact h.later more
  · exact h.imp_right fun hseen => hseen.later more
  · exact h
  · exact h
  · exact h

theorem Caused.heard_later (h : Caused metres threshold consumed heard e) (data : BitVec 12) :
    Caused metres threshold consumed (heard ++ [data]) e := by
  unfold Caused at h ⊢
  split at h
  · exact h.later data
  · exact h
  · exact h
  · exact h
  · exact h
  · exact h

end causes

section alerts
open Notifications (notifyPresenceChanges notifyMovement notifyLoudSounds)
variable {metres} {threshold : Int} {consumed data : List UInt8} {heard : List (BitVec 12)}
  {d : Detectors} {report : Report} {mic : LevelWindow} {presentNow : Bool}
  {readMs confirmMs : UInt32} {e : Emission}

theorem caused_presence (hdata : FromRadar consumed data) (hreport : report = reportOf data)
    (he : (notifyPresenceChanges metres d presentNow report readMs confirmMs).2 = some e) :
    Caused metres threshold consumed heard e := by
  cases honSample : d.presenceMonitor.onSample presentNow readMs with
  | mk monitor event =>
    cases event with
    | none =>
      rw [Notifications.notifyPresenceChanges_none honSample] at he
      cases he
    | detected =>
      rw [Notifications.notifyPresenceChanges_detected honSample] at he
      obtain rfl := Option.some.inj he
      show personDetectedMessage metres report = _ ∨
        Seen metres consumed _ (personDetectedMessage metres report)
      cases htarget : report.hasTarget with
      | false =>
        left
        simp [personDetectedMessage, radarDescribeTarget, htarget]
      | true =>
        rw [personDetectedMessage]
        split_ifs
        · exact Or.inl rfl
        · rw [hreport] at htarget ⊢
          exact Or.inr (seen_of_target hdata htarget)
    | cleared =>
      rw [Notifications.notifyPresenceChanges_cleared honSample] at he
      obtain rfl := Option.some.inj he
      rfl

theorem caused_movement (hdata : FromRadar consumed data) (hreport : report = reportOf data)
    (he : (notifyMovement metres d report readMs confirmMs).2 = some e) :
    Caused metres threshold consumed heard e := by
  have hdistance : report.primaryDistanceCm ≠ 0 := by
    intro hzero
    cases hpresent : d.presenceMonitor.notified with
    | false =>
      rw [Notifications.notifyMovement_absent hpresent] at he
      cases he
    | true =>
      rw [Notifications.notifyMovement_quiet hpresent
        (hzero ▸ DistanceTracker.onDistance_zero)] at he
      cases he
  rw [notifyMovement] at he
  split_ifs at he
  simp only at he
  split_ifs at he
  obtain rfl := Option.some.inj he
  have htarget := hasTarget_of_distance hdistance
  rw [hreport] at htarget ⊢
  exact seen_of_target hdata htarget

theorem caused_sound (hthreshold : 0 < d.soundDetector.ppThreshold) (hmic : FromMic heard mic)
    (he : (notifyLoudSounds d mic readMs confirmMs).2 = some e) :
    Caused metres d.soundDetector.ppThreshold consumed heard e := by
  rw [notifyLoudSounds] at he
  split_ifs at he with hloud
  obtain rfl := Option.some.inj he
  exact loud_of_level hthreshold hmic (SoundDetector.shouldNotify_iff.mp hloud).1

/-! The detectors keep their threshold. -/

theorem ppThreshold_presence :
    (notifyPresenceChanges metres d presentNow report readMs
      confirmMs).1.soundDetector.ppThreshold = d.soundDetector.ppThreshold := by
  cases honSample : d.presenceMonitor.onSample presentNow readMs with
  | mk monitor event =>
    cases event with
    | none => rw [Notifications.notifyPresenceChanges_none honSample]
    | detected => rw [Notifications.notifyPresenceChanges_detected honSample]
    | cleared => rw [Notifications.notifyPresenceChanges_cleared honSample]

theorem ppThreshold_movement :
    (notifyMovement metres d report readMs confirmMs).1.soundDetector.ppThreshold =
      d.soundDetector.ppThreshold := by
  rw [notifyMovement]
  split_ifs
  · rfl
  · simp only
    split_ifs <;> rfl

theorem ppThreshold_sound :
    (notifyLoudSounds d mic readMs confirmMs).1.soundDetector.ppThreshold =
      d.soundDetector.ppThreshold := by
  rw [notifyLoudSounds]
  split_ifs <;> rfl

end alerts

namespace Node
variable {depth messageMax : Nat} [NeZero depth]

/-- Each event has had its cause. -/
structure Sound (threshold : Int) (s : Node depth messageMax) : Prop where
  sensors : s.sensors.Sound
  alerts : s.alerts.Sound maxAttempts
  ppThreshold : s.alerts.detectors.soundDetector.ppThreshold = threshold
  caused : ∀ e ∈ s.alerts.emitted,
    Caused metres threshold s.sensors.radar.consumed s.sensors.heard e

section steps
variable {room} {metres} {maxAttempts} {threshold : Int} {s t : Node depth messageMax}

theorem sound_sensors {a : Readings.Step} {sensors : Readings.Node}
    (hs : s.Sound metres maxAttempts threshold) (h : s.sensors.step room a = some sensors) :
    Sound metres maxAttempts threshold { s with sensors } := by
  have hgrow : (∃ more, sensors.radar.consumed = s.sensors.radar.consumed ++ more) ∧
      (sensors.heard = s.sensors.heard ∨ ∃ data, sensors.heard = s.sensors.heard ++ [data]) :=
    Readings.Node.step_grows room hs.sensors h
  obtain ⟨⟨more, hconsumed⟩, hheard⟩ := hgrow
  refine ⟨Readings.Node.sound_step room _ a _ h hs.sensors, hs.alerts, hs.ppThreshold, ?_⟩
  intro e he
  have hmore := (hs.caused e he).later more
  rw [← hconsumed] at hmore
  rcases hheard with hsame | ⟨data, hnext⟩
  · rw [hsame]
    exact hmore
  · rw [hnext]
    exact hmore.heard_later data

/-- An event that a function of the loop task hands out has its cause, and so have those
before it. -/
theorem sound_notify {result : Detectors × Option Emission} {alerts : Alerts.Node depth messageMax}
    (hs : s.Sound metres maxAttempts threshold)
    (hthreshold : result.1.soundDetector.ppThreshold = threshold)
    (hproper : ∀ e ∈ result.2, Alerts.Proper e)
    (hcaused : ∀ e ∈ result.2,
      Caused metres threshold s.sensors.radar.consumed s.sensors.heard e)
    (h : s.alerts.notify result = some alerts) :
    Sound metres maxAttempts threshold { s with alerts } := by
  have halerts := Alerts.Node.sound_notify hs.alerts hproper h
  obtain ⟨-, rfl⟩ := Alerts.Node.notify_cases h
  refine ⟨hs.sensors, halerts, hthreshold, ?_⟩
  intro e he
  rcases List.mem_append.mp he with hold | hnew
  · exact hs.caused e hold
  · exact hcaused e (Option.mem_toList.mp hnew)

/-- Behind alert and live nothing is made up. -/
theorem sound_later {alerts : Alerts.Node depth messageMax}
    (hs : s.Sound metres maxAttempts threshold) (halerts : alerts.Sound maxAttempts)
    (hdetectors : alerts.detectors = s.alerts.detectors)
    (hemitted : alerts.emitted = s.alerts.emitted) :
    Sound metres maxAttempts threshold { s with alerts } := by
  refine ⟨hs.sensors, halerts, ?_, ?_⟩
  · rw [← hs.ppThreshold, ← hdetectors]
  · intro e he
    rw [hemitted] at he
    exact hs.caused e he

theorem sound_alerts (hmetres : ∀ cm, Short 5 (metres cm)) (hlength : 1 < messageMax)
    (hthreshold : 0 < threshold) {a : Alerts.Step} {alerts : Alerts.Node depth messageMax}
    (haddress : (Step.alerts a).Addressed) (hgiven : Given s.sensors a)
    (hs : s.Sound metres maxAttempts threshold)
    (h : s.alerts.step metres maxAttempts a = some alerts) :
    Sound metres maxAttempts threshold { s with alerts } := by
  cases a with
  | notifyBootOnline localIP =>
    apply sound_notify hs hs.ppThreshold _ _ h
    · intro e he
      obtain rfl := Option.some.inj he
      exact Alerts.proper_boot haddress
    · intro e he
      obtain rfl := Option.some.inj he
      exact ⟨localIP, rfl⟩
  | pollCalibrationRequest =>
    apply sound_notify hs hs.ppThreshold _ _ h
    · intro e he
      obtain rfl := Option.some.inj he
      exact Alerts.proper_calibration
    · intro e he
      obtain rfl := Option.some.inj he
      rfl
  | notifyPresenceChanges presentNow report sampleMs confirmMs =>
    obtain ⟨data, hdata, hreport⟩ :=
      Readings.report_origin hs.sensors.tracks hs.sensors.faithful hgiven
    apply sound_notify hs (ppThreshold_presence.trans hs.ppThreshold) _ _ h
    · exact fun e he => Alerts.proper_presence hmetres he
    · exact fun e he => caused_presence hdata hreport he
  | notifyMovement report readMs confirmMs =>
    obtain ⟨data, hdata, hreport⟩ :=
      Readings.report_origin hs.sensors.tracks hs.sensors.faithful hgiven
    apply sound_notify hs (ppThreshold_movement.trans hs.ppThreshold) _ _ h
    · exact fun e he => Alerts.proper_movement hmetres he
    · exact fun e he => caused_movement hdata hreport he
  | notifyLoudSounds mic readMs confirmMs =>
    have hmic : FromMic s.sensors.heard mic := hs.sensors.mics mic hgiven
    obtain ⟨-, -, hlow, hhigh⟩ := hmic.bounds
    apply sound_notify hs (ppThreshold_sound.trans hs.ppThreshold) _ _ h
    · exact fun e he => Alerts.proper_sound (by omega) he
    · intro e he
      have hcaused := @caused_sound metres s.sensors.radar.consumed s.sensors.heard
        s.alerts.detectors mic readMs confirmMs e (hs.ppThreshold ▸ hthreshold) hmic he
      rwa [hs.ppThreshold] at hcaused
  | wsPublishEvent id availableForWrite uptimeMs =>
    have halerts := Alerts.Node.sound_wsPublishEvent hs.alerts h
    obtain ⟨e, -, rfl⟩ := Alerts.Node.wsPublishEvent_cases h
    exact sound_later hs halerts rfl rfl
  | queueGotify acquired =>
    have halerts := Alerts.Node.sound_queueGotify hlength hs.alerts h
    obtain ⟨e, delivery, -, -, rfl⟩ := Alerts.Node.queueGotify_cases h
    exact sound_later hs halerts rfl rfl
  | takeNextMessage =>
    have halerts := Alerts.Node.sound_takeNextMessage hs.alerts h
    obtain ⟨delivery, -, rfl⟩ := Alerts.Node.work_cases h
    exact sound_later hs halerts rfl rfl
  | wake =>
    have halerts := Alerts.Node.sound_wake hs.alerts h
    obtain ⟨delivery, -, rfl⟩ := Alerts.Node.work_cases h
    exact sound_later hs halerts rfl rfl
  | pushGotify attempt =>
    have halerts := Alerts.Node.sound_pushGotify hs.alerts h
    obtain ⟨delivery, -, rfl⟩ := Alerts.Node.pushGotify_cases h
    exact sound_later hs halerts rfl rfl
  | retry =>
    have halerts := Alerts.Node.sound_retry hs.alerts h
    obtain ⟨delivery, -, rfl⟩ := Alerts.Node.work_cases h
    exact sound_later hs halerts rfl rfl

theorem sound_step (hmetres : ∀ cm, Short 5 (metres cm)) (hlength : 1 < messageMax)
    (hthreshold : 0 < threshold) (a : Step) (ha : a.Addressed)
    (hs : s.Sound metres maxAttempts threshold) (h : step room metres maxAttempts s a = some t) :
    t.Sound metres maxAttempts threshold := by
  cases a with
  | sensors a =>
    obtain ⟨sensors, hsensors, hnew⟩ := Option.bind_eq_some_iff.mp h
    obtain rfl := Option.some.inj hnew
    exact sound_sensors hs hsensors
  | alerts a =>
    obtain ⟨hgiven, hrest⟩ := Option.ite_none_right_eq_some.mp h
    obtain ⟨alerts, halerts, hnew⟩ := Option.bind_eq_some_iff.mp hrest
    obtain rfl := Option.some.inj hnew
    exact sound_alerts hmetres hlength hthreshold ha hgiven hs halerts

theorem sound_exec (hmetres : ∀ cm, Short 5 (metres cm)) (hlength : 1 < messageMax)
    (hthreshold : 0 < threshold) {steps : List Step} (hsteps : ∀ a ∈ steps, a.Addressed)
    (hs : s.Sound metres maxAttempts threshold)
    (h : Guarded.exec (step room metres maxAttempts) s steps = some t) :
    t.Sound metres maxAttempts threshold := by
  induction steps generalizing s with
  | nil =>
    obtain rfl := Option.some.inj h
    exact hs
  | cons a steps ih =>
    obtain ⟨u, hstep, hrest⟩ := Guarded.exec_cons.mp h
    apply ih (fun b hb => hsteps b (List.mem_cons_of_mem a hb)) _ hrest
    exact sound_step hmetres hlength hthreshold a (hsteps a List.mem_cons_self) hs hstep

end steps

/-- No alert without a cause. Whatever comes in on the UART and from the microphone, and however
the tasks are interleaved with the delivery: each body that the server took and each frame of an
event, read as JSON, is of an event that had its cause. A sound was in a complete block of samples
that reached the threshold, and the level in the text is that of the block; somebody seen or
moved was in a checked report frame with a target, and the text says where that frame has it. -/
theorem alerts_caused (hmetres : ∀ cm, Short 5 (metres cm)) (created : Bool)
    (garbage : Vector UInt8 Config.gotifyMessageMax) (tuning : Notifications.Tuning)
    (hthreshold : 0 < tuning.soundPpThreshold) (steps : List Step)
    (hsteps : ∀ a ∈ steps, a.Addressed)
    (s : Node Config.gotifyQueueDepth Config.gotifyMessageMax)
    (h : Guarded.exec (step room metres Config.gotifyMaxAttempts)
      { alerts := .gotifyBegin created garbage tuning } steps = some s) :
    (∀ post ∈ s.alerts.posts, accepted post.2 → ∃ e,
      parse post.1 = some (Document.push (ascii e.message)).meaning ∧ e.type ≠ .moved ∧
        Caused metres tuning.soundPpThreshold s.sensors.radar.consumed s.sensors.heard e) ∧
    ∀ frame ∈ s.alerts.frames, ∃ (e : Emission) (uptimeMs : UInt32),
      parse frame = some (Document.event e.type (ascii e.message) uptimeMs).meaning ∧
        Caused metres tuning.soundPpThreshold s.sensors.radar.consumed s.sensors.heard e := by
  have : NeZero Config.gotifyQueueDepth := ⟨by decide⟩
  have hboot : Sound metres Config.gotifyMaxAttempts tuning.soundPpThreshold
      { alerts := .gotifyBegin created garbage tuning :
        Node Config.gotifyQueueDepth Config.gotifyMessageMax } :=
    ⟨Readings.Node.sound_boot, Alerts.Node.sound_begin created garbage tuning, rfl, nofun⟩
  have hs := sound_exec hmetres (by decide) hthreshold hsteps hboot h
  constructor
  · intro post hpost haccepted
    obtain ⟨shown, hshown, hdelivered⟩ := Alerts.Node.delivered_alerts hs.alerts (by decide)
    have hbody : post.1 ∈ shown.map fun e => gotifyBody (ascii e.message) := by
      have htaken : post ∈ s.alerts.posts.filter fun post => accepted post.2 :=
        List.mem_filter.mpr ⟨hpost, haccepted⟩
      have hbodies := List.mem_map_of_mem (f := Prod.fst) htaken
      rwa [hs.alerts.posted, hdelivered, List.map_map] at hbodies
    obtain ⟨e, he, hbody⟩ := List.mem_map.mp hbody
    obtain ⟨hemitted, hpushed⟩ := List.mem_filter.mp (hshown.subset he)
    refine ⟨e, ?_, ?_, hs.caused e hemitted⟩
    · rw [← hbody]
      exact parse_gotifyBody _
    · have hmove := (hs.alerts.proper e hemitted).1
      rw [hpushed] at hmove
      exact of_decide_eq_true hmove.symm
  · intro frame hframe
    obtain ⟨before, events, hemitted, hevents, hframes⟩ := hs.alerts.published
    rw [hframes] at hframe
    obtain ⟨⟨e, uptimeMs⟩, he, rfl⟩ := List.mem_map.mp hframe
    have hbefore : e ∈ before := hevents.subset (List.mem_map_of_mem (f := Prod.fst) he)
    refine ⟨e, uptimeMs, parse_eventJson _ _ _, hs.caused e ?_⟩
    rw [hemitted]
    exact List.mem_append_left _ hbefore

/-- A report frame, and the radar's pin for as long as the debounce asks for. -/
def somebodyComes : List Step :=
  let frame : List Radar.Action := .receive Radar.movingFrame ::
    (List.replicate 19 .feed ++ List.replicate 5 .store ++ [.publish, .radarReport])
  let report : Report := { targetState := 1, movingDistanceCm := 80, movingEnergy := 50 }
  frame.map (fun action => .sensors (.radar action)) ++
    [.alerts (.notifyPresenceChanges true report 1000 1000),
      .alerts (.notifyPresenceChanges true report 3000 3000),
      .alerts (.wsPublishEvent 7 true 3000), .alerts (.queueGotify true),
      .alerts .takeNextMessage, .alerts (.pushGotify ⟨true, true, 200, 3500⟩)]

theorem somebody_comes_caused :
    ∃ (s : Node Config.gotifyQueueDepth Config.gotifyMessageMax) (post : List UInt8 × Int)
      (e : Emission),
      Guarded.exec (step id (fun _ => "0.8") Config.gotifyMaxAttempts)
        { alerts := .gotifyBegin true (.replicate _ 7) .config } somebodyComes = some s ∧
      s.alerts.posts = [post] ∧ parse post.1 = some (Document.push (ascii e.message)).meaning ∧
      Caused (fun _ => "0.8") 1600 s.sensors.radar.consumed s.sensors.heard e := by
  have hseen : ∃ s ∈ Guarded.exec (step id (fun _ => "0.8") Config.gotifyMaxAttempts)
      ({ alerts := .gotifyBegin true (.replicate _ 7) .config } :
        Node Config.gotifyQueueDepth Config.gotifyMessageMax) somebodyComes,
      s.alerts.posts.length = 1 ∧ ∀ post ∈ s.alerts.posts, accepted post.2 = true := by
    decide +kernel
  obtain ⟨s, hrun, hone, haccepted⟩ := hseen
  obtain ⟨post, hpost⟩ := List.length_eq_one_iff.mp hone
  have hmem : post ∈ s.alerts.posts := by
    rw [hpost]
    exact List.mem_singleton_self post
  have haddressed : ∀ a ∈ somebodyComes, a.Addressed := by
    simp [somebodyComes, Step.Addressed]
  obtain ⟨hposts, -⟩ := alerts_caused id (fun _ => "0.8") (fun _ => by decide) true
    (.replicate _ 7) .config (by decide) somebodyComes haddressed s hrun
  obtain ⟨e, hparse, -, hcaused⟩ := hposts post hmem (haccepted post hmem)
  exact ⟨s, post, e, hrun, hpost, hparse, hcaused⟩

end Node

end RoomWatchdog.Causes
