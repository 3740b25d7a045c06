import RoomWatchdog.JsonEscape
import RoomWatchdog.Net.Backoff
import RoomWatchdog.Net.Conservation
import RoomWatchdog.Radar.Calibration
import RoomWatchdog.Telemetry.Documents

namespace RoomWatchdog.Net.Delivery
open NotificationQueue (cString)

section delivered
variable {depth messageMax : Nat} {maxAttempts : UInt8} {s t : Delivery depth messageMax}

/-- Another attempt with the message at hand. -/
theorem delivered_extend {job job' : Job} {text : List UInt8} {ok : Bool} (hjob : s.job = some job)
    (hnew : t.jobs ++ t.job.toList = s.jobs ++ [job'])
    (hattempts : job'.attempts = job.attempts ++ [(text, ok)]) :
    t.delivered = s.delivered ++ (if ok then [text] else []) := by
  simp only [delivered]
  rw [hnew, hjob]
  simp only [Option.toList_some, List.flatMap_append, List.flatMap_singleton, hattempts,
    List.filterMap_append, List.append_assoc]
  cases ok <;> rfl

theorem delivered_pushGotify {ok : Bool} (h : s.pushGotify maxAttempts ok = some t) :
    t.delivered = s.delivered ++ (if ok then [cString s.message] else []) := by
  obtain ⟨attempt, job, -, hjob, ⟨-, rfl⟩ | ⟨-, -, rfl⟩ | ⟨-, -, rfl⟩⟩ := pushGotify_cases h
  · exact delivered_extend hjob (List.append_nil _) rfl
  · exact delivered_extend hjob (List.append_nil _) rfl
  · exact delivered_extend hjob rfl rfl

theorem delivered_queueGotify {message : CString} {acquired : Bool}
    (h : s.queueGotify message acquired = some t) : t.delivered = s.delivered := by
  obtain ⟨-, rfl⟩ | ⟨-, -, rfl⟩ | ⟨-, -, pending, kept, -, rfl⟩ := queueGotify_cases h <;> rfl

/-- A message that was just taken has not been delivered. -/
theorem delivered_takeNextMessage (hjob : s.job = none) (h : s.takeNextMessage = some t) :
    t.delivered = s.delivered := by
  obtain ⟨-, ⟨-, rfl⟩ | ⟨-, pending, message, -, rfl⟩⟩ := takeNextMessage_cases h
  · rfl
  · simp [delivered, hjob]

theorem delivered_wake (h : s.wake = some t) : t.delivered = s.delivered := by
  obtain ⟨-, rfl⟩ := wake_cases h
  rfl

theorem delivered_retry (h : s.retry = some t) : t.delivered = s.delivered := by
  obtain ⟨attempt, -, rfl⟩ := retry_cases h
  rfl

end delivered

end RoomWatchdog.Net.Delivery

namespace RoomWatchdog.Alerts
open FlatJson (ascii parse)
open Ld2412 (Report)
open Net (Attempt Delivery)
open Notifications (Detectors Emission)
open NotificationQueue (cString)

/-- Where the loop task stands: in alert or live in front of wsPublishEvent, in alert in front of
queueGotify, or elsewhere. -/
inductive Place where
  | passing
  | publishing (emission : Emission)
  | queueing (emission : Emission)

/-- The loop task and the delivery, and from `emitted` on what went out: the calls of alert and
live, the frames handed to the socket, and the bodies posted with their status codes. -/
structure Node (depth messageMax : Nat) where
  detectors : Detectors
  place : Place := .passing
  delivery : Delivery depth messageMax
  emitted : List Emission := []
  frames : List (List UInt8) := []
  posts : List (List UInt8 × Int) := []

/-- A step of the loop task, which may come to its functions in any order, or of the worker.
pollCalibrationRequest is one that finds the flag set. -/
inductive Step where
  | notifyBootOnline (localIP : String)
  | pollCalibrationRequest
  | notifyPresenceChanges (presentNow : Bool) (report : Report) (sampleMs confirmMs : UInt32)
  | notifyMovement (report : Report) (readMs confirmMs : UInt32)
  | notifyLoudSounds (mic : LevelWindow) (readMs confirmMs : UInt32)
  | wsPublishEvent (id : UInt32) (availableForWrite : Bool) (uptimeMs : UInt32)
  | queueGotify (acquired : Bool)
  | takeNextMessage
  | wake
  | pushGotify (attempt : Attempt)
  | retry

def bootAlert (localIP : String) : Emission :=
  Notifications.alert .boot ("Sensor node online: " ++ localIP)

/-- message.c_str() -/
def messageText (e : Emission) : CString := ⟨ascii e.message ++ [0], by simp⟩

/-- `code >= 200 && code < 300` -/
def accepted (code : Int) : Bool := 200 ≤ code && code < 300

variable (metres : UInt16 → String) (maxAttempts : UInt8)

namespace Node
variable {depth messageMax : Nat}

/-- setup() behind gotifyBegin. -/
def gotifyBegin (created : Bool) (garbage : Vector UInt8 messageMax)
    (tuning : Notifications.Tuning) : Node depth messageMax where
  detectors := .boot tuning
  delivery := .gotifyBegin created garbage

/-- A function of the loop task up to its call of alert or live, if it comes to one. -/
def notify (s : Node depth messageMax) (result : Detectors × Option Emission) :
    Option (Node depth messageMax) :=
  match s.place with
  | .passing => some { s with
      detectors := result.1
      place := result.2.elim .passing .publishing
      emitted := s.emitted ++ result.2.toList }
  | .publishing _ | .queueing _ => none

def wsPublishEvent (s : Node depth messageMax) (id : UInt32) (availableForWrite : Bool)
    (uptimeMs : UInt32) : Option (Node depth messageMax) :=
  match s.place with
  | .publishing e => some { s with
      place := if e.pushed then .queueing e else .passing
      frames := s.frames ++
        (RoomWatchdog.wsPublishEvent id availableForWrite e.type (ascii e.message)
          uptimeMs).toList }
  | .passing | .queueing _ => none

def queueGotify (s : Node depth messageMax) (acquired : Bool) : Option (Node depth messageMax) :=
  match s.place with
  | .queueing e => do
    let delivery ← s.delivery.queueGotify (messageText e) acquired
    some { s with delivery, place := .passing }
  | .passing | .publishing _ => none

/-- What the worker does with the queue alone. -/
def work (s : Node depth messageMax) (delivery : Option (Delivery depth messageMax)) :
    Option (Node depth messageMax) := do
  let delivery ← delivery
  some { s with delivery }

/-- One call of pushGotify, which posts its body unless it ends before. -/
def pushGotify (s : Node depth messageMax) (attempt : Attempt) :
    Option (Node depth messageMax) := do
  let delivery ← s.delivery.pushGotify maxAttempts (Net.pushGotify {} attempt).2
  let post := (gotifyBody (cString s.delivery.message), attempt.code)
  some { s with
    delivery
    posts := s.posts ++ (if attempt.connected && attempt.began then [post] else []) }

def step (s : Node depth messageMax) : Step → Option (Node depth messageMax)
  | .notifyBootOnline localIP => s.notify (s.detectors, some (bootAlert localIP))
  | .pollCalibrationRequest => s.notify (s.detectors, some Calibration.calibrationAlert)
  | .notifyPresenceChanges presentNow report sampleMs confirmMs => s.notify
      (Notifications.notifyPresenceChanges metres s.detectors presentNow report sampleMs confirmMs)
  | .notifyMovement report readMs confirmMs => s.notify
      (Notifications.notifyMovement metres s.detectors report readMs confirmMs)
  | .notifyLoudSounds mic readMs confirmMs => s.notify
      (Notifications.notifyLoudSounds s.detectors mic readMs confirmMs)
  | .wsPublishEvent id availableForWrite uptimeMs => s.wsPublishEvent id availableForWrite uptimeMs
  | .queueGotify acquired => s.queueGotify acquired
  | .takeNextMessage => s.work s.delivery.takeNextMessage
  | .wake => s.work s.delivery.wake
  | .pushGotify attempt => s.pushGotify maxAttempts attempt
  | .retry => s.work s.delivery.retry

end Node

/-! The texts of the alerts, and that the queue's slots hold them whole. -/

/-- A text of at most `length` bytes with no NUL among them. -/
def Short (length : Nat) (text : String) : Prop := (ascii text).length ≤ length ∧ 0 ∉ ascii text

instance (length : Nat) (text : String) : Decidable (Short length text) :=
  inferInstanceAs (Decidable (_ ∧ _))

theorem Short.append {m n : Nat} {text text' : String} (h : Short m text) (h' : Short n text') :
    Short (m + n) (text ++ text') := by
  rw [Short, FlatJson.ascii_append, List.length_append, List.mem_append]
  exact ⟨Nat.add_le_add h.1 h'.1, not_or.mpr ⟨h.2, h'.2⟩⟩

theorem Short.mono {m n : Nat} {text : String} (h : Short m text) (hle : m ≤ n) : Short n text :=
  ⟨Nat.le_trans h.1 hle, h.2⟩

/-- An int takes at most eleven characters. -/
theorem short_int {z : Int} (h : z.natAbs ≤ 2 ^ 31) : Short 11 (toString z) := by
  rw [Short, FlatJson.ascii_toString]
  have hdigits : ∀ n : Nat, 0 ∉ Decimal.natural n := by
    intro n hzero
    exact absurd (Decimal.isDigit_of_mem hzero) (by decide)
  constructor
  · exact Decimal.write_length_le (by decide) (Nat.lt_of_le_of_lt h (by decide))
  · cases z with
    | ofNat n => exact hdigits n
    | negSucc n =>
      intro hzero
      rcases List.mem_cons.mp hzero with hsign | hdigit
      · cases hsign
      · exact hdigits _ hdigit

/-- What the platform renders: an address in at most fifteen characters, and a level that is an
int. -/
def Step.Rendered : Step → Prop
  | notifyBootOnline localIP => Short 15 localIP
  | notifyLoudSounds mic _ _ => mic.peakToPeak.natAbs ≤ 2 ^ 31
  | _ => True

/-- An event that is pushed unless it is a move, with a text that fits a slot of the queue. -/
def Proper (e : Emission) : Prop := e.pushed = decide (e.type ≠ .moved) ∧ Short 64 e.message

theorem proper_boot {localIP : String} (h : Short 15 localIP) : Proper (bootAlert localIP) :=
  ⟨rfl, ((by decide : Short 20 "Sensor node online: ").append h).mono (by decide)⟩

theorem proper_calibration : Proper Calibration.calibrationAlert := ⟨rfl, by decide⟩

section texts
variable {metres} (hmetres : ∀ cm, Short 5 (metres cm))
include hmetres

theorem short_target (report : Report) :
    Short 15 (Notifications.radarDescribeTarget metres report) := by
  rw [Notifications.radarDescribeTarget]
  split_ifs
  · decide
  · exact (((hmetres _).append (by decide : Short 1 "m")).append
      (by decide : Short 9 " (moving)")).mono (by decide)
  · exact (((hmetres _).append (by decide : Short 1 "m")).append
      (by decide : Short 8 " (still)")).mono (by decide)

theorem proper_presence {d : Detectors} {presentNow : Bool} {report : Report}
    {sampleMs confirmMs : UInt32} {e : Emission}
    (he : (Notifications.notifyPresenceChanges metres d presentNow report sampleMs confirmMs).2 =
      some e) : Proper e := by
  cases honSample : d.presenceMonitor.onSample presentNow sampleMs with
  | mk monitor event =>
    cases event with
    | none =>
      rw [Notifications.notifyPresenceChanges_none honSample] at he
      cases he
    | detected =>
      rw [Notifications.notifyPresenceChanges_detected honSample] at he
      obtain rfl := Option.some.inj he
      refine ⟨rfl, ?_⟩
      show Short 64 (Notifications.personDetectedMessage metres report)
      rw [Notifications.personDetectedMessage]
      split_ifs
      · decide
      · exact ((by decide : Short 19 "Person detected at ").append
          (short_target hmetres report)).mono (by decide)
    | cleared =>
      rw [Notifications.notifyPresenceChanges_cleared honSample] at he
      obtain rfl := Option.some.inj he
      exact ⟨rfl, by decide⟩

theorem proper_movement {d : Detectors} {report : Report} {readMs confirmMs : UInt32}
    {e : Emission}
    (he : (Notifications.notifyMovement metres d report readMs confirmMs).2 = some e) :
    Proper e := by
  rw [Notifications.notifyMovement] at he
  split_ifs at he
  simp only at he
  split_ifs at he
  obtain rfl := Option.some.inj he
  exact ⟨rfl, ((by decide : Short 16 "Person moved to ").append
    (short_target hmetres report)).mono (by decide)⟩

omit hmetres in
theorem proper_sound {d : Detectors} {mic : LevelWindow} {readMs confirmMs : UInt32}
    (hlevel : mic.peakToPeak.natAbs ≤ 2 ^ 31) {e : Emission}
    (he : (Notifications.notifyLoudSounds d mic readMs confirmMs).2 = some e) : Proper e := by
  rw [Notifications.notifyLoudSounds] at he
  split_ifs at he
  obtain rfl := Option.some.inj he
  exact ⟨rfl, (((by decide : Short 22 "Sound detected (level ").append
    (short_int hlevel)).append (by decide : Short 1 ")")).mono (by decide)⟩

end texts

/-! Where an event stands while the loop task hands it out, and what follows it. -/

namespace Place

/-- The event that has not been to wsPublishEvent yet. -/
def unpublished : Place → List Emission
  | publishing e => [e]
  | passing | queueing _ => []

/-- The event whose alert is not over. -/
def inFlight : Place → List Emission
  | publishing e | queueing e => [e]
  | passing => []

end Place

/-- The events that alert hands to queueGotify. -/
def alerts (emitted : List Emission) : List Emission := emitted.filter Emission.pushed

namespace Node
variable {depth messageMax : Nat} [NeZero depth]

/-- A node without the worker's semaphores or task. -/
def Disabled (s : Delivery depth messageMax) : Prop :=
  s.queueLock = false ∧ s.worker = .absent ∧ s.delivered = []

/-- The frames and the queue follow the events in order, and what the server took is what was
delivered. -/
structure Sound (maxAttempts : UInt8) (s : Node depth messageMax) : Prop where
  published : ∃ (before : List Emission) (events : List (Emission × UInt32)),
    s.emitted = before ++ s.place.unpublished ∧ (events.map Prod.fst).Sublist before ∧
      s.frames = events.map fun (e, uptimeMs) => eventJson e.type (ascii e.message) uptimeMs
  queued : ∃ before queued : List Emission,
    s.emitted = before ++ s.place.inFlight ∧ queued.Sublist (alerts before) ∧
      s.delivery.accepted = queued.map messageText ∧ s.delivery.calls = (alerts before).length
  posted : (s.posts.filter fun post => accepted post.2).map Prod.fst =
    s.delivery.delivered.map gotifyBody
  proper : ∀ e ∈ s.emitted, Proper e
  pushed : ∀ e, s.place = .queueing e → e.pushed = true
  delivery : (∃ f, Delivery.Conserved maxAttempts s.delivery f) ∨ Disabled s.delivery

section steps
variable {metres} {maxAttempts} {s t : Node depth messageMax}

theorem sound_begin (created : Bool) (garbage : Vector UInt8 messageMax)
    (tuning : Notifications.Tuning) :
    Sound maxAttempts (gotifyBegin created garbage tuning : Node depth messageMax) where
  published := ⟨[], [], rfl, List.Sublist.refl _, rfl⟩
  queued := ⟨[], [], rfl, List.Sublist.refl _, rfl, rfl⟩
  posted := rfl
  proper := by
    intro e he
    cases he
  pushed := nofun
  delivery := by
    cases created with
    | true => exact Or.inl ⟨{}, Delivery.conserved_begin garbage⟩
    | false => exact Or.inr ⟨rfl, rfl, rfl⟩

omit [NeZero depth] in
theorem notify_cases {result : Detectors × Option Emission} (h : s.notify result = some t) :
    s.place = .passing ∧ { s with
      detectors := result.1
      place := result.2.elim .passing .publishing
      emitted := s.emitted ++ result.2.toList } = t := by
  simp only [notify] at h
  split at h
  next hplace => exact ⟨hplace, Option.some.inj h⟩
  · cases h
  · cases h

theorem sound_notify (hs : s.Sound maxAttempts) {result : Detectors × Option Emission}
    (hproper : ∀ e ∈ result.2, Proper e)
    (h : s.notify result = some t) : t.Sound maxAttempts := by
  obtain ⟨hplace, rfl⟩ := notify_cases h
  obtain ⟨before, events, hemitted, hevents, hframes⟩ := hs.published
  obtain ⟨before', queued, hemitted', hqueued, haccepted, hcalls⟩ := hs.queued
  rw [hplace, Place.unpublished, List.append_nil] at hemitted
  rw [hplace, Place.inFlight, List.append_nil] at hemitted'
  have hunpublished : ∀ e : Option Emission,
      (e.elim .passing Place.publishing).unpublished = e.toList ∧
        (e.elim .passing Place.publishing).inFlight = e.toList := by
    intro e
    cases e <;> exact ⟨rfl, rfl⟩
  refine ⟨⟨before, events, ?_, hevents, hframes⟩, ⟨before', queued, ?_, hqueued, haccepted, hcalls⟩,
    hs.posted, ?_, ?_, hs.delivery⟩
  · rw [(hunpublished _).1, hemitted]
  · rw [(hunpublished _).2, hemitted']
  · intro e he
    rcases List.mem_append.mp he with hold | hnew
    · exact hs.proper e hold
    · exact hproper e (Option.mem_toList.mp hnew)
  · intro e he
    cases hresult : result.2 <;> rw [hresult] at he <;> cases he

omit [NeZero depth] in
theorem wsPublishEvent_cases {id uptimeMs : UInt32} {availableForWrite : Bool}
    (h : s.wsPublishEvent id availableForWrite uptimeMs = some t) :
    ∃ e, s.place = .publishing e ∧ { s with
      place := if e.pushed then .queueing e else .passing
      frames := s.frames ++
        (RoomWatchdog.wsPublishEvent id availableForWrite e.type (ascii e.message)
          uptimeMs).toList } = t := by
  simp only [wsPublishEvent] at h
  split at h
  next e hplace => exact ⟨e, hplace, Option.some.inj h⟩
  · cases h
  · cases h

omit [NeZero depth] in
theorem queueGotify_cases {acquired : Bool} (h : s.queueGotify acquired = some t) :
    ∃ e delivery, s.place = .queueing e ∧
      s.delivery.queueGotify (messageText e) acquired = some delivery ∧
      { s with delivery, place := .passing } = t := by
  simp only [queueGotify] at h
  split at h
  next e hplace =>
    obtain ⟨delivery, hqueue, hnew⟩ := Option.bind_eq_some_iff.mp h
    exact ⟨e, delivery, hplace, hqueue, Option.some.inj hnew⟩
  · cases h
  · cases h

omit [NeZero depth] in
theorem work_cases {delivery : Option (Delivery depth messageMax)} (h : s.work delivery = some t) :
    ∃ d, delivery = some d ∧ { s with delivery := d } = t := by
  obtain ⟨d, hd, hnew⟩ := Option.bind_eq_some_iff.mp h
  exact ⟨d, hd, Option.some.inj hnew⟩

omit [NeZero depth] in
theorem pushGotify_cases {attempt : Attempt} (h : s.pushGotify maxAttempts attempt = some t) :
    ∃ delivery, s.delivery.pushGotify maxAttempts attempt.ok = some delivery ∧ { s with
      delivery
      posts := s.posts ++ (if attempt.connected && attempt.began then
        [(gotifyBody (cString s.delivery.message), attempt.code)] else []) } = t := by
  obtain ⟨delivery, hpush, hnew⟩ := Option.bind_eq_some_iff.mp h
  rw [Net.pushGotify_eq] at hpush
  exact ⟨delivery, hpush, Option.some.inj hnew⟩

theorem sound_wsPublishEvent {id uptimeMs : UInt32} {availableForWrite : Bool}
    (hs : s.Sound maxAttempts) (h : s.wsPublishEvent id availableForWrite uptimeMs = some t) :
    t.Sound maxAttempts := by
  obtain ⟨e, hplace, rfl⟩ := wsPublishEvent_cases h
  obtain ⟨before, events, hemitted, hevents, hframes⟩ := hs.published
  obtain ⟨before', queued, hemitted', hqueued, haccepted, hcalls⟩ := hs.queued
  rw [hplace] at hemitted hemitted'
  refine ⟨?_, ?_, hs.posted, hs.proper, ?_, hs.delivery⟩
  · have hunpublished : (if e.pushed then Place.queueing e else .passing).unpublished = [] := by
      split_ifs <;> rfl
    rw [hunpublished]
    cases hframe : RoomWatchdog.wsPublishEvent id availableForWrite e.type (ascii e.message)
        uptimeMs with
    | none =>
      refine ⟨s.emitted, events, (List.append_nil _).symm, ?_, ?_⟩
      · rw [hemitted]
        exact hevents.trans (List.sublist_append_left _ _)
      · rw [Option.toList_none, List.append_nil]
        exact hframes
    | some frame =>
      have htext : frame = eventJson e.type (ascii e.message) uptimeMs := by
        rw [RoomWatchdog.wsPublishEvent] at hframe
        exact (Option.some.inj (Option.ite_none_left_eq_some.mp hframe).2).symm
      refine ⟨s.emitted, events ++ [(e, uptimeMs)], (List.append_nil _).symm, ?_, ?_⟩
      · rw [hemitted, List.map_append]
        exact hevents.append (List.Sublist.refl [e])
      · rw [List.map_append, ← hframes, htext]
        rfl
  · cases hpushed : e.pushed with
    | true => exact ⟨before', queued, hemitted', hqueued, haccepted, hcalls⟩
    | false =>
      have hquiet : alerts (before' ++ [e]) = alerts before' := by
        simp [alerts, hpushed]
      refine ⟨before' ++ [e], queued, ?_, ?_, haccepted, ?_⟩
      · rw [if_neg (by decide), Place.inFlight, List.append_nil]
        exact hemitted'
      · rw [hquiet]
        exact hqueued
      · rw [hquiet]
        exact hcalls
  · intro e' hqueueing
    split_ifs at hqueueing with hpushed
    obtain rfl := Place.queueing.inj hqueueing
    exact hpushed

/-- An alert is over when queueGotify is, whatever came of it. -/
theorem sound_queueGotify (hlength : 1 < messageMax) {acquired : Bool} (hs : s.Sound maxAttempts)
    (h : s.queueGotify acquired = some t) : t.Sound maxAttempts := by
  obtain ⟨e, delivery, hplace, hqueue, rfl⟩ := queueGotify_cases h
  obtain ⟨before, events, hemitted, hevents, hframes⟩ := hs.published
  obtain ⟨before', queued, hemitted', hqueued, haccepted, hcalls⟩ := hs.queued
  rw [hplace] at hemitted hemitted'
  have hpushed := hs.pushed e hplace
  have halerts : alerts (before' ++ [e]) = alerts before' ++ [e] := by
    simp [alerts, hpushed]
  have hlater : queued.Sublist (alerts (before' ++ [e])) := by
    rw [halerts]
    exact hqueued.trans (List.sublist_append_left _ _)
  refine ⟨⟨before, events, hemitted, hevents, hframes⟩, ?_, ?_, hs.proper, nofun, ?_⟩
  · have hemitted'' : s.emitted = before' ++ [e] ++ Place.passing.inFlight := by
      rw [hemitted', Place.inFlight, Place.inFlight, List.append_nil]
    have hcount : s.delivery.calls + 1 = (alerts (before' ++ [e])).length := by
      rw [halerts, List.length_append, ← hcalls, List.length_singleton]
    obtain ⟨-, rfl⟩ | ⟨-, -, rfl⟩ | ⟨-, -, pending, kept, -, rfl⟩ :=
      Delivery.queueGotify_cases hqueue
    · exact ⟨_, queued, hemitted'', hlater, haccepted, hcount⟩
    · exact ⟨_, queued, hemitted'', hlater, haccepted, hcount⟩
    · refine ⟨_, queued ++ [e], hemitted'', ?_, ?_, hcount⟩
      · rw [halerts]
        exact hqueued.append (List.Sublist.refl [e])
      · rw [List.map_append, ← haccepted]
        rfl
  · rw [Delivery.delivered_queueGotify hqueue]
    exact hs.posted
  · rcases hs.delivery with ⟨f, hconserved⟩ | ⟨hlock, hworker, hdelivered⟩
    · exact Or.inl (Delivery.conserved_queueGotify hlength hconserved hqueue)
    · right
      obtain ⟨-, rfl⟩ | ⟨hset, -⟩ | ⟨hset, -⟩ := Delivery.queueGotify_cases hqueue
      · exact ⟨hlock, hworker, hdelivered⟩
      · exact absurd (hlock.symm.trans hset) Bool.false_ne_true
      · exact absurd (hlock.symm.trans hset) Bool.false_ne_true

/-- What the worker does without pushGotify delivers nothing and touches no call. -/
theorem sound_work {d : Delivery depth messageMax} (hs : s.Sound maxAttempts)
    (haccepted : d.accepted = s.delivery.accepted) (hcalls : d.calls = s.delivery.calls)
    (hdelivered : d.delivered = s.delivery.delivered)
    (hd : (∃ f, Delivery.Conserved maxAttempts d f) ∨ Disabled d) :
    Sound maxAttempts { s with delivery := d } := by
  obtain ⟨before, queued, hemitted, hqueued, haccepted', hcalls'⟩ := hs.queued
  refine ⟨hs.published, ⟨before, queued, hemitted, hqueued, ?_, ?_⟩, ?_, hs.proper, hs.pushed, hd⟩
  · exact haccepted.trans haccepted'
  · exact hcalls.trans hcalls'
  · show _ = d.delivered.map gotifyBody
    rw [hdelivered]
    exact hs.posted

theorem sound_takeNextMessage (hs : s.Sound maxAttempts)
    (h : s.work s.delivery.takeNextMessage = some t) : t.Sound maxAttempts := by
  obtain ⟨d, htake, rfl⟩ := work_cases h
  have hkept : d.accepted = s.delivery.accepted ∧ d.calls = s.delivery.calls := by
    obtain ⟨-, ⟨-, rfl⟩ | ⟨-, pending, message, -, rfl⟩⟩ := Delivery.takeNextMessage_cases htake
    · exact ⟨rfl, rfl⟩
    · exact ⟨rfl, rfl⟩
  obtain ⟨hworker, -⟩ := Delivery.takeNextMessage_cases htake
  rcases hs.delivery with ⟨f, hconserved⟩ | ⟨-, habsent, -⟩
  · have hjob : s.delivery.job = none := by
      apply hconserved.atWork.idle
      rw [hworker]
      rfl
    exact sound_work hs hkept.1 hkept.2 (Delivery.delivered_takeNextMessage hjob htake)
      (Or.inl (Delivery.conserved_takeNextMessage hconserved htake))
  · rw [habsent] at hworker
    cases hworker

theorem sound_wake (hs : s.Sound maxAttempts) (h : s.work s.delivery.wake = some t) :
    t.Sound maxAttempts := by
  obtain ⟨d, hwake, rfl⟩ := work_cases h
  have hdelivered := Delivery.delivered_wake hwake
  rcases hs.delivery with ⟨f, hconserved⟩ | ⟨-, habsent, -⟩
  · have hlater := Delivery.conserved_wake hconserved hwake
    obtain ⟨-, rfl⟩ := Delivery.wake_cases hwake
    exact sound_work hs rfl rfl hdelivered (Or.inl ⟨f, hlater⟩)
  · obtain ⟨hworker, -⟩ := Delivery.wake_cases hwake
    rw [habsent] at hworker
    cases hworker

theorem sound_retry (hs : s.Sound maxAttempts) (h : s.work s.delivery.retry = some t) :
    t.Sound maxAttempts := by
  obtain ⟨d, hretry, rfl⟩ := work_cases h
  have hdelivered := Delivery.delivered_retry hretry
  rcases hs.delivery with ⟨f, hconserved⟩ | ⟨-, habsent, -⟩
  · have hlater := Delivery.conserved_retry hconserved hretry
    obtain ⟨attempt, -, rfl⟩ := Delivery.retry_cases hretry
    exact sound_work hs rfl rfl hdelivered (Or.inl ⟨f, hlater⟩)
  · obtain ⟨attempt, hworker, -⟩ := Delivery.retry_cases hretry
    rw [habsent] at hworker
    cases hworker

omit [NeZero depth] in
theorem accepted_post (message : List UInt8) (attempt : Attempt) :
    ((if attempt.connected && attempt.began then [(gotifyBody message, attempt.code)]
      else []).filter fun post => accepted post.2).map Prod.fst =
      (if attempt.ok then [message] else []).map gotifyBody := by
  cases attempt with
  | mk connected began code time =>
    cases connected with
    | false => rfl
    | true =>
      cases began with
      | false => rfl
      | true =>
        show (List.filter _ [(gotifyBody message, code)]).map Prod.fst =
          (if accepted code then [message] else []).map gotifyBody
        cases hcode : accepted code <;> simp [hcode]

/-- A message counts as delivered exactly when its body was posted and answered with a 2xx. -/
theorem sound_pushGotify {attempt : Attempt} (hs : s.Sound maxAttempts)
    (h : s.pushGotify maxAttempts attempt = some t) : t.Sound maxAttempts := by
  obtain ⟨d, hpush, rfl⟩ := pushGotify_cases h
  obtain ⟨before, queued, hemitted, hqueued, haccepted, hcalls⟩ := hs.queued
  have hkept : d.accepted = s.delivery.accepted ∧ d.calls = s.delivery.calls := by
    obtain ⟨n, job, -, -, ⟨-, rfl⟩ | ⟨-, -, rfl⟩ | ⟨-, -, rfl⟩⟩ := Delivery.pushGotify_cases hpush
    · exact ⟨rfl, rfl⟩
    · exact ⟨rfl, rfl⟩
    · exact ⟨rfl, rfl⟩
  refine ⟨hs.published, ⟨before, queued, hemitted, hqueued, hkept.1.trans haccepted,
    hkept.2.trans hcalls⟩, ?_, hs.proper, hs.pushed, ?_⟩
  · show (List.filter _ (s.posts ++ _)).map Prod.fst = d.delivered.map gotifyBody
    rw [Delivery.delivered_pushGotify hpush, List.filter_append, List.map_append, List.map_append,
      hs.posted]
    rw [accepted_post]
  · rcases hs.delivery with ⟨f, hconserved⟩ | ⟨-, habsent, -⟩
    · exact Or.inl ⟨f, Delivery.conserved_pushGotify hconserved hpush⟩
    · obtain ⟨n, job, hworker, -⟩ := Delivery.pushGotify_cases hpush
      rw [habsent] at hworker
      cases hworker

theorem sound_step (hmetres : ∀ cm, Short 5 (metres cm)) (hlength : 1 < messageMax) (a : Step)
    (ha : a.Rendered) (hs : s.Sound maxAttempts) (h : s.step metres maxAttempts a = some t) :
    t.Sound maxAttempts := by
  cases a with
  | notifyBootOnline localIP =>
    apply sound_notify hs _ h
    intro e he
    obtain rfl := Option.some.inj he
    exact proper_boot ha
  | pollCalibrationRequest =>
    apply sound_notify hs _ h
    intro e he
    obtain rfl := Option.some.inj he
    exact proper_calibration
  | notifyPresenceChanges presentNow report sampleMs confirmMs =>
    exact sound_notify hs (fun e he => proper_presence hmetres he) h
  | notifyMovement report readMs confirmMs =>
    exact sound_notify hs (fun e he => proper_movement hmetres he) h
  | notifyLoudSounds mic readMs confirmMs =>
    exact sound_notify hs (fun e he => proper_sound ha he) h
  | wsPublishEvent id availableForWrite uptimeMs => exact sound_wsPublishEvent hs h
  | queueGotify acquired => exact sound_queueGotify hlength hs h
  | takeNextMessage => exact sound_takeNextMessage hs h
  | wake => exact sound_wake hs h
  | pushGotify attempt => exact sound_pushGotify hs h
  | retry => exact sound_retry hs h

theorem sound_exec (hmetres : ∀ cm, Short 5 (metres cm)) (hlength : 1 < messageMax)
    {steps : List Step} (hsteps : ∀ a ∈ steps, a.Rendered) (hs : s.Sound maxAttempts)
    (h : Guarded.exec (step metres maxAttempts) s steps = some t) : t.Sound maxAttempts := by
  induction steps generalizing s with
  | nil =>
    obtain rfl := Option.some.inj h
    exact hs
  | cons a steps ih =>
    obtain ⟨u, hstep, hrest⟩ := Guarded.exec_cons.mp h
    apply ih (fun b hb => hsteps b (List.mem_cons_of_mem a hb)) _ hrest
    exact sound_step hmetres hlength a (hsteps a List.mem_cons_self) hs hstep

/-- The text of a proper alert reaches the worker as it is. -/
theorem text_kept {e : Emission} (he : Proper e) (hroom : 64 < messageMax) :
    (messageText e).text.take (messageMax - 1) = ascii e.message := by
  obtain ⟨-, hlength, hnul⟩ := he
  have htext : (messageText e).text = ascii e.message := by
    have hall : ∀ b ∈ ascii e.message, decide (b ≠ 0) = true := by
      intro b hb
      apply decide_eq_true
      rintro rfl
      exact hnul hb
    rw [messageText, CString.text, List.takeWhile_append_of_pos hall]
    exact List.append_nil _
  rw [htext]
  exact List.take_of_length_le (by omega)

/-- What was delivered are alerts, in order, each once and whole. -/
theorem delivered_alerts (hs : s.Sound maxAttempts) (hroom : 64 < messageMax) :
    ∃ shown : List Emission, shown.Sublist (alerts s.emitted) ∧
      s.delivery.delivered = shown.map fun e => ascii e.message := by
  obtain ⟨before, queued, hemitted, hqueued, haccepted, -⟩ := hs.queued
  have hearlier : before.Sublist s.emitted := by
    rw [hemitted]
    exact List.sublist_append_left _ _
  have hproper : ∀ e ∈ queued, Proper e := by
    intro e he
    apply hs.proper
    exact hearlier.subset (List.mem_of_mem_filter (hqueued.subset he))
  have hkept : s.delivery.delivered.Sublist (queued.map fun e => ascii e.message) := by
    rcases hs.delivery with ⟨f, hconserved⟩ | ⟨-, -, hnone⟩
    · have horder := (List.sublist_append_left _ _).trans hconserved.order
      have htexts : s.delivery.kept = queued.map fun e => ascii e.message := by
        rw [Delivery.kept, haccepted, List.map_map]
        apply List.map_congr_left
        intro e he
        exact text_kept (hproper e he) hroom
      rw [← htexts]
      exact (Delivery.delivered_sublist hconserved).trans horder
    · rw [hnone]
      exact List.nil_sublist _
  obtain ⟨shown, hshown, hdelivered⟩ := List.sublist_map_iff.mp hkept
  exact ⟨shown, (hshown.trans hqueued).trans (hearlier.filter _), hdelivered⟩

/-- Every alert that is over is with the server, counted, queued or with the worker. -/
theorem alerts_counted (hs : s.Sound maxAttempts) (hlock : s.delivery.queueLock = true)
    (hplace : s.place = .passing) :
    UInt32.ofNat (alerts s.emitted).length =
      UInt32.ofNat s.delivery.delivered.length + s.delivery.pending.dropped +
        s.delivery.undeliverable + UInt32.ofNat s.delivery.pending.size +
        UInt32.ofNat s.delivery.worker.held := by
  obtain ⟨before, queued, hemitted, -, -, hcalls⟩ := hs.queued
  rw [hplace, Place.inFlight, List.append_nil] at hemitted
  rcases hs.delivery with ⟨f, hconserved⟩ | ⟨hnone, -⟩
  · obtain ⟨dropped, undeliverable, hdropped, hundeliverable, hbalance⟩ := hconserved.balance
    have hsize : s.delivery.pending.size = f.contents.length := hconserved.queue.count
    rw [hemitted, ← hcalls, Delivery.delivered_eq hconserved, hconserved.queue.dropped, hdropped,
      hundeliverable, hsize, hbalance]
    simp only [UInt32.ofNat_add]
  · exact absurd (hnone.symm.trans hlock) Bool.false_ne_true

end steps

/-- From the detectors to the phone. Whatever the sensors, the socket, the locks and the server
do, and whenever the worker comes to its steps: the bodies that the server took are, read as
JSON, the texts of alerts, whole and in their order, each once, and of alerts only; a move is
never pushed. With the worker there, every alert is with the server, counted as lost, queued or
in the worker's hand. What went to the socket are events, moves among them, in their order and
as they were. -/
theorem alerts_delivered (hmetres : ∀ cm, Short 5 (metres cm)) (created : Bool)
    (garbage : Vector UInt8 Config.gotifyMessageMax) (tuning : Notifications.Tuning)
    (steps : List Step) (hsteps : ∀ a ∈ steps, a.Rendered)
    (s : Node Config.gotifyQueueDepth Config.gotifyMessageMax)
    (h : Guarded.exec (step metres Config.gotifyMaxAttempts) (gotifyBegin created garbage tuning)
      steps = some s) :
    (∃ shown : List Emission, shown.Sublist (alerts s.emitted) ∧
      ((s.posts.filter fun post => accepted post.2).map fun post => parse post.1) =
        shown.map (fun e => some (Document.push (ascii e.message)).meaning) ∧
      (s.delivery.queueLock = true → s.place = .passing →
        UInt32.ofNat (alerts s.emitted).length =
          UInt32.ofNat shown.length + s.delivery.pending.dropped + s.delivery.undeliverable +
            UInt32.ofNat s.delivery.pending.size + UInt32.ofNat s.delivery.worker.held)) ∧
    (∃ events : List (Emission × UInt32), (events.map Prod.fst).Sublist s.emitted ∧
      s.frames.map parse = events.map fun (e, uptimeMs) =>
        some (Document.event e.type (ascii e.message) uptimeMs).meaning) ∧
    ∀ e ∈ s.emitted, e.pushed = decide (e.type ≠ .moved) := by
  have : NeZero Config.gotifyQueueDepth := ⟨by decide⟩
  have hs := sound_exec hmetres (by decide) hsteps (sound_begin created garbage tuning) h
  refine ⟨?_, ?_, fun e he => (hs.proper e he).1⟩
  · obtain ⟨shown, hshown, hdelivered⟩ := delivered_alerts hs (by decide)
    refine ⟨shown, hshown, ?_, ?_⟩
    · have hbodies : ((s.posts.filter fun post => accepted post.2).map fun post => parse post.1) =
          ((s.posts.filter fun post => accepted post.2).map Prod.fst).map parse := by
        rw [List.map_map]
        rfl
      rw [hbodies, hs.posted, hdelivered, List.map_map, List.map_map]
      apply List.map_congr_left
      intro e _
      exact parse_gotifyBody _
    · intro hlock hplace
      have hcounted := alerts_counted hs hlock hplace
      rwa [hdelivered, List.length_map] at hcounted
  · obtain ⟨before, events, hemitted, hevents, hframes⟩ := hs.published
    refine ⟨events, ?_, ?_⟩
    · rw [hemitted]
      exact hevents.trans (List.sublist_append_left _ _)
    · rw [hframes, List.map_map]
      apply List.map_congr_left
      intro e _
      exact parse_eventJson _ _ _

/-- The node comes online, the calibration alert is the first to meet a locked queue, the server
is down at first, and a client that connects late sees only the second event. -/
def lateClient : List Step :=
  [.notifyBootOnline "192.168.1.17", .wsPublishEvent 0 false 900, .queueGotify true,
    .pollCalibrationRequest, .takeNextMessage, .wsPublishEvent 7 true 1200,
    .pushGotify ⟨true, true, 502, 1500⟩, .queueGotify false, .retry,
    .pushGotify ⟨true, true, 200, 31600⟩]

theorem late_client_informed :
    ∃ (s : Node Config.gotifyQueueDepth Config.gotifyMessageMax) (shown : List Emission),
      Guarded.exec (step (fun _ => "1.5") Config.gotifyMaxAttempts)
        (gotifyBegin true (.replicate _ 7) .config) lateClient = some s ∧
      shown.Sublist (alerts s.emitted) ∧
      ((s.posts.filter fun post => accepted post.2).map fun post => parse post.1) =
        shown.map (fun e => some (Document.push (ascii e.message)).meaning) ∧
      s.posts.map Prod.snd = [502, 200] ∧ s.delivery.undeliverable = 1 ∧ s.frames.length = 1 := by
  have hseen : ∃ s ∈ Guarded.exec (step (fun _ => "1.5") Config.gotifyMaxAttempts)
      (gotifyBegin true (.replicate _ 7) .config :
        Node Config.gotifyQueueDepth Config.gotifyMessageMax) lateClient,
      s.posts.map Prod.snd = [502, 200] ∧ s.delivery.undeliverable = 1 ∧ s.frames.length = 1 := by
    decide +kernel
  obtain ⟨s, hrun, hcodes, hlost, hframes⟩ := hseen
  have haddress : Short 15 "192.168.1.17" := by decide
  have hrendered : ∀ a ∈ lateClient, a.Rendered := by
    simp [lateClient, Step.Rendered, haddress]
  obtain ⟨⟨shown, hshown, hposts, -⟩, -⟩ := alerts_delivered (fun _ => "1.5")
    (fun _ => by decide) true (.replicate _ 7) .config lateClient hrendered s hrun
  exact ⟨s, shown, hrun, hshown, hposts, hcodes, hlost, hframes⟩

end Node

end RoomWatchdog.Alerts
