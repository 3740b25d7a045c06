import RoomWatchdog.Mic.Chunking
import RoomWatchdog.Mic.LastWindow
import RoomWatchdog.Radar.Published
import RoomWatchdog.Telemetry.Documents
import RoomWatchdog.Telemetry.Snapshot

namespace RoomWatchdog.Readings
open FlatJson (ascii parse)
open Ld2412 (IsReport Payload Report leValue reportOf)
open Mic (Sampler Windows level levels windowSamples)

/-- The arguments and the answers from which takeSensorSnapshot makes a snapshot, and the
document that it is for: a status with its last member, or a frame of telemetry. -/
structure Made where
  presenceNow : Bool
  mic : LevelWindow
  report : Report
  audioDroppedSamples : UInt32
  pushLost : UInt32
  audioStreaming : Bool
  pushBackingOff : Bool
  uptimeMs : UInt32
  telemetryClient : Option Bool

namespace Made

def snapshot (m : Made) : SensorSnapshot :=
  { openSnapshot m.presenceNow m.mic m.report with
    audioDroppedSamples := m.audioDroppedSamples
    pushLost := m.pushLost
    audioStreaming := if m.audioStreaming then 1 else 0
    pushBackingOff := if m.pushBackingOff then 1 else 0 }

def sensed (m : Made) : Sensed where
  toSensorSnapshot := m.snapshot
  flags := ⟨flag_cases m.presenceNow, flag_cases m.audioStreaming, flag_cases m.pushBackingOff⟩

def document (m : Made) : Document :=
  match m.telemetryClient with
  | some telemetryClient => .status m.sensed m.uptimeMs telemetryClient
  | none => .telemetry m.sensed m.uptimeMs

end Made

/-- The radar with the tasks that ask it, micAdcTask's locals, and the windows between the tasks.
`mics` are the windows that a task has been given, `documents` what has been sent, and `heard` the
samples of the microphone so far. -/
structure Node where
  radar : Radar := {}
  sampler : Sampler := {}
  windows : Windows := {}
  mics : List LevelWindow := []
  documents : List (List UInt8) := []
  heard : List (BitVec 12) := []

/-- A step of the radar's tasks, a sample that micAdcTask takes, a step of publishWindow or
micSampleWindow behind it, or one of a task that puts a document together. -/
inductive Step where
  | radar (action : Radar.Action)
  | sample (data : BitVec 12)
  | window (step : Mic.Step)
  | micLastWindow
  | micSampleWindow
  | send (made : Made)

variable (room : Nat → Nat)

namespace Node

/-- The first store of publishWindow, if a window is complete. -/
def store (windows : Windows) : Option LevelWindow → Option Windows
  | some window => windows.store window
  | none => some windows

/-- One sample, up to the first store of publishWindow for the window that it completes. -/
def sample (s : Node) (data : BitVec 12) : Option Node :=
  if s.windows.publishing = none then do
    let (sampler, _, complete) ← s.sampler.take windowSamples data
    let windows ← store s.windows complete
    some { s with sampler, windows, heard := s.heard ++ [data] }
  else none

/-- A step of the windows, but for the store that comes with a sample. -/
def window (s : Node) : Mic.Step → Option Node
  | .store _ => none
  | step => do
    let windows ← s.windows.step step
    some { s with windows }

/-- What micSampleWindow gave the loop for its pass. -/
def micSampleWindow (s : Node) : Option Node :=
  match s.windows.loopAt with
  | .passing window => some { s with mics := s.mics ++ [window] }
  | .receiving | .timedOut => none

/-- A document of a report and a window that have been read, whenever that was. -/
def send (s : Node) (made : Made) : Option Node :=
  if made.report ∈ s.radar.published.observed.map Prod.snd ∧ made.mic ∈ s.mics then
    some { s with documents := s.documents ++ [made.document.text room] }
  else none

def step (s : Node) : Step → Option Node
  | .radar action => do
    let radar ← s.radar.step action
    some { s with radar }
  | .sample data => s.sample data
  | .window step => s.window step
  | .micLastWindow => some { s with mics := s.mics ++ [s.windows.micLastWindow] }
  | .micSampleWindow => s.micSampleWindow
  | .send made => s.send room made

end Node

/-! Where a reading comes from. -/

/-- The data of a report frame among the bytes, or nothing. -/
def FromRadar (consumed data : List UInt8) : Prop :=
  data = [] ∨ ∃ (u v : List UInt8) (d : Payload), Ld2412.Phase.Opens u ∧
    consumed = u ++ d.frame ++ v ∧ IsReport d.bytes ∧ d.bytes = data

/-- The levels of a complete block of samples, or those of silence. -/
def FromMic (heard : List (BitVec 12)) (window : LevelWindow) : Prop :=
  window = {} ∨ ∃ k, ((heard.drop (k * windowSamples)).take windowSamples).length = windowSamples ∧
    window = levels ((heard.drop (k * windowSamples)).take windowSamples)

/-- The members for the radar, as the frame has them; for no frame all of them are 0. -/
def radarMembers (data : List UInt8) : List (String × Int) := [
  ("targetState", (data.getD 2 0).toNat),
  ("movingDistanceCm", leValue (data.getD 3 0) (data.getD 4 0)),
  ("movingEnergy", (data.getD 5 0).toNat),
  ("stationaryDistanceCm", leValue (data.getD 6 0) (data.getD 7 0)),
  ("stationaryEnergy", (data.getD 8 0).toNat)]

/-- The members for the microphone. -/
def micMembers (window : LevelWindow) : List (String × Int) := [
  ("micPeakToPeak", window.peakToPeak), ("micMin", window.minLevel), ("micMax", window.maxLevel)]

/-- A text that, read as JSON, says what a frame and a block of samples said. -/
def Tells (consumed : List UInt8) (heard : List (BitVec 12)) (text : List UInt8) : Prop :=
  ∃ members data window, parse text = some members ∧ (members.map Prod.fst).Nodup ∧
    FromRadar consumed data ∧ FromMic heard window ∧
    ∀ reading ∈ radarMembers data ++ micMembers window,
      (ascii reading.1, FlatJson.Value.number reading.2) ∈ members

section origins
variable {consumed : List UInt8} {heard : List (BitVec 12)} {window : LevelWindow}

theorem FromRadar.later {data : List UInt8} (h : FromRadar consumed data) (more : List UInt8) :
    FromRadar (consumed ++ more) data := by
  obtain hnone | ⟨u, v, d, hu, hsplit, hreport, hdata⟩ := h
  · exact Or.inl hnone
  · right
    refine ⟨u, v ++ more, d, hu, ?_, hreport, hdata⟩
    rw [hsplit, List.append_assoc _ v]

/-- A complete block stays as it is. -/
theorem block_later {k : Nat}
    (h : ((heard.drop (k * windowSamples)).take windowSamples).length = windowSamples)
    (data : BitVec 12) :
    ((heard ++ [data]).drop (k * windowSamples)).take windowSamples =
      (heard.drop (k * windowSamples)).take windowSamples := by
  have hpositive : 0 < windowSamples := by decide
  rw [List.length_take, List.length_drop] at h
  rw [List.drop_append_of_le_length (by omega), List.take_append_of_le_length]
  rw [List.length_drop]
  omega

theorem FromMic.later (h : FromMic heard window) (data : BitVec 12) :
    FromMic (heard ++ [data]) window := by
  obtain hsilent | ⟨k, hlength, hwindow⟩ := h
  · exact Or.inl hsilent
  · have hblock := block_later hlength data
    exact Or.inr ⟨k, hblock ▸ hlength, hblock ▸ hwindow⟩

theorem block_ne_nil {k : Nat}
    (h : ((heard.drop (k * windowSamples)).take windowSamples).length = windowSamples) :
    (heard.drop (k * windowSamples)).take windowSamples ≠ [] := by
  intro hempty
  rw [hempty] at h
  exact absurd h (by decide)

/-- Twelve bits fit the 16 of the snapshot. -/
theorem FromMic.bounds (h : FromMic heard window) :
    (0 ≤ window.minLevel ∧ window.minLevel ≤ 4095) ∧
      (0 ≤ window.maxLevel ∧ window.maxLevel ≤ 4095) ∧
      0 ≤ window.peakToPeak ∧ window.peakToPeak ≤ 4095 := by
  obtain rfl | ⟨k, hlength, rfl⟩ := h
  · decide
  · have hne := block_ne_nil hlength
    obtain ⟨hmin, hmax⟩ := Mic.levels_eq hne
    have hlevel : ∀ x ∈ ((heard.drop (k * windowSamples)).take windowSamples).map level,
        0 ≤ x ∧ x ≤ 4095 := by
      intro x hx
      obtain ⟨data, -, rfl⟩ := List.mem_map.mp hx
      exact Mic.level_bounds data
    have hlow := hlevel _ (List.min?_eq_some_iff.mp hmin).1
    have hhigh := hlevel _ (List.max?_eq_some_iff.mp hmax).1
    have hle := (List.max?_eq_some_iff.mp hmax).2 _ (List.min?_eq_some_iff.mp hmin).1
    rw [Mic.levels_peakToPeak hne]
    omega

theorem toInt_level {z : Int} (hlow : 0 ≤ z) (hhigh : z ≤ 4095) : (Int16.ofInt z).toInt = z := by
  have hsize : Int16.size = 2 ^ 16 := rfl
  rw [Int16.toInt_ofInt, hsize, Int.bmod_eq_of_le (by omega) (by omega)]

end origins

/-- The fields of the radar and the microphone, in the order of their members. -/
def sensorFields : List SensorSnapshot.Field :=
  [.targetState, .movingDistanceCm, .movingEnergy, .stationaryDistanceCm, .stationaryEnergy,
    .micPeakToPeak, .micMin, .micMax]

section made
variable {consumed data : List UInt8} {heard : List (BitVec 12)} {made : Made}

/-- The casts of takeSensorSnapshot lose nothing. -/
theorem readings_eq (hreport : made.report = reportOf data) (hmic : FromMic heard made.mic) :
    radarMembers data ++ micMembers made.mic =
      sensorFields.map fun f => (f.name, made.snapshot.value f) := by
  obtain ⟨⟨hminLow, hminHigh⟩, ⟨hmaxLow, hmaxHigh⟩, hpeakLow, hpeakHigh⟩ := hmic.bounds
  have hmoving := UInt16.toNat_ofNat_of_lt' (Ld2412.leValue_lt (data.getD 3 0) (data.getD 4 0))
  have hstationary := UInt16.toNat_ofNat_of_lt' (Ld2412.leValue_lt (data.getD 6 0) (data.getD 7 0))
  simp only [radarMembers, micMembers, sensorFields, List.map_cons, List.map_nil,
    List.cons_append, List.nil_append, SensorSnapshot.Field.name, SensorSnapshot.value,
    Made.snapshot, openSnapshot, hreport, reportOf, hmoving, hstationary,
    toInt_level hminLow hminHigh, toInt_level hmaxLow hmaxHigh, toInt_level hpeakLow hpeakHigh]

theorem field_mem (f : SensorSnapshot.Field) :
    (f.key, made.snapshot.json f) ∈ made.document.meaning := by
  have hmem : (f.key, made.snapshot.json f) ∈
      Document.sensorFields made.snapshot made.uptimeMs := by
    apply List.mem_append_left
    exact List.mem_map.mpr ⟨f, SensorSnapshot.Field.mem_rendered f, rfl⟩
  rw [Made.document]
  cases made.telemetryClient with
  | some telemetryClient => exact List.mem_append_left _ hmem
  | none => exact List.mem_cons_of_mem _ hmem

theorem tells_made (hdata : FromRadar consumed data) (hreport : made.report = reportOf data)
    (hmic : FromMic heard made.mic) : Tells consumed heard (made.document.text room) := by
  refine ⟨_, data, made.mic, Document.parse_text _, Document.keys_nodup _, hdata, hmic, ?_⟩
  intro reading hreading
  rw [readings_eq hreport hmic] at hreading
  obtain ⟨f, hf, rfl⟩ := List.mem_map.mp hreading
  have hnumber : made.snapshot.json f = .number (made.snapshot.value f) := by
    have hflags : ∀ f ∈ sensorFields, f.isFlag = false := by decide
    rw [SensorSnapshot.json, hflags f hf]
    rfl
  rw [← hnumber]
  exact field_mem f

theorem Tells.later {text : List UInt8} (h : Tells consumed heard text) (more : List UInt8) :
    Tells (consumed ++ more) heard text := by
  obtain ⟨members, data, window, hparse, hkeys, hdata, hmic, hreadings⟩ := h
  exact ⟨members, data, window, hparse, hkeys, hdata.later more, hmic, hreadings⟩

theorem Tells.heard_later {text : List UInt8} (h : Tells consumed heard text) (sample : BitVec 12) :
    Tells consumed (heard ++ [sample]) text := by
  obtain ⟨members, data, window, hparse, hkeys, hdata, hmic, hreadings⟩ := h
  exact ⟨members, data, window, hparse, hkeys, hdata, hmic.later sample, hreadings⟩

end made

section origin
open Ld2412 (Ld2412Parser)

/-- Every report that a task has been given was in a frame, or is the first one before any. -/
theorem report_origin {s : Radar} (htracks : s.Tracks) (hfaithful : s.published.Faithful {})
    {report : Report} (h : report ∈ s.published.observed.map Prod.snd) :
    ∃ data, FromRadar s.consumed data ∧ report = reportOf data := by
  obtain ⟨o, ho, rfl⟩ := List.mem_map.mp h
  rcases List.mem_cons.mp (List.mem_of_getElem? (hfaithful.each o ho)) with hfirst | hwritten
  · exact ⟨[], Or.inl rfl, hfirst⟩
  · have hreports : o.2 ∈ Ld2412Parser.reports s.consumed := by
      obtain ⟨hpolling, hbusy⟩ := Radar.tracks_written htracks
      by_cases hloop : s.loop = .polling
      · rw [← hpolling hloop]
        exact hwritten
      · rw [hbusy hloop] at hwritten
        exact List.mem_of_mem_dropLast hwritten
    obtain ⟨u, v, d, hu, hsplit, hdecode⟩ := Ld2412Parser.frame_of_report hreports
    obtain ⟨hreport, hvalues⟩ := Option.ite_none_right_eq_some.mp hdecode
    exact ⟨d.bytes, Or.inr ⟨u, v, d, hu, hsplit, hreport, rfl⟩, (Option.some.inj hvalues).symm⟩

theorem consumed_step {s t : Radar} {action : Radar.Action} (h : s.step action = some t) :
    ∃ more, t.consumed = s.consumed ++ more := by
  cases action with
  | feed =>
    obtain ⟨byte, rx, -, -, ⟨-, rfl⟩ | ⟨-, rfl⟩⟩ := Radar.feed_cases h
    · exact ⟨[byte], rfl⟩
    · exact ⟨[byte], rfl⟩
  | store =>
    obtain ⟨report, stored, -, rfl⟩ := Radar.store_cases h
    exact ⟨[], (List.append_nil _).symm⟩
  | publish =>
    obtain ⟨-, rfl⟩ := Radar.publish_cases h
    exact ⟨[], (List.append_nil _).symm⟩
  | receive bytes | radarReport =>
    obtain rfl := Option.some.inj h
    exact ⟨[], (List.append_nil _).symm⟩

/-- The windows that the two tasks are between or have left for others. -/
def held (s : Windows) : List LevelWindow :=
  s.lastWindow :: (s.windowQueue.toList ++ s.publishing.toList ++
    match s.loopAt with
    | .passing window => [window]
    | .receiving | .timedOut => [])

theorem held_store {s t : Windows} {window : LevelWindow} (h : s.store window = some t) :
    ∀ w ∈ held t, w = window ∨ w ∈ held s := by
  obtain ⟨-, rfl⟩ := Windows.store_cases h
  intro w hw
  simp only [held, List.mem_cons, List.mem_append, Option.mem_toList, Option.some_inj] at hw ⊢
  tauto

/-- Behind the store, windows only move, but for the empty one after a timeout. -/
theorem held_step {s t : Windows} {step : Mic.Step} (hstep : ∀ window, step ≠ .store window)
    (h : s.step step = some t) : ∀ w ∈ held t, w = {} ∨ w ∈ held s := by
  cases step with
  | store window => exact absurd rfl (hstep window)
  | overwrite =>
    obtain ⟨window, hpublishing, rfl⟩ := Windows.overwrite_cases h
    intro w hw
    simp only [held, hpublishing, List.mem_cons, List.mem_append, Option.mem_toList] at hw ⊢
    tauto
  | receive =>
    obtain ⟨hat, ⟨hqueue, rfl⟩ | ⟨window, hqueue, rfl⟩⟩ := Windows.receive_cases h
    · intro w hw
      simp only [held, hat, hqueue, List.mem_cons, List.mem_append, Option.mem_toList] at hw ⊢
      tauto
    · intro w hw
      simp only [held, hat, hqueue, List.mem_cons, List.mem_append, Option.mem_toList] at hw ⊢
      tauto
  | clear =>
    obtain ⟨hat, rfl⟩ := Windows.clear_cases h
    intro w hw
    simp only [held, hat, List.mem_cons, List.mem_append, Option.mem_toList] at hw ⊢
    tauto
  | judge =>
    obtain ⟨window, hat, rfl⟩ := Windows.judge_cases h
    intro w hw
    simp only [held, hat, List.mem_cons, List.mem_append, Option.mem_toList] at hw ⊢
    tauto

end origin

namespace Node

/-- Whatever the tasks hold comes from the radar or the microphone. -/
structure Sound (s : Node) : Prop where
  tracks : s.radar.Tracks
  faithful : s.radar.published.Faithful {}
  encoder : s.sampler.encoder.InRange
  progress : ∃ published, Mic.Progress windowSamples s.sampler published s.heard
  windows : ∀ w ∈ held s.windows, FromMic s.heard w
  mics : ∀ w ∈ s.mics, FromMic s.heard w
  documents : ∀ text ∈ s.documents, Tells s.radar.consumed s.heard text

section steps
variable {s t : Node}

theorem sound_boot : Sound {} where
  tracks := ⟨rfl, rfl⟩
  faithful := Register.State.faithful_boot _
  encoder := PcmEncoder.reset_inRange
  progress := ⟨[], Mic.progress (by decide) []⟩
  windows := by
    intro w hw
    exact Or.inl (List.mem_singleton.mp hw)
  mics := by
    intro w hw
    cases hw
  documents := by
    intro text htext
    cases htext

theorem sound_radar {action : Radar.Action} (hs : s.Sound) {radar : Radar}
    (h : s.radar.step action = some radar) : Sound { s with radar } := by
  obtain ⟨more, hmore⟩ := consumed_step h
  refine ⟨Radar.tracks_step _ _ _ h hs.tracks, Radar.faithful_step _ _ _ h hs.faithful,
    hs.encoder, hs.progress, hs.windows, hs.mics, ?_⟩
  intro text htext
  rw [hmore]
  exact (hs.documents text htext).later more

/-- A window that a sample completes is that of the last block. -/
theorem fromMic_complete {sampler : Sampler} {heard : List (BitVec 12)}
    {published : List LevelWindow} {window : LevelWindow}
    (h : Mic.Progress windowSamples sampler (published ++ [window]) heard) :
    FromMic heard window := by
  have hlast : published.length < (published ++ [window]).length := by
    rw [List.length_append, List.length_singleton]
    exact Nat.lt_succ_self _
  have hblock := h.blocks published.length hlast
  rw [List.getElem?_concat_length] at hblock
  have htotal := h.total
  rw [List.length_append, List.length_singleton, Nat.succ_mul] at htotal
  refine Or.inr ⟨published.length, ?_, Option.some.inj hblock⟩
  rw [List.length_take, List.length_drop]
  omega

theorem sample_cases {data : BitVec 12} (hencoder : s.sampler.encoder.InRange)
    (h : s.sample data = some t) :
    ∃ windows, store s.windows (Sampler.exact windowSamples s.sampler data).2.2 = some windows ∧
      { s with
        sampler := (Sampler.exact windowSamples s.sampler data).1
        windows
        heard := s.heard ++ [data] } = t := by
  obtain ⟨-, hrest⟩ := Option.ite_none_right_eq_some.mp h
  rw [Sampler.take_eq hencoder, Option.bind_eq_bind, Option.bind_some] at hrest
  generalize Sampler.exact windowSamples s.sampler data = taken at hrest ⊢
  obtain ⟨windows, hwindows, hnew⟩ := Option.bind_eq_some_iff.mp hrest
  exact ⟨windows, hwindows, Option.some.inj hnew⟩

theorem sound_sample {data : BitVec 12} (hs : s.Sound) (h : s.sample data = some t) :
    t.Sound := by
  obtain ⟨windows, hwindows, rfl⟩ := sample_cases hs.encoder h
  obtain ⟨published, hprogress⟩ := hs.progress
  have hnext := hprogress.step data
  have hencoder : (Sampler.exact windowSamples s.sampler data).1.encoder.InRange := by
    rw [Sampler.exact_encoder]
    exact PcmEncoder.track_inRange hs.encoder _
  have hheld : ∀ w ∈ held windows, FromMic (s.heard ++ [data]) w := by
    cases hcomplete : (Sampler.exact windowSamples s.sampler data).2.2 with
    | none =>
      rw [hcomplete] at hwindows
      obtain rfl := Option.some.inj hwindows
      intro w hw
      exact (hs.windows w hw).later data
    | some window =>
      rw [hcomplete] at hwindows hnext
      intro w hw
      rcases held_store hwindows w hw with rfl | hold
      · exact fromMic_complete hnext
      · exact (hs.windows w hold).later data
  exact ⟨hs.tracks, hs.faithful, hencoder, ⟨_, hnext⟩, hheld,
    fun w hw => (hs.mics w hw).later data,
    fun text htext => (hs.documents text htext).heard_later data⟩

theorem window_cases {step : Mic.Step} (h : s.window step = some t) :
    (∀ window, step ≠ .store window) ∧
      ∃ windows, s.windows.step step = some windows ∧ { s with windows } = t := by
  cases step with
  | store window => cases h
  | overwrite | receive | clear | judge =>
    obtain ⟨windows, hstep, hnew⟩ := Option.bind_eq_some_iff.mp h
    exact ⟨nofun, windows, hstep, Option.some.inj hnew⟩

theorem micSampleWindow_cases (h : s.micSampleWindow = some t) :
    ∃ window, s.windows.loopAt = .passing window ∧ { s with mics := s.mics ++ [window] } = t := by
  simp only [micSampleWindow] at h
  split at h
  next window hat => exact ⟨window, hat, Option.some.inj h⟩
  · cases h
  · cases h

theorem sound_window {step : Mic.Step} (hs : s.Sound) (h : s.window step = some t) : t.Sound := by
  obtain ⟨hstore, windows, hstep, rfl⟩ := window_cases h
  refine ⟨hs.tracks, hs.faithful, hs.encoder, hs.progress, ?_, hs.mics, hs.documents⟩
  intro w hw
  rcases held_step hstore hstep w hw with hsilent | hold
  · exact Or.inl hsilent
  · exact hs.windows w hold

/-- A window that is held can be given to a task. -/
theorem sound_given {window : LevelWindow} (hs : s.Sound) (hwindow : window ∈ held s.windows) :
    Sound { s with mics := s.mics ++ [window] } := by
  refine ⟨hs.tracks, hs.faithful, hs.encoder, hs.progress, hs.windows, ?_, hs.documents⟩
  intro w hw
  rcases List.mem_append.mp hw with hold | hnew
  · exact hs.mics w hold
  · rw [List.mem_singleton.mp hnew]
    exact hs.windows window hwindow

theorem sound_send {made : Made} (hs : s.Sound) (h : s.send room made = some t) : t.Sound := by
  obtain ⟨⟨hreport, hmic⟩, hnew⟩ := Option.ite_none_right_eq_some.mp h
  obtain rfl := Option.some.inj hnew
  obtain ⟨data, hdata, hvalues⟩ := report_origin hs.tracks hs.faithful hreport
  refine ⟨hs.tracks, hs.faithful, hs.encoder, hs.progress, hs.windows, hs.mics, ?_⟩
  intro text htext
  rcases List.mem_append.mp htext with hold | hsent
  · exact hs.documents text hold
  · rw [List.mem_singleton.mp hsent]
    exact tells_made room hdata hvalues (hs.mics made.mic hmic)

/-- Nothing that has been heard or read is forgotten. -/
theorem step_grows {a : Step} (hs : s.Sound) (h : s.step room a = some t) :
    (∃ more, t.radar.consumed = s.radar.consumed ++ more) ∧
      (t.heard = s.heard ∨ ∃ data, t.heard = s.heard ++ [data]) := by
  have hsame : ∃ more, s.radar.consumed = s.radar.consumed ++ more := ⟨[], by simp⟩
  cases a with
  | radar action =>
    obtain ⟨radar, hradar, hnew⟩ := Option.bind_eq_some_iff.mp h
    obtain rfl := Option.some.inj hnew
    exact ⟨consumed_step hradar, Or.inl rfl⟩
  | sample data =>
    obtain ⟨windows, -, rfl⟩ := sample_cases hs.encoder h
    exact ⟨hsame, Or.inr ⟨data, rfl⟩⟩
  | window step =>
    obtain ⟨-, windows, -, rfl⟩ := window_cases h
    exact ⟨hsame, Or.inl rfl⟩
  | micLastWindow =>
    obtain rfl := Option.some.inj h
    exact ⟨hsame, Or.inl rfl⟩
  | micSampleWindow =>
    obtain ⟨window, -, rfl⟩ := micSampleWindow_cases h
    exact ⟨hsame, Or.inl rfl⟩
  | send made =>
    obtain ⟨-, hnew⟩ := Option.ite_none_right_eq_some.mp h
    obtain rfl := Option.some.inj hnew
    exact ⟨hsame, Or.inl rfl⟩

theorem sound_step (s : Node) (a : Step) (t : Node) (h : s.step room a = some t)
    (hs : s.Sound) : t.Sound := by
  cases a with
  | radar action =>
    obtain ⟨radar, hradar, hnew⟩ := Option.bind_eq_some_iff.mp h
    obtain rfl := Option.some.inj hnew
    exact sound_radar hs hradar
  | sample data => exact sound_sample hs h
  | window step => exact sound_window hs h
  | micLastWindow =>
    obtain rfl := Option.some.inj h
    exact sound_given hs List.mem_cons_self
  | micSampleWindow =>
    obtain ⟨window, hat, rfl⟩ := micSampleWindow_cases h
    apply sound_given hs
    simp [held, hat]
  | send made => exact sound_send room hs h

end steps

/-- From the sensors to the client. Whenever the radar's bytes and the microphone's samples come
in, and whenever the tasks read what the others have left: each status and each frame of
telemetry, read as JSON, has under the keys of the radar the numbers that one report frame among
the bytes carries, or zeros, and under the keys of the microphone the minimum and the maximum of
one complete block of samples, or of silence. No cast and no copy between the tasks changes or
mixes any of them. -/
theorem readings_told (steps : List Step) (s : Node)
    (h : Guarded.exec (step room) {} steps = some s) :
    ∀ text ∈ s.documents, ∃ members data window, parse text = some members ∧
      (members.map Prod.fst).Nodup ∧ FromRadar s.radar.consumed data ∧
      (∀ reading ∈ radarMembers data ++ micMembers window,
        (ascii reading.1, FlatJson.Value.number reading.2) ∈ members) ∧
      (window = {} ∨ ∃ k,
        let block := ((s.heard.drop (k * windowSamples)).take windowSamples).map level
        block.length = windowSamples ∧ block.min? = some window.minLevel ∧
          block.max? = some window.maxLevel ∧
          window.peakToPeak = window.maxLevel - window.minLevel) := by
  have hs := Guarded.exec_preserves Sound (sound_step room) h sound_boot
  intro text htext
  obtain ⟨members, data, window, hparse, hkeys, hdata, hmic, hreadings⟩ := hs.documents text htext
  refine ⟨members, data, window, hparse, hkeys, hdata, hreadings, ?_⟩
  obtain hsilent | ⟨k, hlength, hwindow⟩ := hmic
  · exact Or.inl hsilent
  · right
    have hne := block_ne_nil hlength
    obtain ⟨hmin, hmax⟩ := Mic.levels_eq hne
    refine ⟨k, ?_, ?_, ?_, ?_⟩
    · rw [List.length_map, hlength]
    · rw [hmin, hwindow]
    · rw [hmax, hwindow]
    · rw [hwindow, Mic.levels_peakToPeak hne]

section block
variable {s : Node}

theorem exec_radar {actions : List Radar.Action} {radar : Radar}
    (h : Guarded.exec Radar.step s.radar actions = some radar) :
    Guarded.exec (step room) s (actions.map .radar) = some { s with radar } := by
  induction actions generalizing s with
  | nil =>
    obtain rfl := Option.some.inj h
    rfl
  | cons action actions ih =>
    obtain ⟨next, hnext, hrest⟩ := Guarded.exec_cons.mp h
    refine Guarded.exec_cons.mpr ⟨{ s with radar := next }, ?_, ih hrest⟩
    rw [step, hnext]
    rfl

/-- Samples that do not complete a window. -/
theorem exec_samples (hencoder : s.sampler.encoder.InRange) (hquiet : s.windows.publishing = none)
    (xs : List (BitVec 12)) (hfew : s.sampler.samplesInWindow + xs.length < windowSamples) :
    ∃ encoder : PcmEncoder, encoder.InRange ∧
      Guarded.exec (step room) s (xs.map .sample) = some { s with
        sampler := {
          encoder
          window := xs.foldl (fun window data => window.add (level data)) s.sampler.window
          samplesInWindow := s.sampler.samplesInWindow + xs.length }
        heard := s.heard ++ xs } := by
  induction xs generalizing s with
  | nil =>
    refine ⟨s.sampler.encoder, hencoder, ?_⟩
    rw [List.append_nil]
    rfl
  | cons data xs ih =>
    rw [List.length_cons] at hfew
    have hmore : ¬ s.sampler.samplesInWindow + 1 = windowSamples := by omega
    have hone : s.sample data = some { s with
        sampler := {
          encoder := s.sampler.encoder.track (Mic.raw data)
          window := s.sampler.window.add (level data)
          samplesInWindow := s.sampler.samplesInWindow + 1 }
        heard := s.heard ++ [data] } := by
      rw [sample, if_pos hquiet, Sampler.take_eq hencoder, Sampler.exact, if_neg hmore]
      rfl
    have hnext := PcmEncoder.track_inRange hencoder (Mic.raw data)
    obtain ⟨encoder, hinRange, hrest⟩ := @ih { s with
        sampler := {
          encoder := s.sampler.encoder.track (Mic.raw data)
          window := s.sampler.window.add (level data)
          samplesInWindow := s.sampler.samplesInWindow + 1 }
        heard := s.heard ++ [data] } hnext hquiet (by
      change s.sampler.samplesInWindow + 1 + xs.length < windowSamples
      omega)
    refine ⟨encoder, hinRange, Guarded.exec_cons.mpr ⟨_, hone, hrest.trans ?_⟩⟩
    have hcount : s.sampler.samplesInWindow + 1 + xs.length =
        s.sampler.samplesInWindow + (xs.length + 1) := by omega
    dsimp only
    rw [hcount, List.append_assoc]
    rfl

/-- A block that the sampler begins with leaves its levels with publishWindow. -/
theorem exec_block {xs : List (BitVec 12)} {data : BitVec 12}
    (hlength : xs.length + 1 = windowSamples) (radar : Radar) :
    ∃ encoder : PcmEncoder, Guarded.exec (step room) { radar } ((xs ++ [data]).map .sample) =
      some {
        radar
        sampler := { encoder }
        windows := {
          lastWindow := levels (xs ++ [data])
          publishing := some (levels (xs ++ [data])) }
        heard := xs ++ [data] } := by
  obtain ⟨encoder, hinRange, hrun⟩ := @exec_samples room { radar } PcmEncoder.reset_inRange rfl xs
    (by change 0 + xs.length < windowSamples; omega)
  refine ⟨encoder.track (Mic.raw data), ?_⟩
  have hfull : 0 + xs.length + 1 = windowSamples := by omega
  rw [List.map_append, Guarded.exec_append, hrun, Option.bind_some]
  refine Guarded.exec_cons.mpr ⟨_, ?_, rfl⟩
  rw [step, sample, if_pos rfl, Sampler.take_eq hinRange, Sampler.exact, if_pos hfull,
    Mic.levels_append]
  rfl

end block

/-- A block of samples with a bang at its end. -/
def bang : List (BitVec 12) := List.replicate (windowSamples - 1) 2048 ++ [3048]

/-- A status for somebody at 80 cm, behind the bang. -/
def somebody : Made where
  presenceNow := true
  mic := { minLevel := 2048, maxLevel := 3048 }
  report := { targetState := 1, movingDistanceCm := 80, movingEnergy := 50 }
  audioDroppedSamples := 0
  pushLost := 0
  audioStreaming := false
  pushBackingOff := false
  uptimeMs := 5000
  telemetryClient := some false

/-- What the radar's tasks do with the frame. -/
def frameActions : List Radar.Action :=
  .receive Radar.movingFrame ::
    (List.replicate 19 .feed ++ List.replicate 5 .store ++ [.publish, .radarReport])

/-- The frame and the block come in before the status. -/
def somebodyNear : List Step :=
  frameActions.map .radar ++ (bang.map .sample ++
    [.window .overwrite, .micLastWindow, .send somebody])

theorem levels_bang : levels bang = somebody.mic := by
  obtain ⟨still, hstill⟩ : ∃ still, still = List.replicate (windowSamples - 1) (2048 : BitVec 12) :=
    ⟨_, rfl⟩
  have hpositive : 0 < windowSamples - 1 := by decide
  have hne : still ≠ [] := by
    apply List.ne_nil_of_length_pos
    rw [hstill, List.length_replicate]
    exact hpositive
  have hlevel : still.map level = List.replicate (windowSamples - 1) (level 2048) := by
    rw [hstill, List.map_replicate]
  obtain ⟨hmin, hmax⟩ := Mic.levels_eq hne
  rw [hlevel, List.min?_replicate_of_pos hpositive] at hmin
  rw [hlevel, List.max?_replicate_of_pos hpositive] at hmax
  have hlevels : levels still = ⟨level 2048, level 2048⟩ := by
    calc levels still = ⟨(levels still).minLevel, (levels still).maxLevel⟩ := rfl
      _ = ⟨level 2048, level 2048⟩ := by rw [← Option.some.inj hmin, ← Option.some.inj hmax]
  rw [bang, Mic.levels_append, ← hstill, hlevels]
  decide

/-- The run with the bang ends with the one status. -/
theorem exec_somebody : ∃ s, Guarded.exec (step id) {} somebodyNear = some s ∧
    s.documents = [somebody.document.text id] := by
  have hread : ∃ radar ∈ Guarded.exec Radar.step {} frameActions,
      somebody.report ∈ radar.published.observed.map Prod.snd := by decide +kernel
  obtain ⟨radar, hframe, hreport⟩ := hread
  have hlength : (List.replicate (windowSamples - 1) (2048 : BitVec 12)).length + 1 =
      windowSamples := by
    rw [List.length_replicate]
    rfl
  obtain ⟨encoder, hblock⟩ := @exec_block id _ 3048 hlength radar
  change Guarded.exec (step id) { radar } (bang.map .sample) = some {
    radar
    sampler := { encoder }
    windows := { lastWindow := levels bang, publishing := some (levels bang) }
    heard := bang } at hblock
  rw [levels_bang] at hblock
  have hradar := @exec_radar id {} frameActions radar hframe
  rw [somebodyNear, Guarded.exec_append, hradar, Option.bind_some, Guarded.exec_append, hblock,
    Option.bind_some]
  refine ⟨_, Guarded.exec_cons.mpr ⟨_, rfl, Guarded.exec_cons.mpr ⟨_, rfl,
    Guarded.exec_cons.mpr ⟨_, if_pos ⟨hreport, List.mem_singleton_self _⟩, rfl⟩⟩⟩, rfl⟩

theorem somebody_near_told : ∃ (s : Node) (text : List UInt8),
    Guarded.exec (step id) {} somebodyNear = some s ∧ s.documents = [text] ∧
      (ascii "movingDistanceCm", FlatJson.Value.number 80) ∈ (parse text).getD [] ∧
      (ascii "micPeakToPeak", FlatJson.Value.number 1000) ∈ (parse text).getD [] ∧
      ∃ members data window, parse text = some members ∧ FromRadar s.radar.consumed data ∧
        (∀ reading ∈ radarMembers data ++ micMembers window,
          (ascii reading.1, FlatJson.Value.number reading.2) ∈ members) ∧
        (window = {} ∨ ∃ k,
          let block := ((s.heard.drop (k * windowSamples)).take windowSamples).map level
          block.length = windowSamples ∧ block.min? = some window.minLevel ∧
            block.max? = some window.maxLevel ∧
            window.peakToPeak = window.maxLevel - window.minLevel) := by
  obtain ⟨s, hrun, hone⟩ := exec_somebody
  have hmem : somebody.document.text id ∈ s.documents := by
    rw [hone]
    exact List.mem_singleton_self _
  obtain ⟨members, data, window, hparse, -, hdata, hreadings, hblock⟩ :=
    readings_told id somebodyNear s hrun _ hmem
  exact ⟨s, _, hrun, hone, by decide +kernel, by decide +kernel, members, data, window, hparse,
    hdata, hreadings, hblock⟩

end Node

end RoomWatchdog.Readings
