import RoomWatchdog.Ld2412.Commands
import RoomWatchdog.Library.Guarded
import RoomWatchdog.Library.Latch
import RoomWatchdog.Notifications

namespace RoomWatchdog.Calibration
open Ld2412Commands (Builder Command maxFrame sent)
open Notifications (Emission alert)

/-- The sendFrame and sendCommand calls of radarApplyTuning. -/
def radarApplyTuning : List Builder :=
  [.enableConfig,
    .basicParams Config.radarMinGate Config.radarMaxGate Config.radarUnmannedSeconds 0,
    .motionSensitivity Config.radarMotionSensitivity,
    .staticSensitivity Config.radarStaticSensitivity,
    .endConfig]

def radarCalibrateBackground : List Builder :=
  [.enableConfig, .backgroundCorrection, .endConfig]

/-- Who calls requestCalibration. -/
inductive Source where
  | http
  | socket
  | button
  deriving DecidableEq

/-- Where the loop task stands: with calls of sendFrame to make, the first now, for the tuning
or for a calibration, or in front of the alert, or elsewhere. -/
inductive Place where
  | sending (calls : List Builder) (calibration : Bool)
  | alerting
  | passing
  deriving DecidableEq

/-- The flag between the tasks, and what the loop task has written to Serial1 and handed out. -/
structure Node where
  calibrationRequested : Latch.State Source := {}
  place : Place := .sending radarApplyTuning false
  tx : List UInt8 := []
  alerts : List Emission := []

/-- A step of any task that requests a calibration, or of the loop task. `out` is what sendFrame's
caller has on its stack. -/
inductive Step where
  | requestCalibration (source : Source)
  | pollCalibrationRequest
  | sendFrame (out : Vector UInt8 maxFrame)
  | alert

def calibrationAlert : Emission :=
  alert .calibration "Radar calibration starts in 10s - leave the room! (takes ~2 min)"

namespace Node

/-- pollCalibrationRequest up to its first call of sendFrame. -/
def poll (s : Node) : Option Node :=
  if s.place = .passing then
    let (calibrationRequested, requested) := s.calibrationRequested.exchange
    some { s with
      calibrationRequested
      place := if requested then .sending radarCalibrateBackground true else .passing }
  else none

/-- One call of sendFrame, with the delay behind it. -/
def send (s : Node) (out : Vector UInt8 maxFrame) : Option Node :=
  match s.place with
  | .sending (call :: calls) calibration => do
    let built ← call.build out
    some { s with
      tx := s.tx ++ sent built
      place :=
        if calls ≠ [] then .sending calls calibration
        else if calibration then .alerting
        else .passing }
  | _ => none

def alert (s : Node) : Option Node :=
  if s.place = .alerting then
    some { s with alerts := s.alerts ++ [calibrationAlert], place := .passing }
  else none

def step (s : Node) : Step → Option Node
  | .requestCalibration source =>
    some { s with calibrationRequested := s.calibrationRequested.raise source }
  | .pollCalibrationRequest => s.poll
  | .sendFrame out => s.send out
  | .alert => s.alert

end Node

/-- The requests of a run, in order. -/
def requests (steps : List Step) : List Source :=
  steps.filterMap fun
    | .requestCalibration source => some source
    | .pollCalibrationRequest | .sendFrame _ | .alert => none

/-! The bracket rule of Ld2412Commands: commands stand between enableConfig and endConfig. -/

/-- Whether a bracket is open, none where a command breaks the rule. A module that is out of
configuration mode at boot and gets every frame is in that mode exactly while one is open. -/
def configMode (enabled : Bool) : Builder → Option Bool
  | .enableConfig => if enabled then none else some true
  | .endConfig => if enabled then some false else none
  | .motionSensitivity _ | .staticSensitivity _ | .basicParams _ _ _ _ | .backgroundCorrection =>
    if enabled then some true else none

/-- The tuning and `n` calibrations. -/
def script (n : Nat) : List Builder :=
  radarApplyTuning ++ (List.replicate n radarCalibrateBackground).flatten

theorem script_succ (n : Nat) : script (n + 1) = script n ++ radarCalibrateBackground := by
  rw [script, script, List.replicate_succ', List.flatten_append, List.flatten_singleton,
    List.append_assoc]

/-- Each of them opens its bracket and closes it. -/
theorem configMode_script (n : Nat) : Guarded.exec configMode false (script n) = some false := by
  induction n with
  | zero => rfl
  | succ n ih =>
    rw [script_succ, Guarded.exec_append, ih]
    rfl

namespace Place

/-- The calls that are still to be made. -/
def left : Place → List Builder
  | sending calls _ => calls
  | alerting | passing => []

/-- A calibration has been taken on whose alert is still to come. -/
def owed : Place → Nat
  | sending _ true | alerting => 1
  | sending _ false | passing => 0

end Place

namespace Node

/-- What was sent, and what is left to be, are the tuning and a calibration for each take of
the flag. -/
structure Sound (raised : List Source) (s : Node) : Prop where
  latch : s.calibrationRequested.Sound raised
  sent : ∃ calls : List Builder, s.tx = calls.flatMap (fun call => call.command.bytes) ∧
    calls ++ s.place.left = script s.calibrationRequested.served.length
  ahead : ∀ calls calibration, s.place = .sending calls calibration → calls ≠ []
  alerts : s.alerts = List.replicate s.alerts.length calibrationAlert
  counted : s.alerts.length + s.place.owed = s.calibrationRequested.served.length

section steps
variable {s t : Node} {raised : List Source}

theorem sound_boot : Sound [] {} where
  latch := Latch.State.sound_boot
  sent := ⟨[], rfl, rfl⟩
  ahead := by
    intro calls calibration hplace
    obtain ⟨rfl, -⟩ := Place.sending.inj hplace
    exact List.cons_ne_nil _ _
  alerts := rfl
  counted := rfl

theorem poll_cases (h : s.poll = some t) : s.place = .passing ∧
    { s with
      calibrationRequested := s.calibrationRequested.exchange.1
      place := if s.calibrationRequested.exchange.2 then .sending radarCalibrateBackground true
        else .passing } = t := by
  obtain ⟨hplace, hnew⟩ := Option.ite_none_right_eq_some.mp h
  exact ⟨hplace, Option.some.inj hnew⟩

/-- sendFrame puts out the frame of its call, whatever was on the stack. -/
theorem send_cases {out : Vector UInt8 maxFrame} (h : s.send out = some t) :
    ∃ call calls calibration, s.place = .sending (call :: calls) calibration ∧
      { s with
        tx := s.tx ++ call.command.bytes
        place :=
          if calls ≠ [] then .sending calls calibration
          else if calibration then .alerting
          else .passing } = t := by
  simp only [send] at h
  split at h
  next call calls calibration hplace =>
    refine ⟨call, calls, calibration, hplace, ?_⟩
    obtain ⟨built, hbuild, hnew⟩ := Option.bind_eq_some_iff.mp h
    obtain ⟨built', hbuild', hbytes⟩ := Ld2412Commands.sent_build out call
    obtain rfl := Option.some.inj (hbuild.symm.trans hbuild')
    rw [← hbytes]
    exact Option.some.inj hnew
  · cases h

theorem alert_cases (h : s.alert = some t) : s.place = .alerting ∧
    { s with alerts := s.alerts ++ [calibrationAlert], place := .passing } = t := by
  obtain ⟨hplace, hnew⟩ := Option.ite_none_right_eq_some.mp h
  exact ⟨hplace, Option.some.inj hnew⟩

/-- A poll that finds the flag set takes on one more calibration. -/
theorem sound_poll (hs : s.Sound raised) (h : s.poll = some t) : t.Sound raised := by
  obtain ⟨hplace, rfl⟩ := poll_cases h
  obtain ⟨calls, htx, hcalls⟩ := hs.sent
  have hcounted := hs.counted
  rw [hplace] at hcalls hcounted
  have hlatch := hs.latch.exchange
  cases hflag : s.calibrationRequested.flag with
  | false =>
    rw [Latch.State.exchange_clear hflag] at hlatch ⊢
    exact ⟨hlatch, ⟨calls, htx, hcalls⟩, nofun, hs.alerts, hcounted⟩
  | true =>
    rw [Latch.State.exchange_set hflag] at hlatch ⊢
    have hmore : (s.calibrationRequested.served ++ [s.calibrationRequested.waiting]).length =
        s.calibrationRequested.served.length + 1 := by
      rw [List.length_append, List.length_singleton]
    refine ⟨hlatch, ⟨calls, htx, ?_⟩, ?_, hs.alerts, ?_⟩
    · show calls ++ radarCalibrateBackground = script _
      rw [hmore, script_succ, ← hcalls, Place.left, List.append_nil]
    · intro calls calibration hsending
      obtain ⟨rfl, -⟩ := Place.sending.inj hsending
      exact List.cons_ne_nil _ _
    · show s.alerts.length + 1 = _
      rw [hmore, ← hcounted, Place.owed]

/-- A frame goes from what is left to what was sent. -/
theorem sound_send {out : Vector UInt8 maxFrame} (hs : s.Sound raised)
    (h : s.send out = some t) : t.Sound raised := by
  obtain ⟨call, calls, calibration, hplace, rfl⟩ := send_cases h
  obtain ⟨before, htx, hcalls⟩ := hs.sent
  have hcounted := hs.counted
  rw [hplace] at hcalls hcounted
  have hsent : s.tx ++ call.command.bytes =
      (before ++ [call]).flatMap fun call => call.command.bytes := by
    rw [htx, List.flatMap_append, List.flatMap_singleton]
  have hleft : before ++ [call] ++ calls = script s.calibrationRequested.served.length := by
    rw [← hcalls, Place.left, List.append_assoc]
    rfl
  by_cases hmore : calls ≠ []
  · rw [if_pos hmore]
    refine ⟨hs.latch, ⟨_, hsent, hleft⟩, ?_, hs.alerts, ?_⟩
    · intro calls' calibration' hsending
      obtain ⟨rfl, -⟩ := Place.sending.inj hsending
      exact hmore
    · rw [← hcounted]
      cases calibration <;> rfl
  · rw [if_neg hmore]
    rw [not_not.mp hmore] at hleft
    cases calibration with
    | false => exact ⟨hs.latch, ⟨_, hsent, hleft⟩, nofun, hs.alerts, hcounted⟩
    | true => exact ⟨hs.latch, ⟨_, hsent, hleft⟩, nofun, hs.alerts, hcounted⟩

theorem sound_alert (hs : s.Sound raised) (h : s.alert = some t) : t.Sound raised := by
  obtain ⟨hplace, rfl⟩ := alert_cases h
  have hsent := hs.sent
  have hcounted := hs.counted
  rw [hplace] at hsent hcounted
  have hmore : (s.alerts ++ [calibrationAlert]).length = s.alerts.length + 1 := by
    rw [List.length_append, List.length_singleton]
  refine ⟨hs.latch, hsent, nofun, ?_, ?_⟩
  · rw [hmore, List.replicate_succ', ← hs.alerts]
  · rw [hmore]
    exact hcounted

theorem sound_step {a : Step} (hs : s.Sound raised) (h : s.step a = some t) :
    t.Sound (raised ++ requests [a]) := by
  cases a with
  | requestCalibration source =>
    obtain rfl := Option.some.inj h
    exact ⟨hs.latch.raise source, hs.sent, hs.ahead, hs.alerts, hs.counted⟩
  | pollCalibrationRequest =>
    rw [show requests [.pollCalibrationRequest] = [] from rfl, List.append_nil]
    exact sound_poll hs h
  | sendFrame out =>
    rw [show requests [.sendFrame out] = [] from rfl, List.append_nil]
    exact sound_send hs h
  | alert =>
    rw [show requests [.alert] = [] from rfl, List.append_nil]
    exact sound_alert hs h

theorem sound_exec {steps : List Step} (hs : s.Sound raised)
    (h : Guarded.exec step s steps = some t) : t.Sound (raised ++ requests steps) := by
  induction steps generalizing s raised with
  | nil =>
    obtain rfl := Option.some.inj h
    rw [show requests [] = [] from rfl, List.append_nil]
    exact hs
  | cons a steps ih =>
    obtain ⟨u, hstep, hrest⟩ := Guarded.exec_cons.mp h
    have hsplit : requests (a :: steps) = requests [a] ++ requests steps :=
      List.filterMap_append (l := [a])
    rw [hsplit, ← List.append_assoc]
    exact ih (sound_step hs hstep) hrest

end steps

/-- The loop task is never stuck: sendFrame always has its frame. -/
theorem send_isSome {s : Node} {raised : List Source} (hs : s.Sound raised)
    (out : Vector UInt8 maxFrame) {calls : List Builder} {calibration : Bool}
    (hplace : s.place = .sending calls calibration) : (s.send out).isSome = true := by
  obtain ⟨call, calls, rfl⟩ := List.exists_cons_of_ne_nil (hs.ahead calls calibration hplace)
  obtain ⟨built, hbuild, -⟩ := Ld2412Commands.sent_build out call
  rw [send, hplace]
  simp [hbuild]

/-- Calibration end to end. However the requests of the tasks come between the steps of the
loop task, none is lost and none is served twice: each is served by the calibration that the
first poll behind it takes on, together with those that came since the last one, and no
calibration is without a request. What stands on the bus can be read as commands in one way
only: the tuning and then, frame by frame and up to where the loop task stands, a background
correction in its brackets for each of these calibrations; at no time is a command sent outside
the brackets or a bracket opened twice, and none is open whenever the loop task is elsewhere.
There is one alert for each calibration. -/
theorem calibrations_served (steps : List Step) (s : Node)
    (h : Guarded.exec step {} steps = some s) :
    (s.calibrationRequested.served.flatten ++ s.calibrationRequested.waiting = requests steps ∧
      (∀ round ∈ s.calibrationRequested.served, round ≠ []) ∧
      (s.calibrationRequested.flag = true ↔ s.calibrationRequested.waiting ≠ [])) ∧
    (∃ calls : List Builder,
      (∀ cs : List Command, cs.flatMap Command.bytes = s.tx ↔ cs = calls.map Builder.command) ∧
      calls ++ s.place.left = script s.calibrationRequested.served.length ∧
      ∃ enabled, Guarded.exec configMode false calls = some enabled ∧
        (s.place = .passing ∨ s.place = .alerting → enabled = false)) ∧
    s.alerts = List.replicate s.alerts.length calibrationAlert ∧
    s.alerts.length + s.place.owed = s.calibrationRequested.served.length ∧
    ∀ out calls calibration, s.place = .sending calls calibration →
      (s.step (.sendFrame out)).isSome = true := by
  have hs : s.Sound (requests steps) := sound_exec sound_boot h
  refine ⟨⟨hs.latch.all, hs.latch.caused, hs.latch.flag⟩, ?_, hs.alerts, hs.counted,
    fun out _ _ => send_isSome hs out⟩
  obtain ⟨calls, htx, hcalls⟩ := hs.sent
  have hbytes : s.tx = (calls.map Builder.command).flatMap Command.bytes := by
    rw [htx, List.flatMap_map]
  refine ⟨calls, ?_, hcalls, ?_⟩
  · intro cs
    rw [hbytes]
    constructor
    · exact Ld2412Commands.bytes_separates.flatMap_injective Ld2412Commands.bytes_ne_nil
    · intro hsame
      rw [hsame]
  · have hall := configMode_script s.calibrationRequested.served.length
    obtain ⟨enabled, hmode⟩ := Guarded.exec_of_prefix hall ⟨_, hcalls⟩
    refine ⟨enabled, hmode, ?_⟩
    intro hplace
    have hdone : s.place.left = [] := by
      rcases hplace with hpassing | halerting
      · rw [hpassing, Place.left]
      · rw [halerting, Place.left]
    rw [hdone, List.append_nil] at hcalls
    rw [hcalls, hall] at hmode
    exact (Option.some.inj hmode).symm

/-- Two requests during the tuning and one during the calibration that serves them. -/
def threeRequests : List Step :=
  let frame : Step := .sendFrame (.replicate _ 0xA5)
  [frame, .requestCalibration .http, frame, frame, .requestCalibration .button, frame, frame,
    .pollCalibrationRequest, frame, .requestCalibration .socket, frame, frame, .alert]

theorem three_requests_served : ∃ s : Node,
    Guarded.exec step {} threeRequests = some s ∧
      s.calibrationRequested.served = [[.http, .button]] ∧
      s.calibrationRequested.waiting = [.socket] ∧ s.alerts = [calibrationAlert] ∧
      ∀ cs : List Command, cs.flatMap Command.bytes = s.tx ↔
        cs = (script 1).map Builder.command := by
  have hseen : ∃ s ∈ Guarded.exec step {} threeRequests,
      s.calibrationRequested.served = [[.http, .button]] ∧
        s.calibrationRequested.waiting = [.socket] ∧ s.alerts = [calibrationAlert] ∧
        s.place = .passing := by decide +kernel
  obtain ⟨s, hrun, hserved, hwaiting, halerts, hplace⟩ := hseen
  obtain ⟨-, ⟨calls, hcalls, hscript, -⟩, -⟩ := calibrations_served threeRequests s hrun
  rw [hserved, hplace, Place.left, List.append_nil] at hscript
  rw [hscript] at hcalls
  exact ⟨s, hrun, hserved, hwaiting, halerts, hcalls⟩

end Node

end RoomWatchdog.Calibration
