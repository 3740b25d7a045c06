import RoomWatchdog.Library.TimedWait
import RoomWatchdog.Startup.Order

namespace RoomWatchdog.Startup
open Config (wifiConnectTimeoutMs ntpSyncTimeoutMs)
open TimedWait (turns)

/-- How many lines of its own the loop task is at most from loop(), or from halting. -/
def Line.left (now : Nat) : Line → Nat
  | .micBegin .windowQueue => 142
  | .micBegin .pcmAvailable => 141
  | .micBegin .ioToChannel => 140
  | .micBegin .newHandle => 139
  | .micBegin .config => 138
  | .micBegin .start => 137
  | .micBegin .micAdcTask => 136
  | .radarBegin => 135
  | .radarApplyTuning => 134
  | .connectWifi start => turns wifiConnectTimeoutMs.toNat 250 (now - start) + 53
  | .gotifyBegin .queueLock => 52
  | .gotifyBegin .queueSignal => 51
  | .gotifyBegin .gotifyWorkerTask => 50
  | .gotifyBegin .pushesDisabled => 49
  | .netPoll _ => 48
  | .syncClock _ start => turns ntpSyncTimeoutMs.toNat 250 (now - start) + 7
  | .server => 6
  | .audioServerTask => 5
  | .alert _ .checking => 4
  | .alert _ .locking => 3
  | .alert _ .holding => 2
  | .alert _ .signalling => 1
  | .micBegin .stop => 2
  | .micBegin .deinit => 1
  | .halted | .micSampleWindow | .radarPoll | .notify | .pushLostCount _ => 0

namespace Node

/-- setup() is over. -/
def ended (s : Node) : Bool := s.loopTask = .halted || s.loopTask.looping

def left (s : Node) : Nat := s.loopTask.left s.now

def isLoopTask : Step → Bool
  | .loopTask _ => true
  | _ => false

/-- No line of the loop task lasts longer. -/
def Prompt (slack : Nat) : Step → Prop
  | .loopTask answer => answer.lasted ≤ slack
  | _ => True

instance (slack : Nat) : DecidablePred (Prompt slack)
  | .loopTask answer => inferInstanceAs (Decidable (answer.lasted ≤ slack))
  | .adcRead _ | .publishWindow | .appendPcm _ | .worker _ | .observe | .observer _ _ | .audio =>
    isTrue trivial

/-- No wait has been longer than its timeout and one more turn. -/
def Timely (slack : Nat) (s : Node) : Prop :=
  ∀ start timeout, s.loopTask.wait = some (start, timeout) →
    start ≤ s.now ∧ s.now - start < timeout.toNat + slack

section steps
variable {s t : Node} {a : Answer} {slack : Nat} {gotifyUrl : List UInt8}

theorem left_micBegin (line : MicBegin) (now : Nat) :
    (s.micBegin a line).ended = true ∨
      (s.micBegin a line).left + 1 ≤ (Line.micBegin line).left now := by
  obtain ⟨ok, begun, lasted, todo⟩ := a
  cases line with
  | pcmAvailable =>
    cases ok <;> cases hqueue : s.windowQueue <;> simp [micBegin, left, ended, Line.left, hqueue]
  | windowQueue | stop | deinit => simp [micBegin, left, ended, Line.left]
  | ioToChannel | newHandle | config | start | micAdcTask =>
    cases ok <;> simp [micBegin, left, ended, Line.left]

theorem left_gotifyBegin (line : GotifyBegin) (now : Nat) :
    (s.gotifyBegin a line).left + 1 ≤ (Line.gotifyBegin line).left now := by
  obtain ⟨ok, begun, lasted, todo⟩ := a
  cases line with
  | gotifyWorkerTask =>
    cases ok <;> cases hlock : s.queueLock && s.queueSignal <;>
      simp [gotifyBegin, left, Line.left, hlock]
  | queueLock | queueSignal | pushesDisabled => simp [gotifyBegin, left, Line.left]

theorem left_netPoll (booted : Bool) (now : Nat) :
    (s.netPoll gotifyUrl a booted).ended = true ∨
      (s.netPoll gotifyUrl a booted).left + 1 ≤ (Line.netPoll booted).left now := by
  have hpolled : ∀ {u : Node}, u.loopTask = polled booted → u.ended = true ∨ u.left + 1 ≤ 48 := by
    intro u hu
    cases booted <;> simp [left, ended, Line.left, Line.looping, polled, hu]
  rw [netPoll]
  split_ifs
  · exact hpolled rfl
  · right
    have hturns : turns ntpSyncTimeoutMs.toNat 250 0 = 40 := by decide
    simp [left, Line.left, hturns, call]
  · exact hpolled rfl

theorem left_alert (booted : Bool) (stage : Stage) (now : Nat) :
    (s.alert a booted stage).ended = true ∨
      (s.alert a booted stage).left + 1 ≤ (Line.alert booted stage).left now := by
  rw [alert]
  cases stage with
  | checking =>
    cases hlock : s.queueLock <;> cases booted <;>
      simp [visit, left, ended, Line.left, Line.looping, hlock]
  | locking =>
    cases hok : a.ok <;> cases booted <;>
      simp [visit, left, ended, Line.left, Line.looping]
  | holding | signalling =>
    cases booted <;> simp [visit, left, ended, Line.left, Line.looping]

theorem alert_loopTask (booted : Bool) (stage : Stage) :
    (∃ next, (s.alert a booted stage).loopTask = .alert booted next) ∨
      (s.alert a booted stage).loopTask = if booted then .notify else .micSampleWindow := by
  rw [alert]
  rcases s.visit true a.ok stage with ⟨t, next⟩
  cases next with
  | some next => exact Or.inl ⟨next, rfl⟩
  | none => exact Or.inr rfl

theorem pushLostCount_loopTask (stage : Stage) :
    (∃ next, (s.pushLostCount a stage).loopTask = .pushLostCount next) ∨
      (s.pushLostCount a stage).loopTask = .notify := by
  rw [pushLostCount]
  rcases s.visit false a.ok stage with ⟨t, next⟩
  cases next with
  | some next => exact Or.inl ⟨next, rfl⟩
  | none => exact Or.inr rfl

/-- The lines of loop() lead to each other. -/
theorem looping_line (h : s.loopTask.looping = true) :
    (s.line gotifyUrl a).loopTask.looping = true := by
  cases hline : s.loopTask with
  | netPoll booted =>
    rw [hline] at h
    obtain rfl : booted = true := h
    simp only [line, hline, netPoll]
    split_ifs <;> rfl
  | syncClock booted start =>
    rw [hline] at h
    obtain rfl : booted = true := h
    simp only [line, hline]
    rfl
  | alert booted stage =>
    rw [hline] at h
    obtain rfl : booted = true := h
    simp only [line, hline]
    rcases @alert_loopTask s a true stage with ⟨next, hnext⟩ | hnext <;> rw [hnext] <;> rfl
  | pushLostCount stage =>
    simp only [line, hline]
    rcases @pushLostCount_loopTask s a stage with ⟨next, hnext⟩ | hnext <;> rw [hnext] <;> rfl
  | notify =>
    simp only [line, hline, notify]
    cases a.todo with
    | radarCalibrateBackground => exact h
    | alert | pushLostCount | loop => rfl
  | micSampleWindow | radarPoll =>
    simp only [line, hline]
    rfl
  | _ =>
    rw [hline] at h
    cases h

theorem ended_line (h : s.ended = true) : (s.line gotifyUrl a).ended = true := by
  rcases Bool.or_eq_true_iff.mp h with hhalted | hlooping
  · have hline : s.line gotifyUrl a = s := by
      rw [line, of_decide_eq_true hhalted]
    rwa [hline]
  · exact Bool.or_eq_true_iff.mpr (Or.inr (looping_line hlooping))

theorem left_line (hgoing : s.ended = false) (now : Nat) :
    (s.line gotifyUrl a).ended = true ∨
      (s.line gotifyUrl a).left + 1 ≤ s.loopTask.left now := by
  rw [line]
  cases hline : s.loopTask with
  | micBegin line => exact left_micBegin line now
  | gotifyBegin line => exact Or.inr (left_gotifyBegin line now)
  | netPoll booted => exact left_netPoll booted now
  | alert booted stage => exact left_alert booted stage now
  | radarApplyTuning =>
    right
    have hturns : turns wifiConnectTimeoutMs.toNat 250 0 = 80 := by decide
    simp [left, Line.left, hturns, call]
  | syncClock booted start =>
    cases booted <;> simp [left, ended, Line.left, Line.looping, polled]
  | radarBegin | connectWifi start | server | audioServerTask =>
    right
    simp [left, Line.left]
  | halted | micSampleWindow | radarPoll | notify | pushLostCount stage =>
    simp [ended, Line.looping, hline] at hgoing

/-- A line of the loop task brings it nearer to the end, or is another turn of a wait. -/
theorem loopTaskStep_cases (h : s.loopTaskStep gotifyUrl a = some t) :
    s.waits a = true ∧ 250 ≤ a.lasted ∧ t = { s with now := s.now + a.lasted } ∨
      s.waits a = false ∧ t = ({ s with now := s.now + a.lasted } : Node).line gotifyUrl a := by
  rw [loopTaskStep] at h
  split_ifs at h with hwaits hlong
  · exact Or.inl ⟨hwaits, hlong, (Option.some.inj h).symm⟩
  · exact Or.inr ⟨Bool.eq_false_iff.mpr hwaits, (Option.some.inj h).symm⟩

theorem waits_cases (h : s.waits a = true) :
    ∃ start timeout, s.loopTask.wait = some (start, timeout) ∧
      WrapClock.read s.now - WrapClock.read start < timeout := by
  rw [waits] at h
  split at h
  next start timeout hwait =>
    exact ⟨start, timeout, hwait, of_decide_eq_true (Bool.and_eq_true_iff.mp h).2⟩
  · cases h

/-- A wait begins with its first look at the clock. -/
theorem wait_line {start : Nat} {timeout : UInt32}
    (h : (s.line gotifyUrl a).loopTask.wait = some (start, timeout)) :
    start = (s.line gotifyUrl a).now ∧ 0 < timeout.toNat := by
  cases hline : s.loopTask with
  | radarApplyTuning =>
    simp only [line, hline, Line.wait, Option.some.injEq, Prod.mk.injEq] at h ⊢
    exact ⟨h.1.symm, h.2 ▸ by decide⟩
  | netPoll booted =>
    simp only [line, hline, netPoll] at h ⊢
    split_ifs at h ⊢
    · cases booted <;> cases h
    · simp only [Line.wait, Option.some.injEq, Prod.mk.injEq] at h
      exact ⟨h.1.symm, h.2 ▸ by decide⟩
    · cases booted <;> cases h
  | micBegin line =>
    exfalso
    obtain ⟨ok, begun, lasted, todo⟩ := a
    simp only [Node.line, hline] at h
    cases line with
    | pcmAvailable =>
      cases ok <;> cases hqueue : s.windowQueue <;> simp [micBegin, hqueue, Line.wait] at h
    | _ => cases ok <;> simp [micBegin, Line.wait] at h
  | gotifyBegin line =>
    exfalso
    obtain ⟨ok, begun, lasted, todo⟩ := a
    simp only [Node.line, hline] at h
    cases line with
    | gotifyWorkerTask =>
      cases ok <;> cases hlock : s.queueLock && s.queueSignal <;>
        simp [gotifyBegin, hlock, Line.wait] at h
    | _ => simp [gotifyBegin, Line.wait] at h
  | alert booted stage =>
    exfalso
    simp only [line, hline] at h
    rcases @alert_loopTask s a booted stage with ⟨next, hnext⟩ | hnext <;> rw [hnext] at h
    · cases h
    · cases booted <;> cases h
  | pushLostCount stage =>
    exfalso
    simp only [line, hline] at h
    rcases @pushLostCount_loopTask s a stage with ⟨next, hnext⟩ | hnext <;> rw [hnext] at h <;>
      cases h
  | notify =>
    exfalso
    simp only [line, hline, notify] at h
    cases htodo : a.todo <;> simp [htodo, Line.wait, call, hline] at h
  | syncClock booted start =>
    exfalso
    simp only [line, hline] at h
    cases booted <;> simp [polled, Line.wait] at h
  | halted | radarBegin | connectWifi | server | audioServerTask | micSampleWindow | radarPoll =>
    exfalso
    simp [line, hline, Line.wait] at h

theorem timely_line : Timely slack (s.line gotifyUrl a) := by
  intro start timeout hwait
  obtain ⟨hstart, htimeout⟩ := wait_line hwait
  omega

/-- Another turn: the clock shows that the time is not up, and so it was before the sleep. -/
theorem timely_wait (hslack : wifiConnectTimeoutMs.toNat + slack ≤ 2 ^ 32) (hs : Timely slack s)
    (hprompt : a.lasted ≤ slack) (hwaits : s.waits a = true) :
    Timely slack { s with now := s.now + a.lasted } ∧
      ∃ start timeout, s.loopTask.wait = some (start, timeout) ∧ start ≤ s.now ∧
        s.now - start < timeout.toNat := by
  obtain ⟨start, timeout, hwait, hgoing⟩ := waits_cases hwaits
  obtain ⟨hstart, helapsed⟩ := hs start timeout hwait
  have htimeout : timeout.toNat ≤ wifiConnectTimeoutMs.toNat := by
    cases hline : s.loopTask with
    | connectWifi start | syncClock booted start =>
      rw [hline] at hwait
      obtain ⟨-, rfl⟩ := Prod.mk.inj (Option.some.inj hwait)
      decide
    | _ =>
      rw [hline] at hwait
      cases hwait
  have hearly : s.now - start < timeout.toNat :=
    (TimedWait.going_iff hstart (by omega) helapsed).mp hgoing
  refine ⟨?_, start, timeout, hwait, hstart, hearly⟩
  intro start' timeout' hwait'
  obtain ⟨rfl, rfl⟩ := Prod.mk.inj (Option.some.inj (hwait.symm.trans hwait'))
  show start ≤ s.now + a.lasted ∧ s.now + a.lasted - start < timeout.toNat + slack
  omega

theorem left_wait {start lasted : Nat} {timeout : UInt32}
    (hwait : s.loopTask.wait = some (start, timeout)) (hstart : start ≤ s.now)
    (hearly : s.now - start < timeout.toNat) (hlasted : 250 ≤ lasted) :
    s.loopTask.left (s.now + lasted) + 1 ≤ s.left := by
  have hturn := TimedWait.turns_lt (by decide) hearly hlasted
  have hlater : s.now + lasted - start = s.now - start + lasted := by omega
  cases hline : s.loopTask with
  | connectWifi start' | syncClock booted start' =>
    rw [hline] at hwait
    obtain ⟨rfl, rfl⟩ := Prod.mk.inj (Option.some.inj hwait)
    simp only [left, hline, Line.left, hlater]
    omega
  | _ =>
    rw [hline] at hwait
    cases hwait

/-- The other tasks leave the loop task where it is. -/
theorem step_others {step : Step} (hother : isLoopTask step = false)
    (h : s.step gotifyUrl step = some t) : t.loopTask = s.loopTask ∧ t.now = s.now := by
  cases step with
  | loopTask answer => cases hother
  | adcRead ok | publishWindow | observe | audio =>
    obtain ⟨-, hnew⟩ := Option.ite_none_right_eq_some.mp h
    obtain rfl := Option.some.inj hnew
    exact ⟨rfl, rfl⟩
  | appendPcm added =>
    obtain ⟨-, hnew⟩ := Option.ite_none_right_eq_some.mp h
    obtain rfl := Option.some.inj hnew
    cases added <;> exact ⟨rfl, rfl⟩
  | worker ok =>
    obtain ⟨place, -, hstep⟩ := Option.bind_eq_some_iff.mp h
    cases place <;> obtain rfl := Option.some.inj hstep <;> exact ⟨rfl, rfl⟩
  | observer i ok =>
    obtain ⟨stage, -, hstep⟩ := Option.bind_eq_some_iff.mp h
    rcases hvisit : s.visit false ok stage with ⟨u, next⟩
    obtain ⟨calls, rfl⟩ := visit_keeps hvisit
    rw [hvisit] at hstep
    cases next with
    | some next | none =>
      obtain rfl := Option.some.inj hstep
      exact ⟨rfl, rfl⟩

theorem ends_step (hslack : wifiConnectTimeoutMs.toNat + slack ≤ 2 ^ 32)
    (s : Node) (step : Step) (t : Node)
    (h : s.step gotifyUrl step = some t) (hprompt : Prompt slack step) (hs : Timely slack s) :
    Timely slack t ∧ (s.ended = true → t.ended = true) ∧
      (t.ended = false → t.left + (if isLoopTask step then 1 else 0) ≤ s.left) := by
  cases step with
  | loopTask answer =>
    rcases loopTaskStep_cases h with ⟨hwaits, hlong, rfl⟩ | ⟨-, rfl⟩
    · obtain ⟨htimely, start, timeout, hwait, hstart, hearly⟩ :=
        timely_wait hslack hs hprompt hwaits
      exact ⟨htimely, id, fun _ => left_wait hwait hstart hearly hlong⟩
    · have hkeep : s.ended = true →
          (({ s with now := s.now + answer.lasted } : Node).line gotifyUrl answer).ended = true :=
        fun hended => ended_line hended
      refine ⟨timely_line, hkeep, ?_⟩
      intro hgoing
      have hbefore : s.ended = false := by
        apply Bool.eq_false_iff.mpr
        intro hended
        rw [hkeep hended] at hgoing
        cases hgoing
      have hnearer :=
        @left_line { s with now := s.now + answer.lasted } answer gotifyUrl hbefore s.now
      exact hnearer.resolve_left (Bool.eq_false_iff.mp hgoing)
  | adcRead | publishWindow | appendPcm | worker | observe | observer | audio =>
    obtain ⟨hline, hnow⟩ := step_others rfl h
    refine ⟨?_, ?_, ?_⟩
    · intro start timeout hwait
      rw [hline] at hwait
      rw [hnow]
      exact hs start timeout hwait
    · intro hended
      rwa [ended, hline]
    · intro _
      rw [left, hline, hnow]
      exact Nat.le_refl _

theorem left_pos (h : s.ended = false) : 0 < s.left := by
  cases hline : s.loopTask with
  | micBegin line => cases line <;> simp [left, Line.left, hline]
  | gotifyBegin line => cases line <;> simp [left, Line.left, hline]
  | alert booted stage => cases stage <;> simp [left, Line.left, hline]
  | radarBegin | radarApplyTuning | connectWifi start | netPoll booted | syncClock booted start
  | server | audioServerTask => simp [left, Line.left, hline]
  | halted | micSampleWindow | radarPoll | notify | pushLostCount stage =>
    simp [ended, Line.looping, hline] at h

end steps

/-- The node comes up whatever the network does. With no line that lasts for weeks, and with a
delay(250) lasting 250 ms at least by millis(), the loop task is in loop() or has halted after 142
lines of its own, each look at the WiFi or at the clock being one, and it loops exactly if the
microphone has its task: neither the WiFi, the time, mDNS, the pushes nor the servers can keep it
from that. And no wait for the WiFi or for the time, in setup()
or in loop(), lasts longer than its timeout and one more sleep. -/
theorem setup_ends (gotifyUrl : List UInt8) (slack : Nat)
    (hslack : wifiConnectTimeoutMs.toNat + slack ≤ 2 ^ 32)
    (steps : List Step) (s : Node) (h : Guarded.exec (step gotifyUrl) {} steps = some s)
    (hprompt : ∀ step ∈ steps, Prompt slack step) :
    (142 ≤ steps.countP isLoopTask → (s.loopTask.looping = true ∨ s.loopTask = .halted) ∧
      (s.loopTask.looping = true ↔ s.micAdcTask ≠ none)) ∧
    ∀ start timeout, s.loopTask.wait = some (start, timeout) →
      start ≤ s.now ∧ s.now - start < timeout.toNat + slack := by
  have hboot : Timely slack {} := by
    intro start timeout hwait
    cases hwait
  obtain ⟨htimely, -, hrank⟩ := Guarded.exec_ends (Timely slack) (Prompt slack) isLoopTask ended
    left (ends_step hslack) h hprompt hboot
  refine ⟨?_, htimely⟩
  intro hmany
  have hended : s.ended = true := by
    by_contra hgoing
    have hgoing : s.ended = false := Bool.eq_false_iff.mpr hgoing
    have hpos := left_pos hgoing
    have hfew : s.left + steps.countP isLoopTask ≤ 142 := hrank hgoing
    omega
  have hplaced := (Guarded.exec_preserves Sound (sound_step gotifyUrl) h sound_boot).placed
  have hhalted : s.loopTask = .halted → s.micAdcTask = none := by
    intro hhalted
    have hmic := hplaced.micAdcTask
    rw [hhalted] at hmic
    simpa using hmic
  rcases Bool.or_eq_true_iff.mp hended with hstopped | hlooping
  · have hline : s.loopTask = .halted := of_decide_eq_true hstopped
    refine ⟨Or.inr hline, ?_⟩
    rw [hline, hhalted hline]
    decide
  · refine ⟨Or.inl hlooping, fun _ => ?_, fun _ => hlooping⟩
    exact hplaced.micAdcTask.mpr (by rw [Line.number_of_looping hlooping]; decide)

/-- There is no WiFi and no worker for the pushes. -/
def withoutWifi : List Step :=
  let line (ok : Bool) : Step := .loopTask { ok, lasted := 250 }
  List.replicate 9 (line true) ++ List.replicate 81 (line false) ++
    [line true, line true, .adcRead true, line false] ++ List.replicate 50 (line false)

theorem without_wifi_ends : ∃ s,
    Guarded.exec (step (FlatJson.ascii "https://gotify")) {} withoutWifi = some s ∧
      s.servicesStarted = false ∧ s.loopTask.looping = true := by
  have hrun : ∃ s ∈ Guarded.exec (step (FlatJson.ascii "https://gotify")) {} withoutWifi,
      s.servicesStarted = false ∧ s.micAdcTask ≠ none := by decide +kernel
  obtain ⟨s, hs, hservices, hmic⟩ := hrun
  have hprompt : ∀ step ∈ withoutWifi, Prompt 250 step := by decide +kernel
  have hmany : 142 ≤ withoutWifi.countP isLoopTask := by decide +kernel
  obtain ⟨hends, -⟩ := setup_ends _ 250 (by decide) withoutWifi s hs hprompt
  exact ⟨s, hs, hservices, (hends hmany).2.mpr hmic⟩

end Node
end RoomWatchdog.Startup
