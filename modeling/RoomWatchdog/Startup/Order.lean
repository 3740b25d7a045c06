import RoomWatchdog.Startup.Boot

namespace RoomWatchdog.Startup

/-- How far setup() has come; what comes after it is all one. -/
@[simp] def Line.number : Line → Nat
  | .micBegin .windowQueue => 0
  | .micBegin .pcmAvailable => 1
  | .micBegin .ioToChannel => 2
  | .micBegin .newHandle => 3
  | .micBegin .config => 4
  | .micBegin .start => 5
  | .micBegin .micAdcTask => 6
  | .micBegin .stop => 7
  | .micBegin .deinit => 7
  | .halted => 7
  | .radarBegin => 8
  | .radarApplyTuning => 9
  | .connectWifi _ => 10
  | .gotifyBegin .queueLock => 11
  | .gotifyBegin .queueSignal => 12
  | .gotifyBegin .gotifyWorkerTask => 13
  | .gotifyBegin .pushesDisabled => 14
  | .netPoll booted => if booted then 18 else 15
  | .syncClock booted _ => if booted then 18 else 15
  | .server => 16
  | .audioServerTask => 17
  | .alert _ _ | .micSampleWindow | .radarPoll | .notify | .pushLostCount _ => 18

/-- The line that makes a resource; netPoll begins mDNS. -/
@[simp] def Resource.number : Resource → Nat
  | .windowQueue => 0
  | .pcmAvailable => 1
  | .micAdcTask => 6
  | .serial1 => 8
  | .queueLock => 11
  | .queueSignal => 12
  | .gotifyWorkerTask => 13
  | .mdns => 15
  | .server => 16
  | .audioServerTask => 17

/-- Where the ADC is at a line of setup() or loop(). -/
@[simp] def Line.Expects : Line → Adc → Prop
  | .micBegin .windowQueue, adc | .micBegin .pcmAvailable, adc | .micBegin .ioToChannel, adc
  | .micBegin .newHandle, adc | .halted, adc => adc = .absent
  | .micBegin .config, adc => adc = .created
  | .micBegin .start, adc => adc = .configured
  | .micBegin .deinit, adc => adc = .created ∨ adc = .configured
  | _, adc => adc = .running

@[simp] def Line.stage : Line → Option Stage
  | .alert _ stage | .pushLostCount stage => some stage
  | _ => none

theorem Line.expects_iff {line : Line} {adc : Adc} (h : 8 ≤ line.number) :
    line.Expects adc ↔ adc = .running := by
  cases line with
  | micBegin line => cases line <;> simp at h
  | halted => simp at h
  | _ => rfl

theorem Line.number_of_looping {line : Line} (h : line.looping = true) : line.number = 18 := by
  cases line <;> simp_all [Line.looping]

namespace Node

/-- The handles that the tasks rely on. -/
def holds (s : Node) : Resource → Bool
  | .windowQueue => s.windowQueue
  | .pcmAvailable => s.pcmAvailable
  | .queueLock => s.queueLock
  | .queueSignal => s.queueSignal
  | _ => false

/-- What may have been made already. -/
def past (s : Node) : Resource → Bool
  | .mdns => s.servicesStarted
  | resource => resource.number < s.loopTask.number

/-- There is no task yet but the loop task and micAdcTask. -/
structure Alone (s : Node) : Prop where
  gotifyWorker : s.gotifyWorker = none
  serving : s.serving = false
  audioServing : s.audioServing = false
  observers : s.observers = []

/-- What has been made is what the handles are for and the lines so far have made. -/
structure Backed (s : Node) (b : Board) : Prop where
  tried : ∀ r ∈ b.tried, s.past r = true
  made : ∀ r, s.holds r = true → r ∈ b.made
  serial1 : Resource.serial1.number < s.loopTask.number → .serial1 ∈ b.made
  adc : s.loopTask.Expects b.adc
  adcHandle : s.adcHandle = true ↔ b.adc ≠ .absent

/-- Which tasks and handles there are where the loop task stands. -/
structure Placed (s : Node) : Prop where
  queues : 2 ≤ s.loopTask.number → s.loopTask ≠ .halted →
    s.windowQueue = true ∧ s.pcmAvailable = true
  micAdcTask : s.micAdcTask ≠ none ↔ 8 ≤ s.loopTask.number
  worker : s.gotifyWorker ≠ none → 15 ≤ s.loopTask.number
  pushes : 15 ≤ s.loopTask.number → s.queueLock = true →
    s.queueSignal = true ∧ s.gotifyWorker ≠ none
  locked : s.gotifyWorker ≠ none → s.queueLock = true ∧ s.queueSignal = true
  serving : s.serving = true → 17 ≤ s.loopTask.number
  audioServing : s.audioServing = true → 18 ≤ s.loopTask.number
  observers : s.observers ≠ [] → s.serving = true
  stages : ∀ stage ∈ s.loopTask.stage.toList ++ s.observers, stage ≠ .checking →
    s.queueLock = true

structure Sound (s : Node) : Prop where
  allowed : Monitor.Accepts Board.Allows Board.after {} s.calls
  backed : s.Backed s.board
  placed : s.Placed

section steps
variable {s t : Node} {c : Call}

theorem sound_call (hs : s.Sound) (hc : s.board.Allows c) (hcalls : t.calls = s.calls ++ [c])
    (hbacked : t.Backed (s.board.after c)) (hplaced : t.Placed) : t.Sound := by
  have hboard : t.board = s.board.after c := by
    rw [board, hcalls, List.foldl_append]
    rfl
  refine ⟨?_, hboard ▸ hbacked, hplaced⟩
  rw [hcalls, Monitor.accepts_append]
  exact ⟨hs.allowed, hc, trivial⟩

theorem sound_move (hs : s.Sound) (hcalls : t.calls = s.calls) (hbacked : t.Backed s.board)
    (hplaced : t.Placed) : t.Sound := by
  have hboard : t.board = s.board := by rw [board, hcalls, board]
  refine ⟨?_, hboard ▸ hbacked, hplaced⟩
  rw [hcalls]
  exact hs.allowed

/-- Before the server and the pushes there is not much to keep. -/
theorem Placed.early (hs : s.Placed) (h : s.loopTask.number < 15) : s.Alone := by
  have hworker : s.gotifyWorker = none := by
    by_contra hne
    have := hs.worker hne
    omega
  have hserving : s.serving = false := by
    apply Bool.eq_false_iff.mpr
    intro hserves
    have := hs.serving hserves
    omega
  have haudio : s.audioServing = false := by
    apply Bool.eq_false_iff.mpr
    intro hserves
    have := hs.audioServing hserves
    omega
  refine ⟨hworker, hserving, haudio, ?_⟩
  by_contra hne
  rw [hs.observers hne] at hserving
  cases hserving

theorem placed_early (h : t.loopTask.number < 15) (hearly : t.Alone)
    (hqueues : 2 ≤ t.loopTask.number → t.loopTask ≠ .halted →
      t.windowQueue = true ∧ t.pcmAvailable = true)
    (hmic : t.micAdcTask ≠ none ↔ 8 ≤ t.loopTask.number) : t.Placed := by
  obtain ⟨hworker, hserving, haudio, hobservers⟩ := hearly
  have hstage : t.loopTask.stage = none := by
    cases hline : t.loopTask <;> first | rfl | simp [hline, Line.number] at h
  refine ⟨hqueues, hmic, ?_, ?_, ?_, ?_, ?_, ?_, ?_⟩
  · intro hne
    exact absurd hworker hne
  · intro hlate
    omega
  · intro hne
    exact absurd hworker hne
  · intro hne
    rw [hserving] at hne
    cases hne
  · intro hne
    rw [haudio] at hne
    cases hne
  · intro hne
    exact absurd hobservers hne
  · intro stage hstage'
    rw [hstage, hobservers] at hstage'
    cases hstage'

theorem past_of_le {q : Resource} (hnumber : s.loopTask.number ≤ t.loopTask.number)
    (hservices : s.servicesStarted = true → t.servicesStarted = true) (hq : s.past q = true) :
    t.past q = true := by
  cases q with
  | mdns => exact hservices hq
  | _ => exact decide_eq_true (Nat.lt_of_lt_of_le (of_decide_eq_true hq) hnumber)

theorem allows_create {r : Resource} {ok : Bool} (hs : s.Sound) (hr : s.past r = false) :
    s.board.Allows (.create r ok) := by
  intro hmem
  rw [hs.backed.tried r hmem] at hr
  cases hr

/-- A board on which a resource has been made, or tried in vain. -/
theorem Backed.create {b : Board} {r : Resource} {ok : Bool} (hs : s.Backed b)
    (hnumber : s.loopTask.number ≤ t.loopTask.number)
    (hservices : s.servicesStarted = true → t.servicesStarted = true) (hpast : t.past r = true)
    (hholds : ∀ q, t.holds q = true → s.holds q = true ∨ q = r ∧ ok = true)
    (hserial1 : Resource.serial1.number < t.loopTask.number →
      Resource.serial1.number < s.loopTask.number ∨ .serial1 = r ∧ ok = true)
    (hadc : t.loopTask.Expects b.adc) (hhandle : t.adcHandle = s.adcHandle) :
    t.Backed (b.after (.create r ok)) := by
  have hmade : ∀ q, q ∈ b.made ∨ q = r ∧ ok = true → q ∈ (b.after (.create r ok)).made := by
    rintro q (hold | ⟨rfl, rfl⟩)
    · cases ok with
      | true => exact List.mem_cons_of_mem _ hold
      | false => exact hold
    · exact List.mem_cons_self
  refine ⟨?_, ?_, ?_, hadc, ?_⟩
  · intro q hq
    rcases List.mem_cons.mp hq with rfl | hold
    · exact hpast
    · exact past_of_le hnumber hservices (hs.tried q hold)
  · intro q hq
    exact hmade q ((hholds q hq).imp_left (hs.made q))
  · intro hlate
    exact hmade .serial1 ((hserial1 hlate).imp_left hs.serial1)
  · rw [hhandle]
    exact hs.adcHandle

/-- A board on which at most the ADC has changed. -/
theorem Backed.move {b b' : Board} (hs : s.Backed b) (htried : b'.tried = b.tried)
    (hmade : b'.made = b.made) (hnumber : s.loopTask.number ≤ t.loopTask.number)
    (hservices : s.servicesStarted = true → t.servicesStarted = true)
    (hholds : ∀ q, t.holds q = true → s.holds q = true)
    (hserial1 : Resource.serial1.number < t.loopTask.number →
      Resource.serial1.number < s.loopTask.number) (hadc : t.loopTask.Expects b'.adc)
    (hhandle : t.adcHandle = true ↔ b'.adc ≠ .absent) : t.Backed b' := by
  refine ⟨?_, ?_, ?_, hadc, hhandle⟩
  · intro q hq
    rw [htried] at hq
    exact past_of_le hnumber hservices (hs.tried q hq)
  · intro q hq
    rw [hmade]
    exact hs.made q (hholds q hq)
  · intro hlate
    rw [hmade]
    exact hs.serial1 (hserial1 hlate)

/-- A call of the driver brings the ADC to where the next line of micBegin wants it. -/
theorem sound_adc {c : Call} {handle : Bool} {line : Line} (hs : s.Sound)
    (hc : s.board.Allows c) (htried : (s.board.after c).tried = s.board.tried)
    (hmade : (s.board.after c).made = s.board.made) (hlow : 2 ≤ s.loopTask.number)
    (hgoing : s.loopTask ≠ .halted) (hnumber : s.loopTask.number ≤ line.number)
    (hhigh : line.number < 8) (hadc : line.Expects (s.board.after c).adc)
    (hhandle : handle = true ↔ (s.board.after c).adc ≠ .absent) :
    Sound { s.call c with adcHandle := handle, loopTask := line } := by
  have hmic := hs.placed.micAdcTask
  refine sound_call hs hc rfl
    (hs.backed.move htried hmade hnumber id (fun _ => id) ?_ hadc hhandle)
    (placed_early ?_ { hs.placed.early (by omega) with }
      (fun _ _ => hs.placed.queues hlow hgoing) ?_)
  · intro hlate
    exact absurd hlate (by simp only [Resource.number]; omega)
  · exact Nat.lt_trans hhigh (by decide)
  · constructor
    · intro hthere
      have := hmic.mp hthere
      omega
    · intro hlate
      exact absurd hlate (Nat.not_le_of_lt hhigh)

/-- Before the network something is made at its own line. -/
theorem sound_make_early (r : Resource) (ok : Bool) (hs : s.Sound) (hmdns : r ≠ .mdns)
    (hline : s.loopTask.number = r.number) (hcalls : t.calls = s.calls ++ [.create r ok])
    (hnext : r.number < t.loopTask.number ∧ t.loopTask.number < 15)
    (hservices : t.servicesStarted = s.servicesStarted)
    (hholds : ∀ q, t.holds q = true → s.holds q = true ∨ q = r ∧ ok = true)
    (hserial1 : Resource.serial1.number < t.loopTask.number →
      Resource.serial1.number < s.loopTask.number ∨ .serial1 = r ∧ ok = true)
    (hadc : t.loopTask.Expects s.board.adc) (hhandle : t.adcHandle = s.adcHandle)
    (halone : t.Alone)
    (hqueues : 2 ≤ t.loopTask.number → t.loopTask ≠ .halted →
      t.windowQueue = true ∧ t.pcmAvailable = true)
    (hmic : t.micAdcTask ≠ none ↔ 8 ≤ t.loopTask.number) : t.Sound := by
  obtain ⟨hafter, hearly⟩ := hnext
  have hpast : ∀ u : Node, u.past r = decide (r.number < u.loopTask.number) := by
    intro u
    cases r with
    | mdns => exact absurd rfl hmdns
    | _ => rfl
  have hnumber : s.loopTask.number ≤ t.loopTask.number := hline ▸ Nat.le_of_lt hafter
  refine sound_call hs (allows_create hs ?_) hcalls (hs.backed.create hnumber ?_ ?_ hholds
    hserial1 hadc hhandle) (placed_early hearly halone hqueues hmic)
  · rw [hpast, hline]
    exact decide_eq_false (Nat.lt_irrefl _)
  · exact fun h => hservices.trans h
  · rw [hpast]
    exact decide_eq_true hafter

theorem sound_windowQueue {a : Answer} (hs : s.Sound)
    (hline : s.loopTask = .micBegin .windowQueue) : (s.micBegin a .windowQueue).Sound := by
  have halone : s.Alone := hs.placed.early (by simp [hline])
  have hadc := hs.backed.adc
  have hmic := hs.placed.micAdcTask
  rw [hline] at hadc hmic
  refine sound_make_early .windowQueue a.ok hs nofun ?_ rfl ?_ rfl ?_ ?_ hadc rfl
    { halone with } ?_ ?_
  · simp [hline]
  · simp [micBegin]
  · intro q
    cases q <;> simp +contextual [micBegin, call, holds]
  · simp [micBegin]
  · simp [micBegin]
  · simpa [micBegin, call] using hmic

theorem sound_pcmAvailable {a : Answer} (hs : s.Sound)
    (hline : s.loopTask = .micBegin .pcmAvailable) : (s.micBegin a .pcmAvailable).Sound := by
  have halone : s.Alone := hs.placed.early (by simp [hline])
  have hadc := hs.backed.adc
  have hmic := hs.placed.micAdcTask
  rw [hline] at hadc hmic
  obtain ⟨ok, begun, lasted, todo⟩ := a
  refine sound_make_early .pcmAvailable ok hs nofun ?_ rfl ?_ rfl ?_ ?_ ?_ rfl
    { halone with } ?_ ?_
  · simp [hline]
  · cases ok <;> cases hqueue : s.windowQueue <;> simp [micBegin, hqueue]
  · intro q
    cases q <;> simp +contextual [micBegin, call, holds]
  · cases ok <;> cases hqueue : s.windowQueue <;> simp [micBegin, hqueue]
  · cases ok <;> cases hqueue : s.windowQueue <;> simp only [micBegin, hqueue] <;> exact hadc
  · cases ok <;> cases hqueue : s.windowQueue <;> simp [micBegin, call, hqueue]
  · cases ok <;> cases hqueue : s.windowQueue <;> simpa [micBegin, call, hqueue] using hmic

theorem sound_micAdcTask {a : Answer} (hs : s.Sound)
    (hline : s.loopTask = .micBegin .micAdcTask) : (s.micBegin a .micAdcTask).Sound := by
  have halone : s.Alone := hs.placed.early (by simp [hline])
  have hadc := hs.backed.adc
  have hqueues := hs.placed.queues
  rw [hline] at hadc hqueues
  obtain ⟨ok, begun, lasted, todo⟩ := a
  refine sound_make_early .micAdcTask ok hs nofun ?_ rfl ?_ rfl (fun _ h => Or.inl h) ?_ ?_ rfl
    { halone with } ?_ ?_
  · simp [hline]
  · cases ok <;> simp [micBegin]
  · cases ok <;> simp [micBegin]
  · cases ok <;> exact hadc
  · cases ok <;> simpa [micBegin, call] using hqueues
  · cases ok <;> simp [micBegin]

theorem sound_micBegin {a : Answer} {line : MicBegin} (hs : s.Sound)
    (hline : s.loopTask = .micBegin line) : (s.micBegin a line).Sound := by
  have halone : s.Alone := by
    apply hs.placed.early
    rw [hline]
    cases line <;> decide
  have hadc := hs.backed.adc
  have hhandle := hs.backed.adcHandle
  have hmic := hs.placed.micAdcTask
  have hqueues := hs.placed.queues
  rw [hline] at hadc hmic hqueues
  obtain ⟨ok, begun, lasted, todo⟩ := a
  cases line with
  | windowQueue => exact sound_windowQueue hs hline
  | pcmAvailable => exact sound_pcmAvailable hs hline
  | ioToChannel =>
    refine sound_move hs rfl (hs.backed.move rfl rfl ?_ id (fun _ => id) ?_ ?_ hhandle)
      (placed_early ?_ { halone with } ?_ ?_)
    · cases ok <;> simp [micBegin, hline]
    · cases ok <;> simp [micBegin]
    · cases ok <;> exact hadc
    · cases ok <;> simp [micBegin]
    · intro _ _
      exact hqueues (by simp) nofun
    · cases ok <;> simpa [micBegin] using hmic
  | newHandle =>
    have habsent : s.board.adc = .absent := hadc
    refine sound_adc (c := .newHandle ok) hs habsent rfl rfl ?_ ?_ ?_ ?_ ?_ ?_
    · simp [hline]
    · simp [hline]
    · cases ok <;> simp [hline]
    · cases ok <;> simp
    · cases ok <;> simp [Board.after, habsent]
    · cases ok <;> simp [Board.after, habsent]
  | config =>
    have hcreated : s.board.adc = .created := hadc
    have hthere : s.adcHandle = true := by simp [hhandle, hcreated]
    refine sound_adc (c := .config s.adcHandle ok) hs ⟨hthere, hcreated⟩ rfl rfl ?_ ?_ ?_ ?_ ?_ ?_
    · simp [hline]
    · simp [hline]
    · cases ok <;> simp [hline]
    · cases ok <;> simp
    · cases ok <;> simp [Board.after, hcreated]
    · cases ok <;> simp [call, Board.after, hcreated, hthere]
  | start =>
    have hconfigured : s.board.adc = .configured := hadc
    have hthere : s.adcHandle = true := by simp [hhandle, hconfigured]
    refine sound_adc (c := .start s.adcHandle ok) hs ⟨hthere, hconfigured⟩ rfl rfl ?_ ?_ ?_ ?_ ?_ ?_
    · simp [hline]
    · simp [hline]
    · cases ok <;> simp [hline]
    · cases ok <;> simp
    · cases ok <;> simp [Board.after, hconfigured]
    · cases ok <;> simp [call, Board.after, hconfigured, hthere]
  | micAdcTask => exact sound_micAdcTask hs hline
  | stop =>
    have hrunning : s.board.adc = .running := hadc
    have hthere : s.adcHandle = true := by simp [hhandle, hrunning]
    refine sound_adc (c := .stop s.adcHandle) hs ⟨hthere, hrunning⟩ rfl rfl ?_ ?_ ?_ ?_ ?_ ?_
    · simp [hline]
    · simp [hline]
    · simp [hline]
    · simp
    · simp [Board.after]
    · simp [call, Board.after, hthere]
  | deinit =>
    have hstopped : s.board.adc = .created ∨ s.board.adc = .configured := hadc
    have hthere : s.adcHandle = true := by
      rcases hstopped with h | h <;> simp [hhandle, h]
    refine sound_adc (c := .deinit s.adcHandle) hs ⟨hthere, hstopped⟩ rfl rfl ?_ ?_ ?_ ?_ rfl ?_
    · simp [hline]
    · simp [hline]
    · simp [hline]
    · simp
    · simp [Board.after]

theorem sound_gotifyWorkerTask {a : Answer} (hs : s.Sound)
    (hline : s.loopTask = .gotifyBegin .gotifyWorkerTask) :
    (s.gotifyBegin a .gotifyWorkerTask).Sound := by
  have halone : s.Alone := hs.placed.early (by simp [hline])
  obtain ⟨-, hserving, haudio, hobservers⟩ := id halone
  have hadc := hs.backed.adc
  have hmic := hs.placed.micAdcTask
  have hqueues := hs.placed.queues
  rw [hline] at hadc hmic hqueues
  obtain ⟨ok, begun, lasted, todo⟩ := a
  cases hlock : s.queueLock && s.queueSignal with
  | false =>
    have hnext : s.gotifyBegin { ok, begun, lasted, todo } .gotifyWorkerTask =
        { s with loopTask := .gotifyBegin .pushesDisabled } := by
      simp only [gotifyBegin, hlock]
      rfl
    rw [hnext]
    refine sound_move hs rfl
      (hs.backed.move rfl rfl ?_ id (fun _ => id) ?_ hadc hs.backed.adcHandle)
      (placed_early ?_ { halone with } ?_ ?_)
    · simp [hline]
    · simp [hline]
    · simp
    · simpa using hqueues
    · simpa using hmic
  | true =>
    obtain ⟨hqueueLock, hqueueSignal⟩ := Bool.and_eq_true_iff.mp hlock
    have hnext : s.gotifyBegin { ok, begun, lasted, todo } .gotifyWorkerTask =
        { s.call (.create .gotifyWorkerTask ok) with
          gotifyWorker := if ok then some .taking else none
          loopTask := if ok then .netPoll false else .gotifyBegin .pushesDisabled } := by
      simp only [gotifyBegin, hlock]
      rfl
    rw [hnext]
    refine sound_call hs (c := .create .gotifyWorkerTask ok) (allows_create hs ?_) rfl
      (hs.backed.create ?_ id ?_ (fun _ h => Or.inl h) ?_ ?_ rfl) ?_
    · simp [past, hline]
    · cases ok <;> simp [hline]
    · cases ok <;> simp [past]
    · simp [hline]
    · cases ok <;> exact hadc
    · cases ok with
      | false =>
        apply placed_early
        · simp
        · exact ⟨rfl, hserving, haudio, hobservers⟩
        · simpa [call] using hqueues
        · simpa [call] using hmic
      | true =>
        refine ⟨?_, ?_, ?_, ?_, ?_, ?_, ?_, ?_, ?_⟩
        · simpa [call] using hqueues
        · simpa [call] using hmic
        · simp
        · simp [call, hqueueSignal]
        · simp [call, hqueueLock, hqueueSignal]
        · simp [call, hserving]
        · simp [call, haudio]
        · simp [call, hobservers]
        · simp [call, hobservers]

theorem sound_pushesDisabled {a : Answer} (hs : s.Sound)
    (hline : s.loopTask = .gotifyBegin .pushesDisabled) :
    (s.gotifyBegin a .pushesDisabled).Sound := by
  obtain ⟨hworker, hserving, haudio, hobservers⟩ := hs.placed.early (by simp [hline])
  have hadc := hs.backed.adc
  have hmic := hs.placed.micAdcTask
  have hqueues := hs.placed.queues
  rw [hline] at hadc hmic hqueues
  refine sound_move hs rfl (hs.backed.move rfl rfl ?_ id ?_ ?_ hadc hs.backed.adcHandle) ?_
  · simp [gotifyBegin, hline]
  · intro q
    cases q <;> simp [gotifyBegin, holds]
  · simp [hline]
  · refine ⟨?_, ?_, ?_, ?_, ?_, ?_, ?_, ?_, ?_⟩
    · simpa [gotifyBegin] using hqueues
    · simpa [gotifyBegin] using hmic
    · simp [gotifyBegin]
    · simp [gotifyBegin]
    · simp [gotifyBegin, hworker]
    · simp [gotifyBegin, hserving]
    · simp [gotifyBegin, haudio]
    · simp [gotifyBegin, hobservers]
    · simp [gotifyBegin, hobservers]

theorem sound_gotifyBegin {a : Answer} {line : GotifyBegin} (hs : s.Sound)
    (hline : s.loopTask = .gotifyBegin line) : (s.gotifyBegin a line).Sound := by
  have halone : s.Alone := by
    apply hs.placed.early
    rw [hline]
    cases line <;> decide
  have hadc := hs.backed.adc
  have hmic := hs.placed.micAdcTask
  have hqueues := hs.placed.queues
  rw [hline] at hadc hmic hqueues
  obtain ⟨ok, begun, lasted, todo⟩ := a
  cases line with
  | queueLock =>
    refine sound_make_early .queueLock ok hs nofun ?_ rfl ?_ rfl ?_ ?_ hadc rfl
      { halone with } ?_ ?_
    · simp [hline]
    · simp [gotifyBegin]
    · intro q
      cases q <;> simp +contextual [gotifyBegin, call, holds]
    · simp [hline]
    · simpa [gotifyBegin, call] using hqueues
    · simpa [gotifyBegin, call] using hmic
  | queueSignal =>
    refine sound_make_early .queueSignal ok hs nofun ?_ rfl ?_ rfl ?_ ?_ hadc rfl
      { halone with } ?_ ?_
    · simp [hline]
    · simp [gotifyBegin]
    · intro q
      cases q <;> simp +contextual [gotifyBegin, call, holds]
    · simp [hline]
    · simpa [gotifyBegin, call] using hqueues
    · simpa [gotifyBegin, call] using hmic
  | gotifyWorkerTask => exact sound_gotifyWorkerTask hs hline
  | pushesDisabled => exact sound_pushesDisabled hs hline

/-! Once setup() has come to its calls of the network, the handles stay. -/

theorem sound_use {r : Resource} (hs : s.Sound) (hr : r ∈ s.board.made) :
    (s.call (.use r true)).Sound :=
  sound_call hs (c := .use r true) ⟨rfl, hr⟩ rfl { hs.backed with } { hs.placed with }

theorem Placed.goto {line : Line} (hs : s.Placed) (hlate : 15 ≤ s.loopTask.number)
    (hnumber : s.loopTask.number ≤ line.number)
    (hstage : ∀ stage ∈ line.stage, stage ≠ .checking → s.queueLock = true) :
    Placed { s with loopTask := line } := by
  refine ⟨?_, ?_, ?_, ?_, hs.locked, ?_, ?_, hs.observers, ?_⟩
  · intro _ _
    apply hs.queues (by omega)
    intro hhalted
    rw [hhalted] at hlate
    exact absurd hlate (by decide)
  · have hmic := hs.micAdcTask
    exact ⟨fun h => hnumber.trans' (hmic.mp h), fun _ => hmic.mpr (by omega)⟩
  · exact fun h => hnumber.trans' (hs.worker h)
  · exact fun _ => hs.pushes hlate
  · exact fun h => hnumber.trans' (hs.serving h)
  · exact fun h => hnumber.trans' (hs.audioServing h)
  · intro stage hmem
    rcases List.mem_append.mp hmem with hmine | hother
    · exact hstage stage (Option.mem_toList.mp hmine)
    · exact hs.stages stage (List.mem_append_right _ hother)

theorem stage_none {line : Line} (h : line.stage = none) :
    ∀ stage ∈ line.stage, stage ≠ .checking → s.queueLock = true := by
  intro stage hstage
  rw [h] at hstage
  cases hstage

/-- The loop task goes on to another line. -/
theorem sound_goto {line : Line} (hs : s.Sound) (hlate : 15 ≤ s.loopTask.number)
    (hnumber : s.loopTask.number ≤ line.number)
    (hstage : ∀ stage ∈ line.stage, stage ≠ .checking → s.queueLock = true) :
    Sound { s with loopTask := line } := by
  have hadc : s.board.adc = .running := (Line.expects_iff (by omega)).mp hs.backed.adc
  have hline : line.Expects s.board.adc := (Line.expects_iff (by omega)).mpr hadc
  refine sound_move hs rfl (hs.backed.move rfl rfl hnumber id (fun _ => id) ?_ hline
    hs.backed.adcHandle) (hs.placed.goto hlate hnumber hstage)
  intro _
  exact Nat.lt_of_lt_of_le (by decide) hlate

theorem sound_radarBegin (hs : s.Sound) (hline : s.loopTask = .radarBegin) :
    Sound { s.call (.create .serial1 true) with loopTask := .radarApplyTuning } := by
  have hadc := hs.backed.adc
  have hmic := hs.placed.micAdcTask
  have hqueues := hs.placed.queues
  rw [hline] at hadc hmic hqueues
  refine sound_make_early .serial1 true hs nofun ?_ rfl ?_ rfl (fun _ h => Or.inl h) ?_ hadc rfl
    { hs.placed.early ?_ with } ?_ ?_
  · simp [hline]
  · simp
  · simp
  · simp [hline]
  · simpa [call] using hqueues
  · simpa [call] using hmic

theorem sound_radarApplyTuning (hs : s.Sound) (hline : s.loopTask = .radarApplyTuning) :
    Sound { s.call (.use .serial1 true) with loopTask := .connectWifi s.now } := by
  have hadc := hs.backed.adc
  have hmic := hs.placed.micAdcTask
  have hqueues := hs.placed.queues
  have hserial : Resource.serial1 ∈ s.board.made := by
    apply hs.backed.serial1
    simp [hline]
  rw [hline] at hadc hmic hqueues
  refine sound_call hs (c := .use .serial1 true) ⟨rfl, hserial⟩ rfl
    (hs.backed.move rfl rfl ?_ id (fun _ => id) ?_ hadc hs.backed.adcHandle)
    (placed_early ?_ { hs.placed.early ?_ with } ?_ ?_)
  · simp [hline]
  · simp [hline]
  · simp
  · simp [hline]
  · simpa [call] using hqueues
  · simpa [call] using hmic

theorem sound_connectWifi {start : Nat} (hs : s.Sound) (hline : s.loopTask = .connectWifi start) :
    Sound { s with loopTask := .gotifyBegin .queueLock } := by
  have hadc := hs.backed.adc
  have hmic := hs.placed.micAdcTask
  have hqueues := hs.placed.queues
  rw [hline] at hadc hmic hqueues
  refine sound_move hs rfl
    (hs.backed.move rfl rfl ?_ id (fun _ => id) ?_ hadc hs.backed.adcHandle)
    (placed_early ?_ { hs.placed.early ?_ with } ?_ ?_)
  · simp [hline]
  · simp [hline]
  · simp
  · simp [hline]
  · simpa using hqueues
  · simpa using hmic

/-- Something is made that is no handle. -/
theorem sound_make (r : Resource) (ok : Bool) (hs : s.Sound)
    (hr : s.past r = false) (hcalls : t.calls = s.calls ++ [.create r ok])
    (hlate : 15 ≤ s.loopTask.number) (hnumber : s.loopTask.number ≤ t.loopTask.number)
    (hservices : s.servicesStarted = true → t.servicesStarted = true) (hpast : t.past r = true)
    (hholds : ∀ q, t.holds q = true → s.holds q = true) (hhandle : t.adcHandle = s.adcHandle)
    (hplaced : t.Placed) : t.Sound := by
  have hadc : s.board.adc = .running := (Line.expects_iff (by omega)).mp hs.backed.adc
  refine sound_call hs (allows_create hs hr) hcalls (hs.backed.create hnumber hservices hpast
    (fun q hq => Or.inl (hholds q hq)) ?_ ((Line.expects_iff (by omega)).mpr hadc) hhandle) hplaced
  intro _
  exact Or.inl (Nat.lt_of_lt_of_le (by decide) hlate)

theorem sound_netPoll {gotifyUrl : List UInt8} {a : Answer} {booted : Bool} (hs : s.Sound)
    (hline : s.loopTask = .netPoll booted) : (s.netPoll gotifyUrl a booted).Sound := by
  have hlate : 15 ≤ s.loopTask.number := by
    rw [hline]
    cases booted <;> decide
  have hpolled : s.loopTask.number ≤ (polled booted).number ∧ (polled booted).stage = none := by
    rw [hline]
    cases booted <;> decide
  rw [netPoll]
  cases hidle : s.servicesStarted || !a.ok with
  | true => exact sound_goto hs hlate hpolled.1 (stage_none hpolled.2)
  | false =>
    obtain ⟨hservices, -⟩ := Bool.or_eq_false_iff.mp hidle
    have hnext : s.loopTask.number ≤ (if gotifyUsesTls gotifyUrl then .syncClock booted s.now
        else polled booted : Line).number ∧ (if gotifyUsesTls gotifyUrl then
        .syncClock booted s.now else polled booted : Line).stage = none := by
      split_ifs
      · rw [hline]
        exact ⟨Nat.le_refl _, rfl⟩
      · exact hpolled
    refine sound_make .mdns a.begun hs hservices rfl hlate hnext.1 (fun _ => rfl) rfl
      (fun _ => id) rfl ?_
    exact { hs.placed.goto hlate hnext.1 (stage_none hnext.2) with }

theorem sound_server (hs : s.Sound) (hline : s.loopTask = .server) :
    Sound { s.call (.create .server true) with
      serving := true, loopTask := .audioServerTask } := by
  have hlate : 15 ≤ s.loopTask.number := by simp [hline]
  have hnumber : s.loopTask.number ≤ Line.number .audioServerTask := by simp [hline]
  refine sound_make .server true hs ?_ rfl hlate hnumber id rfl (fun _ => id) rfl ?_
  · simp [past, hline]
  · exact { hs.placed.goto hlate hnumber (stage_none rfl) with
      serving := fun _ => by simp
      observers := fun _ => rfl }

theorem sound_audioServerTask {ok : Bool} (hs : s.Sound) (hline : s.loopTask = .audioServerTask) :
    Sound { s.call (.create .audioServerTask ok) with
      audioServing := ok, loopTask := .alert false .checking } := by
  have hlate : 15 ≤ s.loopTask.number := by simp [hline]
  have hnumber : s.loopTask.number ≤ Line.number (.alert false .checking) := by simp [hline]
  have hstage : ∀ stage ∈ Line.stage (.alert false .checking), stage ≠ .checking →
      s.queueLock = true := by
    intro stage hmem hne
    exact absurd (Option.some.inj hmem).symm hne
  refine sound_make .audioServerTask ok hs ?_ rfl hlate hnumber id rfl (fun _ => id)
    rfl ?_
  · simp [past, hline]
  · exact { hs.placed.goto hlate hnumber hstage with
      audioServing := fun _ => by simp }

/-- A visit does nothing but calls. -/
theorem visit_keeps {signals ok : Bool} {stage : Stage} {next : Option Stage}
    (h : s.visit signals ok stage = (t, next)) : ∃ calls, t = { s with calls } := by
  cases stage with
  | checking | locking | holding | signalling =>
    obtain ⟨rfl, -⟩ := Prod.mk.inj h
    exact ⟨_, rfl⟩

/-- Whoever goes past the check of queueLock finds the handles as they were. -/
theorem sound_visit {signals ok : Bool} {stage : Stage} {next : Option Stage}
    (hs : s.Sound) (hlate : 15 ≤ s.loopTask.number)
    (hstage : stage ≠ .checking → s.queueLock = true)
    (h : s.visit signals ok stage = (t, next)) :
    t.Sound ∧ ∀ stage ∈ next, stage ≠ .checking → s.queueLock = true := by
  have hgiven : stage ≠ .checking → Sound (s.call (.use .queueLock s.queueLock)) ∧
      Sound (s.call (.use .queueSignal s.queueSignal)) := by
    intro hne
    obtain ⟨hsignal, -⟩ := hs.placed.pushes hlate (hstage hne)
    rw [hstage hne, hsignal]
    exact ⟨sound_use hs (hs.backed.made .queueLock (hstage hne)),
      sound_use hs (hs.backed.made .queueSignal hsignal)⟩
  cases stage with
  | checking =>
    obtain ⟨rfl, rfl⟩ := Prod.mk.inj h
    refine ⟨hs, ?_⟩
    cases hlock : s.queueLock <;> simp
  | locking | holding =>
    obtain ⟨rfl, rfl⟩ := Prod.mk.inj h
    exact ⟨(hgiven nofun).1, fun _ _ _ => hstage nofun⟩
  | signalling =>
    obtain ⟨rfl, rfl⟩ := Prod.mk.inj h
    exact ⟨(hgiven nofun).2, nofun⟩

theorem sound_alert {a : Answer} {booted : Bool} {stage : Stage} (hs : s.Sound)
    (hline : s.loopTask = .alert booted stage) : (s.alert a booted stage).Sound := by
  have hlate : 15 ≤ s.loopTask.number := by simp [hline]
  have hstage : stage ≠ .checking → s.queueLock = true := by
    apply hs.placed.stages
    simp [hline]
  rw [alert]
  rcases hvisit : s.visit true a.ok stage with ⟨t, next⟩
  obtain ⟨ht, hnext⟩ := sound_visit hs hlate hstage hvisit
  obtain ⟨calls, rfl⟩ := visit_keeps hvisit
  cases next with
  | some stage =>
    apply sound_goto ht hlate
    · simp [hline]
    · intro later hlater
      rw [← Option.some.inj hlater]
      exact hnext stage rfl
  | none =>
    apply sound_goto ht hlate
    · cases booted <;> simp [hline]
    · apply stage_none
      cases booted <;> rfl

theorem sound_pushLostCount {a : Answer} {stage : Stage} (hs : s.Sound)
    (hline : s.loopTask = .pushLostCount stage) : (s.pushLostCount a stage).Sound := by
  have hlate : 15 ≤ s.loopTask.number := by simp [hline]
  have hstage : stage ≠ .checking → s.queueLock = true := by
    apply hs.placed.stages
    simp [hline]
  rw [pushLostCount]
  rcases hvisit : s.visit false a.ok stage with ⟨t, next⟩
  obtain ⟨ht, hnext⟩ := sound_visit hs hlate hstage hvisit
  obtain ⟨calls, rfl⟩ := visit_keeps hvisit
  cases next with
  | some stage =>
    apply sound_goto ht hlate
    · simp [hline]
    · intro later hlater
      rw [← Option.some.inj hlater]
      exact hnext stage rfl
  | none =>
    apply sound_goto ht hlate
    · simp [hline]
    · exact stage_none rfl

theorem serial1_made (hs : s.Sound) (hlate : 15 ≤ s.loopTask.number) :
    .serial1 ∈ s.board.made :=
  hs.backed.serial1 (Nat.lt_of_lt_of_le (by decide) hlate)

theorem queues_made (hs : s.Sound) (hlate : 8 ≤ s.loopTask.number) :
    (s.windowQueue = true ∧ .windowQueue ∈ s.board.made) ∧
      s.pcmAvailable = true ∧ .pcmAvailable ∈ s.board.made := by
  have hup : s.loopTask ≠ .halted := by
    intro hhalted
    rw [hhalted] at hlate
    exact absurd hlate (by decide)
  obtain ⟨hwindow, hpcm⟩ := hs.placed.queues (by omega) hup
  exact ⟨⟨hwindow, hs.backed.made .windowQueue hwindow⟩, hpcm, hs.backed.made .pcmAvailable hpcm⟩

theorem sound_notify {todo : Todo} (hs : s.Sound) (hline : s.loopTask = .notify) :
    (s.notify todo).Sound := by
  have hlate : 15 ≤ s.loopTask.number := by simp [hline]
  cases todo with
  | radarCalibrateBackground => exact sound_use hs (serial1_made hs hlate)
  | alert | pushLostCount =>
    apply sound_goto hs hlate
    · simp [hline]
    · intro stage hmem hne
      exact absurd (Option.some.inj hmem).symm hne
  | loop =>
    apply sound_goto hs hlate
    · simp [hline]
    · exact stage_none rfl

theorem sound_line {gotifyUrl : List UInt8} {a : Answer} (hs : s.Sound) :
    (s.line gotifyUrl a).Sound := by
  rw [line]
  cases hline : s.loopTask with
  | micBegin line => exact sound_micBegin hs hline
  | halted => exact hs
  | radarBegin => exact sound_radarBegin hs hline
  | radarApplyTuning => exact sound_radarApplyTuning hs hline
  | connectWifi start => exact sound_connectWifi hs hline
  | gotifyBegin line => exact sound_gotifyBegin hs hline
  | netPoll booted => exact sound_netPoll hs hline
  | syncClock booted start =>
    have hlate : 15 ≤ s.loopTask.number := by cases booted <;> simp [hline]
    apply sound_goto hs hlate
    · cases booted <;> simp [hline, polled]
    · apply stage_none
      cases booted <;> rfl
  | server => exact sound_server hs hline
  | audioServerTask => exact sound_audioServerTask hs hline
  | alert booted stage => exact sound_alert hs hline
  | micSampleWindow =>
    have hlate : 15 ≤ s.loopTask.number := by simp [hline]
    obtain ⟨⟨hwindow, hmade⟩, -⟩ := queues_made hs (by omega)
    simp only [hwindow, if_true]
    apply sound_goto (sound_use hs hmade) hlate
    · simp [call, hline]
    · exact stage_none rfl
  | radarPoll =>
    have hlate : 15 ≤ s.loopTask.number := by simp [hline]
    apply sound_goto (sound_use hs (serial1_made hs hlate)) hlate
    · simp [call, hline]
    · exact stage_none rfl
  | notify => exact sound_notify hs hline
  | pushLostCount stage => exact sound_pushLostCount hs hline

theorem sound_loopTaskStep {gotifyUrl : List UInt8} {a : Answer} (hs : s.Sound)
    (h : s.loopTaskStep gotifyUrl a = some t) : t.Sound := by
  have hlater : Sound { s with now := s.now + a.lasted } :=
    ⟨hs.allowed, { hs.backed with }, { hs.placed with }⟩
  rw [loopTaskStep] at h
  split_ifs at h
  · exact Option.some.inj h ▸ hlater
  · exact Option.some.inj h ▸ sound_line hlater

theorem sound_adcRead {ok : Bool} (hs : s.Sound) (h : s.adcRead ok = some t) : t.Sound := by
  obtain ⟨hreading, hnew⟩ := Option.ite_none_right_eq_some.mp h
  obtain rfl := Option.some.inj hnew
  have hlate : 8 ≤ s.loopTask.number := hs.placed.micAdcTask.mp (by simp [hreading])
  have hrunning : s.board.adc = .running := (Line.expects_iff hlate).mp hs.backed.adc
  have hthere : s.adcHandle = true := by simp [hs.backed.adcHandle, hrunning]
  exact sound_call hs (c := .read s.adcHandle) ⟨hthere, hrunning⟩ rfl { hs.backed with }
    { hs.placed with micAdcTask := ⟨fun _ => hlate, fun _ => nofun⟩ }

theorem sound_publishWindow (hs : s.Sound) (h : s.publishWindow = some t) : t.Sound := by
  obtain ⟨hconverting, hnew⟩ := Option.ite_none_right_eq_some.mp h
  obtain rfl := Option.some.inj hnew
  have hlate : 8 ≤ s.loopTask.number := hs.placed.micAdcTask.mp (by simp [hconverting])
  obtain ⟨⟨hwindow, hmade⟩, -⟩ := queues_made hs hlate
  rw [hwindow]
  exact sound_use hs hmade

theorem sound_appendPcm {added : Bool} (hs : s.Sound) (h : s.appendPcm added = some t) :
    t.Sound := by
  obtain ⟨hconverting, hnew⟩ := Option.ite_none_right_eq_some.mp h
  obtain rfl := Option.some.inj hnew
  have hlate : 8 ≤ s.loopTask.number := hs.placed.micAdcTask.mp (by simp [hconverting])
  obtain ⟨-, hpcm, hmade⟩ := queues_made hs hlate
  have hreading : ∀ {u : Node}, u.Sound → 8 ≤ u.loopTask.number →
      Sound { u with micAdcTask := some .reading } := by
    intro u hu hnumber
    exact ⟨hu.allowed, { hu.backed with },
      { hu.placed with micAdcTask := ⟨fun _ => hnumber, fun _ => nofun⟩ }⟩
  cases added with
  | true =>
    rw [hpcm]
    exact hreading (sound_use hs hmade) hlate
  | false => exact hreading hs hlate

theorem sound_worker {ok : Bool} (hs : s.Sound) (h : s.worker ok = some t) : t.Sound := by
  obtain ⟨place, hplace, hstep⟩ := Option.bind_eq_some_iff.mp h
  have hthere : s.gotifyWorker ≠ none := by simp [hplace]
  obtain ⟨hlock, hsignal⟩ := hs.placed.locked hthere
  have hgo : ∀ {u : Node} {next : WorkerAt}, u.Sound → u.gotifyWorker ≠ none →
      Sound { u with gotifyWorker := some next } := by
    intro u next hu hworker
    exact ⟨hu.allowed, { hu.backed with }, { hu.placed with
      worker := fun _ => hu.placed.worker hworker
      pushes := fun hlate hlock => ⟨(hu.placed.pushes hlate hlock).1, nofun⟩
      locked := fun _ => hu.placed.locked hworker }⟩
  have hlocked : Sound (s.call (.use .queueLock s.queueLock)) := by
    rw [hlock]
    exact sound_use hs (hs.backed.made .queueLock hlock)
  have hsignalled : Sound (s.call (.use .queueSignal s.queueSignal)) := by
    rw [hsignal]
    exact sound_use hs (hs.backed.made .queueSignal hsignal)
  cases place with
  | taking => exact Option.some.inj hstep ▸ hgo hlocked hthere
  | holding => exact Option.some.inj hstep ▸ hgo hlocked hthere
  | waiting => exact Option.some.inj hstep ▸ hgo hsignalled hthere
  | pushing => exact Option.some.inj hstep ▸ hgo hs hthere

/-- Others come into pushLostCount, go on in it or leave it. -/
theorem sound_observers {observers : List Stage} (hs : s.Sound) (hserving : s.serving = true)
    (hstages : ∀ stage ∈ observers, stage ≠ .checking → s.queueLock = true) :
    Sound { s with observers } := by
  refine ⟨hs.allowed, { hs.backed with }, { hs.placed with
    observers := fun _ => hserving
    stages := ?_ }⟩
  intro stage hmem
  rcases List.mem_append.mp hmem with hmine | hother
  · exact hs.placed.stages stage (List.mem_append_left _ hmine)
  · exact hstages stage hother

theorem sound_observe (hs : s.Sound) (h : s.observe = some t) : t.Sound := by
  obtain ⟨hserving, hnew⟩ := Option.ite_none_right_eq_some.mp h
  obtain rfl := Option.some.inj hnew
  apply sound_observers hs hserving
  intro stage hmem hne
  rcases List.mem_append.mp hmem with hold | hnew
  · exact hs.placed.stages stage (List.mem_append_right _ hold) hne
  · exact absurd (List.mem_singleton.mp hnew) hne

theorem sound_observer {i : Nat} {ok : Bool} (hs : s.Sound) (h : s.observer i ok = some t) :
    t.Sound := by
  obtain ⟨stage, hget, hstep⟩ := Option.bind_eq_some_iff.mp h
  have hmem : stage ∈ s.observers := List.mem_of_getElem? hget
  have hserving : s.serving = true := hs.placed.observers (List.ne_nil_of_mem hmem)
  have hlate : 15 ≤ s.loopTask.number := (hs.placed.serving hserving).trans' (by decide)
  have hothers : ∀ stage ∈ s.observers, stage ≠ .checking → s.queueLock = true :=
    fun stage hother => hs.placed.stages stage (List.mem_append_right _ hother)
  rcases hvisit : s.visit false ok stage with ⟨u, next⟩
  obtain ⟨hu, hnext⟩ := sound_visit hs hlate (hothers stage hmem) hvisit
  obtain ⟨calls, rfl⟩ := visit_keeps hvisit
  rw [hvisit] at hstep
  cases next with
  | some next =>
    obtain rfl := Option.some.inj hstep
    apply sound_observers hu hserving
    intro later hlater
    rcases List.mem_or_eq_of_mem_set hlater with hold | rfl
    · exact hothers later hold
    · exact hnext later rfl
  | none =>
    obtain rfl := Option.some.inj hstep
    apply sound_observers hu hserving
    intro later hlater
    exact hothers later (List.mem_of_mem_eraseIdx hlater)

theorem sound_audio (hs : s.Sound) (h : s.audio = some t) : t.Sound := by
  obtain ⟨hserving, hnew⟩ := Option.ite_none_right_eq_some.mp h
  obtain rfl := Option.some.inj hnew
  have hlate : 8 ≤ s.loopTask.number := (hs.placed.audioServing hserving).trans' (by decide)
  obtain ⟨-, hpcm, hmade⟩ := queues_made hs hlate
  rw [hpcm]
  exact sound_use hs hmade

theorem sound_step (gotifyUrl : List UInt8) (s : Node) (a : Step) (t : Node)
    (h : s.step gotifyUrl a = some t) (hs : s.Sound) : t.Sound := by
  cases a with
  | loopTask answer => exact sound_loopTaskStep hs h
  | adcRead ok => exact sound_adcRead hs h
  | publishWindow => exact sound_publishWindow hs h
  | appendPcm added => exact sound_appendPcm hs h
  | worker ok => exact sound_worker hs h
  | observe => exact sound_observe hs h
  | observer i ok => exact sound_observer hs h
  | audio => exact sound_audio hs h

theorem sound_boot : Sound {} := by
  refine ⟨trivial, ⟨nofun, ?_, nofun, rfl, ?_⟩, placed_early ?_ ?_ ?_ ?_⟩
  · intro r hr
    cases r <;> cases hr
  · decide
  · decide
  · exact ⟨rfl, rfl, rfl, rfl⟩
  · intro hlate
    exact absurd hlate (by decide)
  · decide

end steps

/-- Whatever fails while the node starts, and however the tasks are interleaved with setup() and
loop(): no call is made through a handle that is nullptr or let go, nothing is made twice, and the
ADC is configured, started, read, stopped and let go in the order that its driver asks for. A node
that halts has let go of the ADC and has no task but the one that halts. One that loops has its
ADC running with the task that reads it, and takes pushes exactly if there is a worker for
them. -/
theorem startup_in_order (gotifyUrl : List UInt8) (steps : List Step) (s : Node)
    (h : Guarded.exec (step gotifyUrl) {} steps = some s) :
    Monitor.Accepts Board.Allows Board.after {} s.calls ∧
    (s.loopTask = .halted → s.board.adc = .absent ∧ s.adcHandle = false ∧ s.micAdcTask = none ∧
      s.gotifyWorker = none ∧ s.serving = false ∧ s.audioServing = false) ∧
    (s.loopTask.looping = true → s.board.adc = .running ∧ s.micAdcTask ≠ none ∧
      (s.queueLock = true ↔ s.gotifyWorker ≠ none)) := by
  have hs := Guarded.exec_preserves Sound (sound_step gotifyUrl) h sound_boot
  refine ⟨hs.allowed, ?_, ?_⟩
  · intro hhalted
    have hadc := hs.backed.adc
    have hmic := hs.placed.micAdcTask
    obtain ⟨hworker, hserving, haudio, -⟩ := hs.placed.early (by simp [hhalted])
    rw [hhalted] at hadc hmic
    have habsent : s.board.adc = .absent := hadc
    refine ⟨habsent, ?_, ?_, hworker, hserving, haudio⟩
    · simpa [habsent] using hs.backed.adcHandle
    · simpa using hmic
  · intro hlooping
    have hnumber := Line.number_of_looping hlooping
    have hlate : 15 ≤ s.loopTask.number := by omega
    refine ⟨(Line.expects_iff (by omega)).mp hs.backed.adc, hs.placed.micAdcTask.mpr (by omega), ?_⟩
    exact ⟨fun hlock => (hs.placed.pushes hlate hlock).2, fun hworker =>
      (hs.placed.locked hworker).1⟩

/-- setup() when everything but the worker's task can be had, the ADC and a request in between. -/
def withoutWorker : List Step :=
  let line (ok : Bool) : Step := .loopTask { ok, lasted := 100 }
  List.replicate 9 (line true) ++ [.adcRead true, .publishWindow, .loopTask
    { ok := false, lasted := 250 }, line true, line true, line true, line false, line true] ++
    List.replicate 3 (line true) ++ [.observe, .appendPcm true, .observer 0 true, .audio] ++
    List.replicate 3 (line true)

theorem without_worker_in_order : ∃ s,
    Guarded.exec (step (FlatJson.ascii "http://gotify")) {} withoutWorker = some s ∧
      s.calls.length = 20 ∧ s.loopTask.looping = true ∧
      Monitor.Accepts Board.Allows Board.after {} s.calls ∧ s.board.adc = .running ∧
      s.queueLock = false := by
  have hrun : ∃ s ∈ Guarded.exec (step (FlatJson.ascii "http://gotify")) {} withoutWorker,
      s.calls.length = 20 ∧ s.loopTask.looping = true ∧ s.gotifyWorker = none := by
    decide +kernel
  obtain ⟨s, hs, hlength, hlooping, hworker⟩ := hrun
  obtain ⟨hallowed, -, hloops⟩ := startup_in_order _ withoutWorker s hs
  obtain ⟨hrunning, -, hpushes⟩ := hloops hlooping
  refine ⟨s, hs, hlength, hlooping, hallowed, hrunning, ?_⟩
  apply Bool.eq_false_iff.mpr
  intro hlock
  exact hpushes.mp hlock hworker

end Node
end RoomWatchdog.Startup
