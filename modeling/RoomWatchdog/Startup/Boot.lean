import RoomWatchdog.Config
import RoomWatchdog.Library.FlatJson
import RoomWatchdog.Library.Guarded
import RoomWatchdog.Library.Monitor
import RoomWatchdog.Library.WrapClock

/-! setup() and loop() down to the calls that can fail or wait, with the tasks they start. -/

namespace RoomWatchdog.Startup
open Config (wifiConnectTimeoutMs ntpSyncTimeoutMs)

/-- What is made once: the objects behind handles, the tasks, and what is begun. -/
inductive Resource where
  | windowQueue
  | pcmAvailable
  | queueLock
  | queueSignal
  | serial1
  | micAdcTask
  | gotifyWorkerTask
  | audioServerTask
  | server
  | mdns
  deriving DecidableEq

/-- A call of FreeRTOS or of a driver, with whether the handle passed is one, and not nullptr,
and whether it succeeds. -/
inductive Call where
  | create (resource : Resource) (ok : Bool)
  | use (resource : Resource) (handle : Bool)
  | newHandle (ok : Bool)
  | config (handle ok : Bool)
  | start (handle ok : Bool)
  | stop (handle : Bool)
  | deinit (handle : Bool)
  | read (handle : Bool)

/-- The continuous ADC as its driver sees it. -/
inductive Adc where
  | absent
  | created
  | configured
  | running
  deriving DecidableEq

/-- What the calls so far have made. -/
structure Board where
  tried : List Resource := []
  made : List Resource := []
  adc : Adc := .absent

namespace Board

/-- A thing is made once, and used when it is there; the ADC is configured before it is started,
read while it runs, and let go after it has been stopped. -/
def Allows (b : Board) : Call → Prop
  | .create resource _ => resource ∉ b.tried
  | .use resource handle => handle = true ∧ resource ∈ b.made
  | .newHandle _ => b.adc = .absent
  | .config handle _ => handle = true ∧ b.adc = .created
  | .start handle _ => handle = true ∧ b.adc = .configured
  | .stop handle => handle = true ∧ b.adc = .running
  | .deinit handle => handle = true ∧ (b.adc = .created ∨ b.adc = .configured)
  | .read handle => handle = true ∧ b.adc = .running

def after (b : Board) : Call → Board
  | .create resource ok =>
    { b with
      tried := resource :: b.tried
      made := if ok then resource :: b.made else b.made }
  | .use _ _ | .read _ => b
  | .newHandle ok => { b with adc := if ok then .created else b.adc }
  | .config _ ok => { b with adc := if ok then .configured else b.adc }
  | .start _ ok => { b with adc := if ok then .running else b.adc }
  | .stop _ => { b with adc := .configured }
  | .deinit _ => { b with adc := .absent }

end Board

/-- Where a task stands in queueGotify or pushLostCount. -/
inductive Stage where
  | checking
  | locking
  | holding
  | signalling
  deriving DecidableEq

inductive MicBegin where
  | windowQueue
  | pcmAvailable
  | ioToChannel
  | newHandle
  | config
  | start
  | micAdcTask
  | stop
  | deinit
  deriving DecidableEq

inductive GotifyBegin where
  | queueLock
  | queueSignal
  | gotifyWorkerTask
  | pushesDisabled
  deriving DecidableEq

/-- Where the loop task stands in setup() or loop(). `booted` is false in setup(), and `start` is
when millis() was read before a wait. -/
inductive Line where
  | micBegin (line : MicBegin)
  | halted
  | radarBegin
  | radarApplyTuning
  | connectWifi (start : Nat)
  | gotifyBegin (line : GotifyBegin)
  | netPoll (booted : Bool)
  | syncClock (booted : Bool) (start : Nat)
  | server
  | audioServerTask
  | alert (booted : Bool) (stage : Stage)
  | micSampleWindow
  | radarPoll
  | notify
  | pushLostCount (stage : Stage)
  deriving DecidableEq

/-- The lines of loop(). -/
def Line.looping : Line → Bool
  | .netPoll booted | .syncClock booted _ | .alert booted _ => booted
  | .micSampleWindow | .radarPoll | .notify | .pushLostCount _ => true
  | _ => false

/-- The waits, with their timeouts. -/
def Line.wait : Line → Option (Nat × UInt32)
  | .connectWifi start => some (start, wifiConnectTimeoutMs)
  | .syncClock _ start => some (start, ntpSyncTimeoutMs)
  | _ => none

/-- What the detectors, the button and the clients make the loop task do. -/
inductive Todo where
  | radarCalibrateBackground
  | alert
  | pushLostCount
  | loop

/-- What comes of a line: whether its call succeeds, what it waits for has come or the lock is
got; what MDNS.begin gives; how long it lasts. -/
structure Answer where
  ok : Bool
  begun : Bool := true
  lasted : Nat := 0
  todo : Todo := .loop

inductive MicAt where
  | reading
  | converting
  deriving DecidableEq

inductive WorkerAt where
  | taking
  | holding
  | waiting
  | pushing
  deriving DecidableEq

/-- The handles (whether they are not nullptr) and flags of mic.cpp and net.cpp, where the tasks
stand, and every call so far. `observers` are the tasks of the server that are in
pushLostCount. -/
structure Node where
  windowQueue : Bool := false
  pcmAvailable : Bool := false
  adcHandle : Bool := false
  queueLock : Bool := false
  queueSignal : Bool := false
  servicesStarted : Bool := false
  now : Nat := 0
  loopTask : Line := .micBegin .windowQueue
  micAdcTask : Option MicAt := none
  gotifyWorker : Option WorkerAt := none
  serving : Bool := false
  audioServing : Bool := false
  observers : List Stage := []
  calls : List Call := []

/-- A step of the loop task, of micAdcTask, of gotifyWorkerTask, or of a task of one of the two
servers. -/
inductive Step where
  | loopTask (answer : Answer)
  | adcRead (ok : Bool)
  | publishWindow
  | appendPcm (added : Bool)
  | worker (ok : Bool)
  | observe
  | observer (i : Nat) (ok : Bool)
  | audio

/-- TLS goes with the scheme of the URL. -/
def gotifyUsesTls (gotifyUrl : List UInt8) : Bool :=
  (FlatJson.ascii "https:").isPrefixOf gotifyUrl

namespace Node

def call (s : Node) (call : Call) : Node := { s with calls := s.calls ++ [call] }

def board (s : Node) : Board := s.calls.foldl Board.after {}

/-- One step in queueGotify, which signals, or in pushLostCount, and the next stage if there is
one. -/
def visit (s : Node) (signals ok : Bool) : Stage → Node × Option Stage
  | .checking => (s, if s.queueLock then some .locking else none)
  | .locking => (s.call (.use .queueLock s.queueLock), if ok then some .holding else none)
  | .holding => (s.call (.use .queueLock s.queueLock), if signals then some .signalling else none)
  | .signalling => (s.call (.use .queueSignal s.queueSignal), none)

def micBegin (s : Node) (a : Answer) : MicBegin → Node
  | .windowQueue =>
    { s.call (.create .windowQueue a.ok) with
      windowQueue := a.ok
      loopTask := .micBegin .pcmAvailable }
  | .pcmAvailable =>
    { s.call (.create .pcmAvailable a.ok) with
      pcmAvailable := a.ok
      loopTask := if s.windowQueue && a.ok then .micBegin .ioToChannel else .halted }
  | .ioToChannel => { s with loopTask := if a.ok then .micBegin .newHandle else .halted }
  | .newHandle =>
    { s.call (.newHandle a.ok) with
      adcHandle := a.ok
      loopTask := if a.ok then .micBegin .config else .halted }
  | .config =>
    { s.call (.config s.adcHandle a.ok) with
      loopTask := .micBegin (if a.ok then .start else .deinit) }
  | .start =>
    { s.call (.start s.adcHandle a.ok) with
      loopTask := .micBegin (if a.ok then .micAdcTask else .deinit) }
  | .micAdcTask =>
    { s.call (.create .micAdcTask a.ok) with
      micAdcTask := if a.ok then some .reading else none
      loopTask := if a.ok then .radarBegin else .micBegin .stop }
  | .stop => { s.call (.stop s.adcHandle) with loopTask := .micBegin .deinit }
  | .deinit => { s.call (.deinit s.adcHandle) with adcHandle := false, loopTask := .halted }

def gotifyBegin (s : Node) (a : Answer) : GotifyBegin → Node
  | .queueLock =>
    { s.call (.create .queueLock a.ok) with
      queueLock := a.ok
      loopTask := .gotifyBegin .queueSignal }
  | .queueSignal =>
    { s.call (.create .queueSignal a.ok) with
      queueSignal := a.ok
      loopTask := .gotifyBegin .gotifyWorkerTask }
  | .gotifyWorkerTask =>
    if s.queueLock && s.queueSignal then
      { s.call (.create .gotifyWorkerTask a.ok) with
        gotifyWorker := if a.ok then some .taking else none
        loopTask := if a.ok then .netPoll false else .gotifyBegin .pushesDisabled }
    else { s with loopTask := .gotifyBegin .pushesDisabled }
  | .pushesDisabled => { s with queueLock := false, loopTask := .netPoll false }

/-- Where netPoll returns to. -/
def polled (booted : Bool) : Line := if booted then .notify else .server

def netPoll (gotifyUrl : List UInt8) (s : Node) (a : Answer) (booted : Bool) : Node :=
  if s.servicesStarted || !a.ok then { s with loopTask := polled booted }
  else
    { s.call (.create .mdns a.begun) with
      servicesStarted := true
      loopTask := if gotifyUsesTls gotifyUrl then .syncClock booted s.now else polled booted }

def alert (s : Node) (a : Answer) (booted : Bool) (stage : Stage) : Node :=
  match s.visit true a.ok stage with
  | (s, some stage) => { s with loopTask := .alert booted stage }
  | (s, none) => { s with loopTask := if booted then .notify else .micSampleWindow }

def pushLostCount (s : Node) (a : Answer) (stage : Stage) : Node :=
  match s.visit false a.ok stage with
  | (s, some stage) => { s with loopTask := .pushLostCount stage }
  | (s, none) => { s with loopTask := .notify }

def notify (s : Node) : Todo → Node
  | .radarCalibrateBackground => s.call (.use .serial1 true)
  | .alert => { s with loopTask := .alert true .checking }
  | .pushLostCount => { s with loopTask := .pushLostCount .checking }
  | .loop => { s with loopTask := .micSampleWindow }

/-- A line of setup() or loop(), the waits being over. -/
def line (gotifyUrl : List UInt8) (s : Node) (a : Answer) : Node :=
  match s.loopTask with
  | .micBegin line => s.micBegin a line
  | .halted => s
  | .radarBegin => { s.call (.create .serial1 true) with loopTask := .radarApplyTuning }
  | .radarApplyTuning => { s.call (.use .serial1 true) with loopTask := .connectWifi s.now }
  | .connectWifi _ => { s with loopTask := .gotifyBegin .queueLock }
  | .gotifyBegin line => s.gotifyBegin a line
  | .netPoll booted => s.netPoll gotifyUrl a booted
  | .syncClock booted _ => { s with loopTask := polled booted }
  | .server => { s.call (.create .server true) with serving := true, loopTask := .audioServerTask }
  | .audioServerTask =>
    { s.call (.create .audioServerTask a.ok) with
      audioServing := a.ok
      loopTask := .alert false .checking }
  | .alert booted stage => s.alert a booted stage
  | .micSampleWindow =>
    let s := if s.windowQueue then s.call (.use .windowQueue s.windowQueue) else s
    { s with loopTask := .radarPoll }
  | .radarPoll => { s.call (.use .serial1 true) with loopTask := .netPoll true }
  | .notify => s.notify a.todo
  | .pushLostCount stage => s.pushLostCount a stage

/-- A wait goes on while what it is for has not come and the time is not up. -/
def waits (s : Node) (a : Answer) : Bool :=
  match s.loopTask.wait with
  | some (start, timeout) => !a.ok && WrapClock.read s.now - WrapClock.read start < timeout
  | none => false

/-- The loop task sleeps for another 250 ms at least, taking it that delay(250) lasts that long by
millis(), or goes on when its line has taken its time. -/
def loopTaskStep (gotifyUrl : List UInt8) (s : Node) (a : Answer) : Option Node :=
  let later := { s with now := s.now + a.lasted }
  if s.waits a then
    if 250 ≤ a.lasted then some later else none
  else some (later.line gotifyUrl a)

/-- adc_continuous_read gives samples, or nothing before its timeout. -/
def adcRead (s : Node) (ok : Bool) : Option Node :=
  if s.micAdcTask = some .reading then
    some { s.call (.read s.adcHandle) with
      micAdcTask := some (if ok then .converting else .reading) }
  else none

def publishWindow (s : Node) : Option Node :=
  if s.micAdcTask = some .converting then
    some (s.call (.use .windowQueue s.windowQueue))
  else none

def appendPcm (s : Node) (added : Bool) : Option Node :=
  if s.micAdcTask = some .converting then
    let s := if added then s.call (.use .pcmAvailable s.pcmAvailable) else s
    some { s with micAdcTask := some .reading }
  else none

/-- A step of gotifyWorkerTask, for which `ok` is that the lock is got, or a message taken. -/
def worker (s : Node) (ok : Bool) : Option Node := do
  match ← s.gotifyWorker with
  | .taking =>
    some { s.call (.use .queueLock s.queueLock) with
      gotifyWorker := some (if ok then .holding else .waiting) }
  | .holding =>
    some { s.call (.use .queueLock s.queueLock) with
      gotifyWorker := some (if ok then .pushing else .waiting) }
  | .waiting =>
    some { s.call (.use .queueSignal s.queueSignal) with gotifyWorker := some .taking }
  | .pushing => some { s with gotifyWorker := some .taking }

/-- A task of the server calls pushLostCount. -/
def observe (s : Node) : Option Node :=
  if s.serving then some { s with observers := s.observers ++ [.checking] } else none

/-- Observer `i` goes on. -/
def observer (s : Node) (i : Nat) (ok : Bool) : Option Node := do
  let stage ← s.observers[i]?
  match s.visit false ok stage with
  | (s, some stage) => some { s with observers := s.observers.set i stage }
  | (s, none) => some { s with observers := s.observers.eraseIdx i }

/-- The audio server's task, or a stream task that it has created, takes pcmAvailable or gives
it. -/
def audio (s : Node) : Option Node :=
  if s.audioServing then some (s.call (.use .pcmAvailable s.pcmAvailable)) else none

def step (gotifyUrl : List UInt8) (s : Node) : Step → Option Node
  | .loopTask answer => s.loopTaskStep gotifyUrl answer
  | .adcRead ok => s.adcRead ok
  | .publishWindow => s.publishWindow
  | .appendPcm added => s.appendPcm added
  | .worker ok => s.worker ok
  | .observe => s.observe
  | .observer i ok => s.observer i ok
  | .audio => s.audio

end Node
end RoomWatchdog.Startup
