import RoomWatchdog.Audio.StreamSlot
import RoomWatchdog.Auth.Servers
import RoomWatchdog.CalibrationButton
import RoomWatchdog.Radar.Calibration
import RoomWatchdog.Telemetry.Documents
import RoomWatchdog.Ws.Socket

namespace RoomWatchdog.Api
open Auth (Token Presents)
open Calibration (Source)

/-- The handler that the server on port 80 finds for a request, with what it reads. -/
inductive Handler where
  | status (snapshot : Sensed) (uptimeMs : UInt32)
  | calibrate
  | notFound

structure Answer where
  code : Nat
  wwwAuthenticate : Option String := none
  body : List UInt8

/-- What a step leads to outside the node, and the calls of requestCalibration. -/
inductive Effect where
  | answer (answer : Answer)
  | requested (source : Source)
  | frame (id : UInt32) (text : List UInt8)
  | close (close : Ws.Close)

def Effect.source : Effect → Option Source
  | requested source => some source
  | answer _ | frame _ _ | close _ => none

/-- The socket that an effect goes to. -/
def Effect.socket : Effect → Option UInt32
  | frame id _ => some id
  | close asked => some asked.id
  | answer _ | requested _ => none

/-- What the network callbacks, the audio server, the button and the loop task share.
`connected` are the sockets that the library keeps open. -/
structure Node (N : Nat) where
  calibrationRequested : Latch.State Source := {}
  activeClientId : UInt32 := 0
  connected : List UInt32 := []
  pressedSinceMs : UInt32 := 0
  audio : Audio.System N := {}

/-- A request to one of the servers, an event of a socket, a step of the audio threads, or a
poll of the loop task. -/
inductive Step where
  | http (handler : Handler) (request : Auth.Request)
  | upgrade (request : Auth.Request) (id uptimeMs : UInt32)
  | ended (id : UInt32) (error : Bool)
  | data (id : UInt32) (info : Option Ws.AwsFrameInfo) (data : List UInt8)
  | audio (request : Auth.Request)
  | audioStep (action : Audio.Action)
  | calibrationButtonPoll (poll : CalibrationButton.Poll)
  | pollCalibrationRequest

variable (room : Nat → Nat)

def unauthorized : Answer := ⟨401, some "Bearer", Document.text room (.fixed .unauthorized)⟩

def notFound : Answer := ⟨404, none, Document.text room (.fixed .notFound)⟩

namespace Node

variable {N : Nat}

/-- The middleware requireToken around a handler. -/
def requireToken (t : Token) (s : Node N) (request : Auth.Request)
    (next : Option (Node N × List Effect)) : Option (Node N × List Effect) := do
  if ← Auth.authorized t request then next
  else some (s, [.answer (unauthorized room)])

def raise (s : Node N) (source : Source) : Node N :=
  { s with calibrationRequested := s.calibrationRequested.raise source }

def http (t : Token) (s : Node N) (request : Auth.Request) :
    Handler → Option (Node N × List Effect)
  | .status snapshot uptimeMs => s.requireToken room t request (some (s,
      [.answer ⟨200, none,
        Document.text room (.status snapshot uptimeMs (s.activeClientId ≠ 0))⟩]))
  | .calibrate => s.requireToken room t request (some (s.raise .http,
      [.requested .http,
        .answer ⟨202, none, Document.text room (.fixed .calibrationScheduled)⟩]))
  | .notFound => some (s, [.answer (notFound room)])

/-- A request for /ws, which the library turns into a socket of its own id. -/
def upgrade (t : Token) (s : Node N) (request : Auth.Request) (id uptimeMs : UInt32) :
    Option (Node N × List Effect) :=
  s.requireToken room t request
    (if id ∈ s.connected then none
    else
      let (activeClientId, close) := Ws.onSocketEvent s.activeClientId (.connect id)
      some ({ s with activeClientId, connected := s.connected ++ [id] },
        (close.map Effect.close).toList ++ [.frame id (Document.text room (.hello uptimeMs))]))

/-- A disconnect, or an error, behind which the library may keep the socket. -/
def ended (s : Node N) (id : UInt32) (error : Bool) : Option (Node N × List Effect) :=
  if id ∈ s.connected then
    some ({ s with
      activeClientId :=
        (Ws.onSocketEvent s.activeClientId (if error then .error id else .disconnect id)).1
      connected := if error then s.connected else s.connected.filter (· ≠ id) }, [])
  else none

def data (s : Node N) (id : UInt32) (info : Option Ws.AwsFrameInfo) (data : List UInt8) :
    Option (Node N × List Effect) :=
  if id ∈ s.connected then
    let handled := Ws.handleCommand room info data
    some (if handled.requested then s.raise .socket else s,
      (if handled.requested then [.requested .socket] else []) ++
        (handled.reply.map (Effect.frame id)).toList)
  else none

/-- handleAudio up to its call of startAudioPcmStream. -/
def handleAudio (t : Token) (s : Node N) (request : Auth.Request) :
    Option (Node N × List Effect) := do
  if ← Auth.rejectUnauthorized t request then some (s, [.answer (unauthorized room)])
  else do
    let audio ← s.audio.step .request
    some ({ s with audio }, [])

/-- The switch of handleAudio, where a step gives a start its result. -/
def audioAnswer (audio : Audio.System N) : Audio.Action → List Effect
  | .start i =>
    if audio.threads[i]? = some (.answered .busy) then
      [.answer ⟨409, none, Document.text room (.fixed .streamActive)⟩]
    else []
  | .release _ => [.answer ⟨503, none, Document.text room (.fixed .streamFailed)⟩]
  | .request | .allocate _ _ | .create _ _ | .read _ _ | .leave _ | .stop _ | .append _ => []

/-- A step of the audio threads; those of new requests come from handleAudio. -/
def audioStep (s : Node N) (action : Audio.Action) : Option (Node N × List Effect) :=
  match action with
  | .request => none
  | action => do
    let audio ← s.audio.step action
    some ({ s with audio }, audioAnswer room audio action)

def calibrationButtonPoll (s : Node N) (poll : CalibrationButton.Poll) : Node N × List Effect :=
  let (pressedSinceMs, requested) :=
    CalibrationButton.calibrationButtonPoll s.pressedSinceMs poll
  let s := { s with pressedSinceMs }
  if requested then (s.raise .button, [.requested .button]) else (s, [])

def step (t : Token) (s : Node N) : Step → Option (Node N × List Effect)
  | .http handler request => s.http room t request handler
  | .upgrade request id uptimeMs => s.upgrade room t request id uptimeMs
  | .ended id error => s.ended id error
  | .data id info data => s.data room id info data
  | .audio request => s.handleAudio room t request
  | .audioStep action => s.audioStep room action
  | .calibrationButtonPoll poll => some (s.calibrationButtonPoll poll)
  | .pollCalibrationRequest =>
    some ({ s with calibrationRequested := s.calibrationRequested.exchange.1 }, [])

end Node

namespace Step

/-- A request without the token. -/
def intruding (t : Token) : Step → Bool
  | http _ request | upgrade request _ _ | audio request => Auth.authorized t request = some false
  | ended _ _ | data _ _ _ | audioStep _ | calibrationButtonPoll _ | pollCalibrationRequest => false

/-- What an intruder is told. -/
def denial : Step → Answer
  | http .notFound _ => notFound room
  | _ => unauthorized room

end Step

/-- A socket that was opened by a request with the token. -/
def Admitted (t : Token) (past : List Step) (id : UInt32) : Prop :=
  ∃ request uptimeMs, Step.upgrade request id uptimeMs ∈ past ∧ Presents t request

/-- A request with the token has come to the audio server. -/
def Streaming (t : Token) (past : List Step) : Prop :=
  ∃ request, Step.audio request ∈ past ∧ Presents t request

/-- What stands behind a step after the steps `past`: the token in its own request or in an
earlier one, unless it comes from inside the node. -/
def Justified (t : Token) (past : List Step) : Step → Prop
  | .http _ request | .upgrade request _ _ | .audio request => Presents t request
  | .ended id _ | .data id _ _ => Admitted t past id
  | .audioStep (.append _) | .calibrationButtonPoll _ | .pollCalibrationRequest => True
  | .audioStep _ => Streaming t past

theorem Admitted.later {t : Token} {past : List Step} {id : UInt32} (h : Admitted t past id)
    (a : Step) : Admitted t (past ++ [a]) id := by
  obtain ⟨request, uptimeMs, hmem, hpresents⟩ := h
  exact ⟨request, uptimeMs, List.mem_append_left _ hmem, hpresents⟩

theorem Streaming.later {t : Token} {past : List Step} (h : Streaming t past) (a : Step) :
    Streaming t (past ++ [a]) := by
  obtain ⟨request, hmem, hpresents⟩ := h
  exact ⟨request, List.mem_append_left _ hmem, hpresents⟩

theorem Streaming.justifies {t : Token} {past : List Step} (h : Streaming t past)
    (action : Audio.Action) : Justified t past (.audioStep action) := by
  cases action with
  | append samples => trivial
  | request | start i | allocate i ok | create i ok | release i | read i maxSamples | leave i
  | stop i => exact h

namespace Node

variable {N : Nat} {t : Token} {s u : Node N} {a : Step} {effects : List Effect}
  {past : List Step} {request : Auth.Request}

/-- Only admitted sockets are open, the active client is one of them, and there are no audio
threads without a request that had the token. -/
structure Secure (t : Token) (past : List Step) (s : Node N) : Prop where
  sockets : ∀ id ∈ s.connected, Admitted t past id
  active : s.activeClientId = 0 ∨ s.activeClientId ∈ s.connected
  audio : s.audio.threads ≠ [] → Streaming t past

theorem secure_boot : Secure t [] ({} : Node N) where
  sockets := by
    intro id hid
    cases hid
  active := Or.inl rfl
  audio := fun h => absurd rfl h

/-- A request that is no intruder's presents the token, and both servers see it. -/
theorem passes (h : ¬ Auth.authorized t request = some false) :
    Presents t request ∧ Auth.authorized t request = some true ∧
      Auth.rejectUnauthorized t request = some false := by
  obtain ⟨passed, hauthorized, hrejected, hpassed⟩ := Auth.decisions_eq t request
  cases passed with
  | false => exact absurd hauthorized h
  | true => exact ⟨hpassed.mp rfl, hauthorized, hrejected⟩

theorem requireToken_passed (h : Auth.authorized t request = some true)
    (next : Option (Node N × List Effect)) : s.requireToken room t request next = next := by
  rw [requireToken, h]
  rfl

theorem requireToken_denied (h : Auth.authorized t request = some false)
    (next : Option (Node N × List Effect)) :
    s.requireToken room t request next = some (s, [.answer (unauthorized room)]) := by
  rw [requireToken, h]
  rfl

/-- A request without the token leaves the node as it is and gets its denial alone. -/
theorem step_intruding (ha : a.intruding t = true) (h : s.step room t a = some (u, effects)) :
    u = s ∧ effects = [.answer (a.denial room)] := by
  have hdenied : s.step room t a = some (s, [.answer (a.denial room)]) := by
    cases a with
    | http handler request =>
      have hauthorized := of_decide_eq_true ha
      cases handler with
      | status snapshot uptimeMs => exact requireToken_denied room hauthorized _
      | calibrate => exact requireToken_denied room hauthorized _
      | notFound => rfl
    | upgrade request id uptimeMs => exact requireToken_denied room (of_decide_eq_true ha) _
    | audio request =>
      obtain ⟨passed, hauthorized, hrejected, -⟩ := Auth.decisions_eq t request
      obtain rfl := Option.some.inj (hauthorized.symm.trans (of_decide_eq_true ha))
      rw [step, handleAudio, hrejected]
      rfl
    | ended id error | data id info data | audioStep action | calibrationButtonPoll poll
    | pollCalibrationRequest => cases ha
  rw [hdenied] at h
  obtain ⟨rfl, rfl⟩ := Prod.mk.inj (Option.some.inj h)
  exact ⟨rfl, rfl⟩

/-- Only a new request or the ADC task can act where there is no audio thread. -/
theorem threads_of_step {audio audio' : Audio.System N} {action : Audio.Action}
    (h : audio.step action = some audio') (hrequest : action ≠ .request) :
    audio.threads ≠ [] ∨
      (∃ samples, action = .append samples) ∧ audio'.threads = audio.threads := by
  have hmoved : ∀ {ring : Mic.PcmRing N} {i : Nat} {place next : Audio.Thread},
      Audio.System.move ⟨ring, audio.threads⟩ i place next = some audio' →
        audio.threads ≠ [] := by
    intro ring i place next hmove hnone
    obtain ⟨threads, hthreads, -⟩ := Audio.System.move_eq_some.mp hmove
    obtain ⟨hat, -⟩ := Threads.move_eq_some.mp hthreads
    rw [hnone] at hat
    cases hat
  cases action with
  | request => exact absurd rfl hrequest
  | start i => exact Or.inl (hmoved h)
  | allocate i ok => exact Or.inl (hmoved h)
  | create i ok =>
    left
    cases ok with
    | false => exact hmoved h
    | true =>
      obtain ⟨v, hv, -⟩ := Audio.System.create_eq_some.mp h
      obtain ⟨threads, hthreads, -⟩ := Audio.System.move_eq_some.mp hv
      obtain ⟨hat, -⟩ := Threads.move_eq_some.mp hthreads
      exact List.ne_nil_of_mem (List.mem_of_getElem? hat)
  | release i => exact Or.inl (hmoved h)
  | read i maxSamples =>
    left
    obtain ⟨hat, -⟩ := Option.ite_none_right_eq_some.mp h
    exact List.ne_nil_of_mem (List.mem_of_getElem? hat)
  | leave i => exact Or.inl (hmoved h)
  | stop i => exact Or.inl (hmoved h)
  | append samples =>
    right
    obtain ⟨ring, -, rfl⟩ := Audio.System.append_eq_some h
    exact ⟨⟨samples, rfl⟩, rfl⟩

theorem audioAnswer_answers (audio : Audio.System N) (action : Audio.Action) :
    ∀ effect ∈ audioAnswer room audio action, ∃ answer, effect = .answer answer := by
  cases action with
  | start i =>
    simp only [audioAnswer]
    split_ifs <;> simp
  | release i => simp [audioAnswer]
  | request | allocate i ok | create i ok | read i maxSamples | leave i | stop i
  | append samples => exact nofun

theorem audioStep_cases {action : Audio.Action} (h : s.audioStep room action = some (u, effects)) :
    action ≠ .request ∧ ∃ audio, s.audio.step action = some audio ∧ u = { s with audio } ∧
      effects = audioAnswer room audio action := by
  cases action with
  | request => cases h
  | start i | allocate i ok | create i ok | release i | read i maxSamples | leave i | stop i
  | append samples =>
    obtain ⟨audio, haudio, hnew⟩ := Option.bind_eq_some_iff.mp h
    obtain ⟨rfl, rfl⟩ := Prod.mk.inj (Option.some.inj hnew)
    exact ⟨nofun, audio, haudio, rfl, rfl⟩

/-- What the node does without a token in hand, it does for one that it has seen. -/
theorem step_justified (hs : s.Secure t past) (ha : ¬ a.intruding t = true)
    (h : s.step room t a = some (u, effects)) : Justified t past a := by
  cases a with
  | http handler request | upgrade request id uptimeMs | audio request =>
    exact (passes (mt decide_eq_true ha)).1
  | ended id error =>
    exact hs.sockets id (Option.ite_none_right_eq_some.mp h).1
  | data id info data =>
    exact hs.sockets id (Option.ite_none_right_eq_some.mp h).1
  | audioStep action =>
    obtain ⟨hrequest, audio, haudio, -⟩ := audioStep_cases room h
    rcases threads_of_step haudio hrequest with hsome | ⟨⟨samples, rfl⟩, -⟩
    · exact (hs.audio hsome).justifies action
    · trivial
  | calibrationButtonPoll poll | pollCalibrationRequest => trivial

/-- At most a press is noted and a calibration is requested, and only open sockets are
written to. -/
structure AtMostAsks (s u : Node N) (effects : List Effect) : Prop where
  state : ∃ pressedSinceMs,
    (u = { s with pressedSinceMs } ∧ effects.filterMap Effect.source = []) ∨
    ∃ source, u = { s with pressedSinceMs }.raise source ∧
      effects.filterMap Effect.source = [source]
  sockets : ∀ effect ∈ effects, ∀ id, effect.socket = some id → id ∈ s.connected

theorem answer_asks (answer : Answer) : AtMostAsks s s [.answer answer] where
  state := ⟨s.pressedSinceMs, Or.inl ⟨rfl, rfl⟩⟩
  sockets := by
    intro effect heffect id hid
    rw [List.mem_singleton.mp heffect] at hid
    cases hid

theorem http_asks {handler : Handler} (hauthorized : Auth.authorized t request = some true)
    (h : s.http room t request handler = some (u, effects)) : AtMostAsks s u effects := by
  cases handler with
  | status snapshot uptimeMs =>
    rw [http, requireToken_passed room hauthorized] at h
    obtain ⟨rfl, rfl⟩ := Prod.mk.inj (Option.some.inj h)
    exact answer_asks _
  | calibrate =>
    rw [http, requireToken_passed room hauthorized] at h
    obtain ⟨rfl, rfl⟩ := Prod.mk.inj (Option.some.inj h)
    refine ⟨⟨s.pressedSinceMs, Or.inr ⟨.http, rfl, rfl⟩⟩, ?_⟩
    intro effect heffect id hid
    rcases List.mem_pair.mp heffect with rfl | rfl <;> cases hid
  | notFound =>
    obtain ⟨rfl, rfl⟩ := Prod.mk.inj (Option.some.inj h)
    exact answer_asks _

theorem data_asks {id : UInt32} {info : Option Ws.AwsFrameInfo} {data : List UInt8}
    (h : s.data room id info data = some (u, effects)) : AtMostAsks s u effects := by
  obtain ⟨hopen, hnew⟩ := Option.ite_none_right_eq_some.mp h
  obtain ⟨rfl, rfl⟩ := Prod.mk.inj (Option.some.inj hnew)
  refine ⟨⟨s.pressedSinceMs, ?_⟩, ?_⟩
  · have hreply : ((Ws.handleCommand room info data).reply.map (Effect.frame id)).toList.filterMap
        Effect.source = [] := by
      cases (Ws.handleCommand room info data).reply <;> rfl
    rw [List.filterMap_append, hreply, List.append_nil]
    split_ifs
    · exact Or.inr ⟨.socket, rfl, rfl⟩
    · exact Or.inl ⟨rfl, rfl⟩
  · intro effect heffect socket hsocket
    rcases List.mem_append.mp heffect with hasked | hreplied
    · split_ifs at hasked
      · rw [List.mem_singleton.mp hasked] at hsocket
        cases hsocket
      · cases hasked
    · obtain ⟨text, -, rfl⟩ := Option.map_eq_some_iff.mp (Option.mem_toList.mp hreplied)
      obtain rfl := Option.some.inj hsocket
      exact hopen

theorem button_asks (poll : CalibrationButton.Poll) :
    AtMostAsks s (s.calibrationButtonPoll poll).1 (s.calibrationButtonPoll poll).2 := by
  rw [calibrationButtonPoll]
  cases CalibrationButton.calibrationButtonPoll s.pressedSinceMs poll with
  | mk pressedSinceMs requested =>
    cases requested with
    | false => exact ⟨⟨pressedSinceMs, Or.inl ⟨rfl, rfl⟩⟩, nofun⟩
    | true =>
      refine ⟨⟨pressedSinceMs, Or.inr ⟨.button, rfl, rfl⟩⟩, ?_⟩
      intro effect heffect id hid
      rw [List.mem_singleton.mp heffect] at hid
      cases hid

/-- What a step comes to: a node that is secure again, a flag raised by the calls of
requestCalibration alone, and nothing sent to a socket that was not admitted. -/
structure Proper (t : Token) (past : List Step) (a : Step) (s u : Node N)
    (effects : List Effect) : Prop where
  secure : u.Secure t (past ++ [a])
  latch : ∀ raised : List Source, s.calibrationRequested.Sound raised →
    u.calibrationRequested.Sound (raised ++ effects.filterMap Effect.source)
  sockets : ∀ effect ∈ effects, ∀ id, effect.socket = some id → Admitted t (past ++ [a]) id

/-- What touches neither the sockets nor the audio threads keeps the node secure. -/
theorem Secure.kept (hs : s.Secure t past) (a : Step) (hconnected : u.connected = s.connected)
    (hactive : u.activeClientId = s.activeClientId) (haudio : u.audio = s.audio) :
    u.Secure t (past ++ [a]) where
  sockets := by
    intro id hid
    rw [hconnected] at hid
    exact (hs.sockets id hid).later a
  active := by
    rw [hactive, hconnected]
    exact hs.active
  audio := by
    intro hsome
    rw [haudio] at hsome
    exact (hs.audio hsome).later a

theorem AtMostAsks.proper (h : AtMostAsks s u effects) (hs : s.Secure t past) (a : Step) :
    Proper t past a s u effects := by
  have hsent : ∀ effect ∈ effects, ∀ id, effect.socket = some id → Admitted t (past ++ [a]) id :=
    fun effect heffect id hid => (hs.sockets id (h.sockets effect heffect id hid)).later a
  obtain ⟨pressedSinceMs, ⟨rfl, hnone⟩ | ⟨source, rfl, hone⟩⟩ := h.state
  · refine ⟨hs.kept a rfl rfl rfl, ?_, hsent⟩
    intro raised hraised
    rw [hnone, List.append_nil]
    exact hraised
  · refine ⟨hs.kept a rfl rfl rfl, ?_, hsent⟩
    intro raised hraised
    rw [hone]
    exact hraised.raise source

/-- A step that leaves the flag alone and writes to no socket. -/
theorem Secure.proper {a : Step} (hs : u.Secure t (past ++ [a]))
    (hlatch : u.calibrationRequested = s.calibrationRequested)
    (hanswers : ∀ effect ∈ effects, ∃ answer, effect = .answer answer) :
    Proper t past a s u effects := by
  refine ⟨hs, ?_, ?_⟩
  · intro raised hraised
    have hnone : effects.filterMap Effect.source = [] := by
      apply List.filterMap_eq_nil_iff.mpr
      intro effect heffect
      obtain ⟨answer, rfl⟩ := hanswers effect heffect
      rfl
    rw [hlatch, hnone, List.append_nil]
    exact hraised
  · intro effect heffect id hid
    obtain ⟨answer, rfl⟩ := hanswers effect heffect
    cases hid

/-- The socket of a request with the token is admitted, and the one it replaces was. -/
theorem upgrade_proper {id uptimeMs : UInt32} (hs : s.Secure t past)
    (hpresents : Presents t request) (hauthorized : Auth.authorized t request = some true)
    (h : s.upgrade room t request id uptimeMs = some (u, effects)) :
    Proper t past (.upgrade request id uptimeMs) s u effects := by
  have hadmitted : Admitted t (past ++ [.upgrade request id uptimeMs]) id :=
    ⟨request, uptimeMs, List.mem_append_right _ (List.mem_singleton_self _), hpresents⟩
  rw [upgrade, requireToken_passed room hauthorized] at h
  obtain ⟨-, hnew⟩ := Option.ite_none_left_eq_some.mp h
  obtain ⟨rfl, rfl⟩ := Prod.mk.inj (Option.some.inj hnew)
  refine ⟨⟨?_, Or.inr ?_, fun hsome => (hs.audio hsome).later _⟩, ?_, ?_⟩
  · intro socket hsocket
    rcases List.mem_append.mp hsocket with hopen | hopened
    · exact (hs.sockets socket hopen).later _
    · rw [List.mem_singleton.mp hopened]
      exact hadmitted
  · exact List.mem_append_right _ (List.mem_singleton_self id)
  · intro raised hraised
    have hnone : ∀ close : Option Ws.Close,
        ((close.map Effect.close).toList ++
          [Effect.frame id (Document.text room (.hello uptimeMs))]).filterMap Effect.source =
          [] := by
      intro close
      cases close <;> rfl
    rw [hnone, List.append_nil]
    exact hraised
  · intro effect heffect socket hsocket
    rcases List.mem_append.mp heffect with hclose | hhello
    · obtain ⟨close, hasked, rfl⟩ := Option.map_eq_some_iff.mp (Option.mem_toList.mp hclose)
      obtain ⟨⟨hactive, -⟩, hclosed⟩ := Option.ite_none_right_eq_some.mp hasked
      obtain rfl := Option.some.inj hclosed
      obtain rfl := Option.some.inj hsocket
      exact (hs.sockets _ (hs.active.resolve_left hactive)).later _
    · rw [List.mem_singleton.mp hhello] at hsocket
      obtain rfl := Option.some.inj hsocket
      exact hadmitted

theorem ended_proper {id : UInt32} {error : Bool} (hs : s.Secure t past)
    (h : s.ended id error = some (u, effects)) :
    Proper t past (.ended id error) s u effects := by
  obtain ⟨-, hnew⟩ := Option.ite_none_right_eq_some.mp h
  obtain ⟨rfl, rfl⟩ := Prod.mk.inj (Option.some.inj hnew)
  refine Secure.proper ?_ rfl nofun
  have hslot : (Ws.onSocketEvent s.activeClientId (if error then .error id else .disconnect id)).1 =
      Ws.compareExchange s.activeClientId id := by
    cases error <;> rfl
  refine ⟨?_, ?_, fun hsome => (hs.audio hsome).later _⟩
  · intro socket hsocket
    have hopen : socket ∈ s.connected := by
      cases error with
      | true => exact hsocket
      | false => exact List.mem_of_mem_filter hsocket
    exact (hs.sockets socket hopen).later _
  · rw [hslot]
    by_cases hsame : s.activeClientId = id
    · left
      rw [hsame, Ws.compareExchange_self]
    · rw [Ws.compareExchange_of_ne hsame]
      apply hs.active.imp_right
      intro hopen
      cases error with
      | true => exact hopen
      | false => exact List.mem_filter.mpr ⟨hopen, decide_eq_true hsame⟩

theorem audioStep_proper {action : Audio.Action} (hs : s.Secure t past)
    (h : s.audioStep room action = some (u, effects)) :
    Proper t past (.audioStep action) s u effects := by
  obtain ⟨hrequest, audio, haudio, rfl, rfl⟩ := audioStep_cases room h
  refine Secure.proper ⟨fun id hid => (hs.sockets id hid).later _, hs.active, ?_⟩ rfl ?_
  · intro hsome
    apply Streaming.later
    apply hs.audio
    rcases threads_of_step haudio hrequest with hthreads | ⟨-, hsame⟩
    · exact hthreads
    · rw [← hsame]
      exact hsome
  · exact audioAnswer_answers room audio action

theorem step_proper (hs : s.Secure t past) (h : s.step room t a = some (u, effects)) :
    Proper t past a s u effects := by
  by_cases hintruding : a.intruding t = true
  · obtain ⟨rfl, rfl⟩ := step_intruding room hintruding h
    exact (answer_asks _).proper hs a
  cases a with
  | http handler request =>
    obtain ⟨-, hauthorized, -⟩ := passes (mt decide_eq_true hintruding)
    exact (http_asks room hauthorized h).proper hs _
  | upgrade request id uptimeMs =>
    obtain ⟨hpresents, hauthorized, -⟩ := passes (mt decide_eq_true hintruding)
    exact upgrade_proper room hs hpresents hauthorized h
  | ended id error => exact ended_proper hs h
  | data id info data => exact (data_asks room h).proper hs _
  | audio request =>
    obtain ⟨hpresents, -, hpassed⟩ := passes (mt decide_eq_true hintruding)
    rw [step, handleAudio, hpassed] at h
    obtain ⟨rfl, rfl⟩ := Prod.mk.inj (Option.some.inj h)
    refine Secure.proper ⟨fun id hid => (hs.sockets id hid).later _, hs.active, fun _ => ?_⟩
      rfl nofun
    exact ⟨request, List.mem_append_right _ (List.mem_singleton_self _), hpresents⟩
  | audioStep action => exact audioStep_proper room hs h
  | calibrationButtonPoll poll =>
    obtain ⟨rfl, rfl⟩ := Prod.mk.inj (Option.some.inj h)
    exact (button_asks poll).proper hs _
  | pollCalibrationRequest =>
    obtain ⟨rfl, rfl⟩ := Prod.mk.inj (Option.some.inj h)
    refine ⟨hs.kept _ rfl rfl rfl, ?_, nofun⟩
    intro raised hraised
    rw [List.filterMap_nil, List.append_nil]
    exact hraised.exchange

section runs
variable {steps : List Step} {outputs : List (List Effect)}

theorem secure_exec (h : Faulting.exec (step room t) s steps = some (u, outputs))
    (hs : s.Secure t past) : u.Secure t (past ++ steps) :=
  Faulting.exec_invariant (Secure t) (fun _ _ _ _ _ hstep hs => (step_proper room hs hstep).secure)
    h hs

theorem latch_exec {raised : List Source}
    (h : Faulting.exec (step room t) s steps = some (u, outputs)) (hs : s.Secure t past)
    (hraised : s.calibrationRequested.Sound raised) :
    u.calibrationRequested.Sound (raised ++ outputs.flatten.filterMap Effect.source) := by
  induction steps generalizing s past raised outputs with
  | nil =>
    obtain ⟨rfl, rfl⟩ := Prod.mk.inj (Option.some.inj h)
    rw [List.flatten_nil, List.filterMap_nil, List.append_nil]
    exact hraised
  | cons a steps ih =>
    obtain ⟨v, effects, later, hstep, hrest, rfl⟩ := Faulting.exec_cons.mp h
    have hproper := step_proper room hs hstep
    rw [List.flatten_cons, List.filterMap_append, ← List.append_assoc]
    exact ih hrest hproper.secure (hproper.latch raised hraised)

end runs

end Node

/-- Whoever has no token changes nothing. In every run of the node, through however many
requests, sockets, polls and audio threads, take out the requests without the token: the run
ends in the same state, and every other step is answered as before. Such a request is told
that it is unauthorized, or not found, and nothing else. Every other step has the token behind
it: in its own request, or in the one that opened its socket, or in one for the audio stream,
unless it comes from inside the node. So the active client is a socket opened with the token,
nothing is sent to any other socket, and the calibrations are those that were requested with it
or with the button, each of them once. -/
theorem intruders_change_nothing {N : Nat} (t : Token) (steps : List Step) (s : Node N)
    (effects : List (List Effect)) (h : Faulting.exec (Node.step room t) {} steps =
      some (s, effects)) :
    Faulting.exec (Node.step room t) {} (steps.filter fun a => !a.intruding t) =
      some (s, ((steps.zip effects).filter fun ae => !ae.1.intruding t).map Prod.snd) ∧
    (∀ k (a : Step), steps[k]? = some a →
      if a.intruding t then effects[k]? = some [.answer (a.denial room)]
      else Justified t (steps.take k) a) ∧
    (s.activeClientId = 0 ∨ Admitted t steps s.activeClientId) ∧
    (∀ sent ∈ effects, ∀ effect ∈ sent, ∀ id, effect.socket = some id → Admitted t steps id) ∧
    s.calibrationRequested.served.flatten ++ s.calibrationRequested.waiting =
      effects.flatten.filterMap Effect.source ∧
    ∀ round ∈ s.calibrationRequested.served, round ≠ [] := by
  have hs := Node.secure_exec room h Node.secure_boot
  have hlatch := Node.latch_exec room h Node.secure_boot Latch.State.sound_boot
  rw [List.nil_append] at hs hlatch
  refine ⟨?_, ?_, hs.active.imp_right (hs.sockets _), ?_, hlatch.all, hlatch.caused⟩
  · apply Faulting.exec_purge _ _ h
    intro s a u es ha hstep
    exact (Node.step_intruding room ha hstep).1
  · intro k a hk
    obtain ⟨v, u, es, hbefore, hstep, hanswer⟩ := Faulting.exec_getElem? h hk
    split_ifs with hintruding
    · rw [hanswer, (Node.step_intruding room hintruding hstep).2]
    · exact Node.step_justified room (Node.secure_exec room hbefore Node.secure_boot)
        hintruding hstep
  · intro sent hsent effect heffect id hid
    obtain ⟨k, hk⟩ := List.mem_iff_getElem?.mp hsent
    have hlt : k < steps.length := by
      rw [← Faulting.exec_length h]
      exact (List.getElem?_eq_some_iff.mp hk).1
    obtain ⟨v, u, es, hbefore, hstep, hanswer⟩ :=
      Faulting.exec_getElem? h (List.getElem?_eq_getElem hlt)
    obtain rfl := Option.some.inj (hk.symm.trans hanswer)
    have hproper := Node.step_proper room (Node.secure_exec room hbefore Node.secure_boot) hstep
    obtain ⟨request, uptimeMs, hmem, hpresents⟩ := hproper.sockets effect heffect id hid
    rw [List.nil_append, List.take_append_getElem] at hmem
    exact ⟨request, uptimeMs, List.mem_of_mem_take hmem, hpresents⟩

/-- The token of sixteen A's. -/
def someToken : Token where
  bytes := List.replicate 16 65
  long_enough := by decide

/-- Somebody without the token tries to open a socket, to calibrate and to listen, while the app
does the first two. -/
def overheard : List Step :=
  let intruder : Auth.Request := ⟨none, some (List.replicate 16 66)⟩
  let app : Auth.Request := ⟨some (ApiToken.bearer ++ List.replicate 16 65), none⟩
  let command := FlatJson.ascii "calibrate"
  [.upgrade intruder 1 0, .upgrade app 2 0, .http .calibrate intruder,
    .data 2 (some ⟨1, Ws.wsText, 9, 0⟩) command, .audio intruder, .pollCalibrationRequest]

theorem overheard_in_vain : ∃ (s : Node 4) (effects : List (List Effect)),
    Faulting.exec (Node.step id someToken) {} overheard = some (s, effects) ∧
      s.activeClientId = 2 ∧ s.audio.threads = [] ∧
      s.calibrationRequested.served = [[.socket]] ∧
      effects[4]? = some [.answer (unauthorized id)] ∧
      ∃ later, Faulting.exec (Node.step id someToken) {}
        (overheard.filter fun a => !a.intruding someToken) = some (s, later) := by
  have hseen : ∃ final ∈ Faulting.exec (Node.step id someToken) ({} : Node 4) overheard,
      final.1.activeClientId = 2 ∧ final.1.audio.threads = [] ∧
        final.1.calibrationRequested.served = [[.socket]] := by decide +kernel
  obtain ⟨⟨s, effects⟩, hrun, hactive, hthreads, hserved⟩ := hseen
  obtain ⟨hpurged, hdenied, -⟩ := intruders_change_nothing id someToken overheard s effects hrun
  have hfourth := hdenied 4 _ rfl
  exact ⟨s, effects, hrun, hactive, hthreads, hserved, hfourth, _, hpurged⟩

end RoomWatchdog.Api
