import Mathlib.Data.List.Chain
import Mathlib.Data.List.Induction
import Mathlib.Data.List.ReduceOption
import RoomWatchdog.Library.Mealy
import RoomWatchdog.Ws.Publish

namespace RoomWatchdog.Ws
open WrapClock (read)

/-- The last of the frames handed to the client `id`. -/
def lastTo (id : UInt32) (frames : List Frame) : Option Frame :=
  (frames.filter (·.id = id)).getLast?

/-- The gate remembers just this frame. -/
structure Remembers (minIntervalMs heartbeatMs : UInt32) (g : TelemetryGate)
    (last : Option Frame) : Prop where
  minIntervalMs : g.minIntervalMs = minIntervalMs
  heartbeatMs : g.heartbeatMs = heartbeatMs
  hasSent : g.hasSent = last.isSome
  fingerprint : ∀ f ∈ last, g.lastFingerprint = f.fingerprint
  lastSentMs : ∀ f ∈ last, g.lastSentMs = read f.time

/-- The decision as the 32-bit clock takes it. -/
def Due (minIntervalMs heartbeatMs : UInt32) (p : Pass) (last : Option Frame) : Prop :=
  ∀ f ∈ last, (p.fingerprint ≠ f.fingerprint ∧ minIntervalMs ≤ read p.time - read f.time) ∨
    heartbeatMs ≤ read p.time - read f.time

section runs
variable {minIntervalMs heartbeatMs : UInt32} {g : TelemetryGate} {last : Option Frame}
  {p : Pass} {ps qs : List Pass}

theorem Remembers.reset (h : Remembers minIntervalMs heartbeatMs g last) :
    Remembers minIntervalMs heartbeatMs g.reset none where
  minIntervalMs := h.minIntervalMs
  heartbeatMs := h.heartbeatMs
  hasSent := rfl
  fingerprint := by simp
  lastSentMs := by simp

theorem Remembers.sent (h : Remembers minIntervalMs heartbeatMs g last) {f : Frame}
    {fingerprint : UInt32} (hf : f.fingerprint = fingerprint) :
    Remembers minIntervalMs heartbeatMs (g.sent fingerprint (read f.time)) (some f) where
  minIntervalMs := h.minIntervalMs
  heartbeatMs := h.heartbeatMs
  hasSent := rfl
  fingerprint := by
    intro f' hf'
    obtain rfl := Option.mem_some_iff.mp hf'
    exact hf.symm
  lastSentMs := by
    intro f' hf'
    obtain rfl := Option.mem_some_iff.mp hf'
    rfl

theorem Remembers.shouldSend_iff (h : Remembers minIntervalMs heartbeatMs g last) (p : Pass) :
    g.shouldSend p.fingerprint (read p.time) = true ↔ Due minIntervalMs heartbeatMs p last := by
  cases last with
  | none =>
    rw [TelemetryGate.shouldSend_first h.hasSent]
    simp [Due]
  | some f =>
    rw [TelemetryGate.shouldSend_later h.hasSent, h.minIntervalMs, h.heartbeatMs,
      h.fingerprint f rfl, h.lastSentMs f rfl]
    constructor
    · intro hdue f' hf'
      cases hf'
      exact hdue
    · intro hdue
      exact hdue f rfl

/-- The passes after boot leave this behind. -/
def publisher (minIntervalMs heartbeatMs : UInt32) (ps : List Pass) : Publisher :=
  Mealy.run wsPublishTelemetry (.boot minIntervalMs heartbeatMs) ps

/-- The frames the passes after boot delivered, in order. -/
def frames (minIntervalMs heartbeatMs : UInt32) (ps : List Pass) : List Frame :=
  (Mealy.outputs wsPublishTelemetry (.boot minIntervalMs heartbeatMs) ps).reduceOption

/-- A clock that does not run backwards, and no client that comes back after another one. -/
structure Proper (ps : List Pass) : Prop where
  clock : (ps.map Pass.time).Pairwise (· ≤ ·)
  ids : ∀ a b, a ≠ 0 → b ≠ 0 → a ≠ b → ¬ [a, b, a].Sublist (ps.map Pass.id)

theorem Proper.left (h : Proper (ps ++ qs)) : Proper ps where
  clock := h.clock.sublist ((List.sublist_append_left ps qs).map _)
  ids := by
    intro a b ha hb hab hsub
    exact h.ids a b ha hb hab (hsub.trans ((List.sublist_append_left ps qs).map _))

theorem publisher_append (ps : List Pass) (p : Pass) :
    publisher minIntervalMs heartbeatMs (ps ++ [p]) =
      (wsPublishTelemetry (publisher minIntervalMs heartbeatMs ps) p).1 :=
  Mealy.run_append ps [p]

theorem frames_append (ps : List Pass) (p : Pass) :
    frames minIntervalMs heartbeatMs (ps ++ [p]) = frames minIntervalMs heartbeatMs ps ++
      (wsPublishTelemetry (publisher minIntervalMs heartbeatMs ps) p).2.toList := by
  unfold frames publisher
  rw [Mealy.outputs_append, List.reduceOption_append]
  cases h : (wsPublishTelemetry (Mealy.run wsPublishTelemetry (.boot minIntervalMs heartbeatMs) ps)
    p).2 <;> simp [h]

theorem lastTo_append_self (fs : List Frame) (f : Frame) {id : UInt32} (h : f.id = id) :
    lastTo id (fs ++ [f]) = some f := by
  rw [lastTo, List.filter_append, List.filter_singleton]
  simp [h]

theorem exists_pass_of_mem_frames {f : Frame} (h : f ∈ frames minIntervalMs heartbeatMs ps) :
    ∃ p ∈ ps, f = p.frame := by
  induction ps using List.reverseRecOn with
  | nil => cases h
  | append_singleton ps p ih =>
    rw [frames_append] at h
    rcases List.mem_append.mp h with hold | hnew
    · obtain ⟨q, hq, hf⟩ := ih hold
      exact ⟨q, List.mem_append_left _ hq, hf⟩
    · refine ⟨p, List.mem_append_right _ (List.mem_singleton_self p), ?_⟩
      rcases publish_output (publisher minIntervalMs heartbeatMs ps) p with hout | hout
      · rw [hout] at hnew
        exact List.mem_singleton.mp hnew
      · rw [hout] at hnew
        cases hnew

/-- The ids seen so far that stand for a client. -/
def seen (ps : List Pass) : List UInt32 := (ps.map Pass.id).filter (· ≠ 0)

theorem seen_append_idle (h : p.id = 0) : seen (ps ++ [p]) = seen ps := by
  simp [seen, h]

theorem seen_append (h : p.id ≠ 0) : seen (ps ++ [p]) = seen ps ++ [p.id] := by
  simp [seen, h]

/-- A client does not come back once another one has been seen. -/
theorem not_mem_of_replaced (hproper : Proper (ps ++ p :: qs)) {id : UInt32} (hp : p.id ≠ 0)
    (hid : id ∈ seen ps) (hne : id ≠ p.id) : id ∉ qs.map Pass.id := by
  intro hback
  have hid0 : id ≠ 0 := by simpa using (List.mem_filter.mp hid).2
  apply hproper.ids id p.id hid0 hp hne
  rw [List.map_append, List.map_cons]
  apply (List.singleton_sublist.mpr (List.mem_of_mem_filter hid)).append
  exact (List.singleton_sublist.mpr hback).cons_cons p.id

/-- A client that was not served last has not been seen at all. -/
theorem fresh_of_not_served (hproper : Proper (ps ++ [p])) (hp : p.id ≠ 0) {served : UInt32}
    (hserved : (seen ps).getLast? = some served) (hne : p.id ≠ served) :
    p.id ∉ ps.map Pass.id := by
  intro hmem
  obtain ⟨l, hl⟩ := List.getLast?_eq_some_iff.mp hserved
  have hseen : p.id ∈ seen ps := List.mem_filter.mpr ⟨hmem, by simpa using hp⟩
  have hearly : p.id ∈ l := by
    rw [hl] at hseen
    rcases List.mem_append.mp hseen with h | h
    · exact h
    · exact absurd (List.mem_singleton.mp h) hne
  have hserved0 : served ≠ 0 := by
    have hmemServed : served ∈ seen ps := by
      rw [hl]
      exact List.mem_append_right _ (List.mem_singleton_self served)
    simpa using (List.mem_filter.mp hmemServed).2
  apply hproper.ids p.id served hp hserved0 hne
  have hpair : [p.id, served].Sublist (ps.map Pass.id) := by
    have htwo : [p.id, served].Sublist (seen ps) := by
      rw [hl]
      exact (List.singleton_sublist.mpr hearly).append (List.Sublist.refl [served])
    exact htwo.trans List.filter_sublist
  rw [List.map_append]
  exact hpair.append (List.Sublist.refl [p.id])

/-- The publisher serves the client seen last, and its gate remembers the frame that this
client got last. -/
structure InTouch (minIntervalMs heartbeatMs : UInt32) (ps : List Pass) : Prop where
  served : (publisher minIntervalMs heartbeatMs ps).servedClientId = (seen ps).getLast?.getD 0
  gate : Remembers minIntervalMs heartbeatMs (publisher minIntervalMs heartbeatMs ps).gate
    (lastTo (publisher minIntervalMs heartbeatMs ps).servedClientId
      (frames minIntervalMs heartbeatMs ps))

theorem InTouch.serve (h : InTouch minIntervalMs heartbeatMs ps) (hproper : Proper (ps ++ [p]))
    (hp : p.id ≠ 0) :
    Remembers minIntervalMs heartbeatMs
      ((publisher minIntervalMs heartbeatMs ps).serve p.id).gate
      (lastTo p.id (frames minIntervalMs heartbeatMs ps)) := by
  by_cases hsame : p.id = (publisher minIntervalMs heartbeatMs ps).servedClientId
  · rw [hsame, Publisher.serve_self]
    exact h.gate
  · have hnone : lastTo p.id (frames minIntervalMs heartbeatMs ps) = none := by
      have hfresh : p.id ∉ ps.map Pass.id := by
        cases hlast : (seen ps).getLast? with
        | none =>
          intro hmem
          have hseen : p.id ∈ seen ps := List.mem_filter.mpr ⟨hmem, by simpa using hp⟩
          rw [List.getLast?_eq_none_iff.mp hlast] at hseen
          cases hseen
        | some served =>
          apply fresh_of_not_served hproper hp hlast
          have hserved := h.served
          rw [hlast] at hserved
          rwa [hserved] at hsame
      rw [lastTo, List.getLast?_eq_none_iff, List.filter_eq_nil_iff]
      intro f hf hid
      obtain ⟨q, hq, rfl⟩ := exists_pass_of_mem_frames hf
      apply hfresh
      rw [← of_decide_eq_true hid]
      exact List.mem_map_of_mem hq
    rw [hnone, Publisher.serve_of_ne hsame]
    exact h.gate.reset

theorem inTouch (hproper : Proper ps) : InTouch minIntervalMs heartbeatMs ps := by
  induction ps using List.reverseRecOn with
  | nil =>
    refine ⟨rfl, rfl, rfl, rfl, ?_, ?_⟩
    · intro f hf
      cases hf
    · intro f hf
      cases hf
  | append_singleton ps p ih =>
    have h := ih hproper.left
    by_cases hp : p.id = 0
    · have hstep := @publish_idle (publisher minIntervalMs heartbeatMs ps) p hp
      refine ⟨?_, ?_⟩
      · rw [publisher_append, hstep, seen_append_idle hp]
        exact h.served
      · rw [publisher_append, frames_append, hstep]
        simpa using h.gate
    · have hserve := h.serve hproper hp
      by_cases hsend : p.accepts = true ∧
          ((publisher minIntervalMs heartbeatMs ps).serve p.id).gate.shouldSend p.fingerprint
            (read p.time) = true
      · have hstep := publish_sends hp hsend.1 hsend.2
        refine ⟨?_, ?_⟩
        · rw [publisher_append, hstep, seen_append hp, List.getLast?_concat, Option.getD_some]
        · rw [publisher_append, frames_append, hstep, Option.toList_some,
            @lastTo_append_self (frames _ _ ps) p.frame p.id rfl]
          exact hserve.sent (Pass.frame_fingerprint p)
      · have hstep := publish_holds hp hsend
        refine ⟨?_, ?_⟩
        · rw [publisher_append, hstep, seen_append hp, List.getLast?_concat]
          exact Publisher.serve_servedClientId
        · rw [publisher_append, frames_append, hstep, Publisher.serve_servedClientId,
            Option.toList_none, List.append_nil]
          exact hserve

/-- Which passes deliver, as the 32-bit clock decides it. -/
theorem output_iff (hproper : Proper (ps ++ [p])) (hp : p.id ≠ 0) :
    (wsPublishTelemetry (publisher minIntervalMs heartbeatMs ps) p).2 = some p.frame ↔
      p.accepts = true ∧
      Due minIntervalMs heartbeatMs p (lastTo p.id (frames minIntervalMs heartbeatMs ps)) := by
  have hserve := (@inTouch minIntervalMs heartbeatMs ps hproper.left).serve hproper hp
  rw [← hserve.shouldSend_iff p]
  exact publish_delivers_iff hp

/-- No frame comes from the future. -/
theorem frame_time_le (hproper : Proper (ps ++ [p])) {f : Frame}
    (hf : f ∈ frames minIntervalMs heartbeatMs ps) : f.time ≤ p.time := by
  obtain ⟨q, hq, rfl⟩ := exists_pass_of_mem_frames hf
  have hclock := hproper.clock
  rw [List.map_append, List.pairwise_append] at hclock
  exact hclock.2.2 q.time (List.mem_map_of_mem hq) p.time (List.mem_singleton_self _)

theorem mem_frames_of_lastTo {id : UInt32} {fs : List Frame} {f : Frame} (h : f ∈ lastTo id fs) :
    f ∈ fs := List.mem_of_mem_filter (List.mem_of_getLast? h)

/-- What is due by the 32-bit clock is not early by the true one. -/
theorem Due.min_le {f : Frame} (hle : minIntervalMs ≤ heartbeatMs) (ht : f.time ≤ p.time)
    (h : Due minIntervalMs heartbeatMs p (some f)) : f.time + minIntervalMs.toNat ≤ p.time := by
  apply WrapClock.le_of_elapsed ht
  rcases h f rfl with hchange | hbeat
  · exact hchange.2
  · exact UInt32.le_trans hle hbeat

/-- While the last frame is less than a turn of the counter old, due is due. -/
theorem due_iff (ht : ∀ f ∈ last, f.time ≤ p.time) (hage : ∀ f ∈ last, p.time - f.time < 2 ^ 32) :
    Due minIntervalMs heartbeatMs p last ↔
      last = none ∨ ∃ f ∈ last,
        (p.fingerprint ≠ f.fingerprint ∧ f.time + minIntervalMs.toNat ≤ p.time) ∨
          f.time + heartbeatMs.toNat ≤ p.time := by
  cases last with
  | none => simp [Due]
  | some f =>
    have htf := ht f rfl
    have hafter : ∀ d : UInt32, d ≤ read p.time - read f.time ↔ f.time + d.toNat ≤ p.time := by
      intro d
      rw [WrapClock.elapsed_iff htf (hage f rfl)]
      omega
    simp only [Due, Option.mem_some_iff, forall_eq', hafter, reduceCtorEq, false_or,
      exists_eq_left']

theorem frames_spaced (hle : minIntervalMs ≤ heartbeatMs) (hproper : Proper ps) (id : UInt32) :
    ((frames minIntervalMs heartbeatMs ps).filter (·.id = id)).IsChain
      fun f g => f.time + minIntervalMs.toNat ≤ g.time := by
  induction ps using List.reverseRecOn with
  | nil => exact List.IsChain.nil
  | append_singleton ps p ih =>
    have hchain := ih hproper.left
    rw [frames_append]
    rcases publish_output (publisher minIntervalMs heartbeatMs ps) p with hout | hout
    · rw [hout, Option.toList_some, List.filter_append]
      by_cases hid : p.frame.id = id
      · have hp : p.id ≠ 0 := by
          intro hzero
          rw [publish_idle hzero] at hout
          cases hout
        have hone : [p.frame].filter (·.id = id) = [p.frame] := by simp [hid]
        rw [hone]
        obtain ⟨-, hdue⟩ := (output_iff hproper hp).mp hout
        apply List.isChain_append.mpr
        refine ⟨hchain, List.isChain_singleton _, ?_⟩
        intro f hf g hg
        obtain rfl : p.frame = g := by simpa using hg
        have hlast : lastTo p.id (frames minIntervalMs heartbeatMs ps) = some f := by
          rw [show p.id = id from hid]
          exact hf
        rw [hlast] at hdue
        exact hdue.min_le hle (frame_time_le hproper (mem_frames_of_lastTo hlast))
      · have hnone : [p.frame].filter (·.id = id) = [] := by simp [hid]
        rw [hnone, List.append_nil]
        exact hchain
    · rw [hout, Option.toList_none, List.append_nil]
      exact hchain

/-- Serving another client first goes unnoticed while the former one does not come back. -/
theorem outputs_serve {s : Publisher} (c : UInt32)
    (h : ∀ q ∈ qs, q.id ≠ 0 → q.id ≠ s.servedClientId) :
    Mealy.outputs wsPublishTelemetry (s.serve c) qs = Mealy.outputs wsPublishTelemetry s qs := by
  induction qs with
  | nil => rfl
  | cons q qs ih =>
    by_cases hq : q.id = 0
    · have hrest := ih fun r hr => h r (List.mem_cons_of_mem q hr)
      rw [Mealy.outputs_cons, Mealy.outputs_cons, publish_idle hq, publish_idle hq, hrest]
    · have hserve := @Publisher.serve_serve s c q.id (h q List.mem_cons_self hq)
      rw [Mealy.outputs_cons, Mealy.outputs_cons, publish_congr hq hserve]

/-- A pass that delivers nothing changes nothing that later passes depend on. -/
theorem outputs_after_silent (hproper : Proper (ps ++ p :: qs))
    (hout : (wsPublishTelemetry (publisher minIntervalMs heartbeatMs ps) p).2 = none) :
    Mealy.outputs wsPublishTelemetry (publisher minIntervalMs heartbeatMs (ps ++ [p])) qs =
      Mealy.outputs wsPublishTelemetry (publisher minIntervalMs heartbeatMs ps) qs := by
  rw [publisher_append]
  by_cases hp : p.id = 0
  · rw [publish_idle hp]
  · rw [publish_silent hp hout]
    by_cases hsame : p.id = (publisher minIntervalMs heartbeatMs ps).servedClientId
    · rw [hsame, Publisher.serve_self]
    · apply outputs_serve
      intro q hq hq0 hback
      have hserved := (@inTouch minIntervalMs heartbeatMs ps hproper.left).served
      cases hlast : (seen ps).getLast? with
      | none =>
        rw [hback, hserved, hlast] at hq0
        exact hq0 rfl
      | some served =>
        rw [hlast, Option.getD_some] at hserved
        rw [hserved] at hback hsame
        apply not_mem_of_replaced hproper hp (List.mem_of_getLast? hlast) (Ne.symm hsame)
        rw [← hback]
        exact List.mem_map_of_mem hq

/-- Frames to one client keep the minimum interval. A pass whose socket accepts delivers
its snapshot exactly when the client has no frame yet, or the payload changed and the
minimum interval has passed, or a heartbeat is due. A pass that is refused or has no
client delivers nothing, and what delivers nothing leaves all later decisions alone. -/
theorem telemetry_delivery_law (minIntervalMs heartbeatMs : UInt32) (ps : List Pass)
    (hle : minIntervalMs ≤ heartbeatMs) (hproper : Proper ps) :
    (∀ id, ((frames minIntervalMs heartbeatMs ps).filter (·.id = id)).IsChain
      fun f g => f.time + minIntervalMs.toNat ≤ g.time) ∧
    ∀ pre p post, ps = pre ++ p :: post →
      let delivered := (wsPublishTelemetry (publisher minIntervalMs heartbeatMs pre) p).2
      let last := lastTo p.id (frames minIntervalMs heartbeatMs pre)
      (p.id ≠ 0 → p.accepts = true → (∀ f ∈ last, p.time - f.time < 2 ^ 32) →
        (delivered = some p.frame ↔ last = none ∨ ∃ f ∈ last,
          (p.fingerprint ≠ f.fingerprint ∧ f.time + minIntervalMs.toNat ≤ p.time) ∨
            f.time + heartbeatMs.toNat ≤ p.time)) ∧
      (p.id = 0 ∨ p.accepts = false → delivered = none) ∧
      (delivered = none →
        frames minIntervalMs heartbeatMs (pre ++ [p]) = frames minIntervalMs heartbeatMs pre ∧
        Mealy.outputs wsPublishTelemetry (publisher minIntervalMs heartbeatMs (pre ++ [p])) post =
          Mealy.outputs wsPublishTelemetry (publisher minIntervalMs heartbeatMs pre) post) := by
  refine ⟨frames_spaced hle hproper, ?_⟩
  rintro pre p post rfl
  have hhere : Proper (pre ++ [p]) := by
    rw [List.append_cons] at hproper
    exact hproper.left
  refine ⟨?_, ?_, ?_⟩
  · intro hp haccepts hage
    have hpast : ∀ f ∈ lastTo p.id (frames minIntervalMs heartbeatMs pre), f.time ≤ p.time := by
      intro f hf
      exact frame_time_le hhere (mem_frames_of_lastTo hf)
    rw [output_iff hhere hp, due_iff hpast hage]
    exact and_iff_right haccepts
  · intro hquiet
    by_cases hp : p.id = 0
    · rw [publish_idle hp]
    · have hrefused := hquiet.resolve_left hp
      rw [publish_holds hp (by simp [hrefused])]
  · intro hout
    refine ⟨?_, outputs_after_silent hproper hout⟩
    rw [frames_append, hout, Option.toList_none, List.append_nil]

end runs

def quietRoom : SensorSnapshot where
  presence := 0
  targetState := 0
  movingDistanceCm := 0
  movingEnergy := 0
  stationaryDistanceCm := 0
  stationaryEnergy := 0
  micPeakToPeak := 300
  micMin := 1900
  micMax := 2200
  audioDroppedSamples := 0
  pushLost := 0
  audioStreaming := 0
  pushBackingOff := 0

/-- A pass over the quiet room whose socket accepts. -/
def quietPass (id : UInt32) (time : Nat) : Pass := ⟨id, quietRoom, time, true, true⟩

/-- The room has not changed, but the second client has seen nothing yet. -/
theorem successor_served_at_once :
    (wsPublishTelemetry (publisher Config.wsMinPushIntervalMs Config.wsHeartbeatMs
      [quietPass 1 0, quietPass 0 10]) (quietPass 2 20)).2 = some (quietPass 2 20).frame := by
  have hproper : Proper [quietPass 1 0, quietPass 0 10, quietPass 2 20] := by
    refine ⟨by decide, ?_⟩
    intro a b _ _ _ hsub
    have hnodup : ([1, 0, 2] : List UInt32).Nodup := by decide
    have htwice := hnodup.sublist hsub
    simp at htwice
  obtain ⟨-, hlaw⟩ := telemetry_delivery_law Config.wsMinPushIntervalMs Config.wsHeartbeatMs _
    (by decide) hproper
  obtain ⟨hserve, -, -⟩ := hlaw [quietPass 1 0, quietPass 0 10] (quietPass 2 20) [] rfl
  have hlast : lastTo 2 (frames Config.wsMinPushIntervalMs Config.wsHeartbeatMs
      [quietPass 1 0, quietPass 0 10]) = none := rfl
  apply (hserve (by decide) rfl ?_).mpr
  · exact Or.inl hlast
  · intro f hf
    rw [show (quietPass 2 20).id = 2 from rfl, hlast] at hf
    cases hf

end RoomWatchdog.Ws
