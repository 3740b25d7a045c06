import Mathlib.Data.List.ReduceOption
import RoomWatchdog.Ld2412.Decoding
import RoomWatchdog.Ld2412.Soundness
import RoomWatchdog.Library.Guarded
import RoomWatchdog.Library.Register

namespace RoomWatchdog.Ld2412

/-- The stores of decodeData into report_, of which an interleaving may see any number. -/
def Report.store (r target : Report) : Nat → Report
  | 0 => { r with targetState := target.targetState }
  | 1 => { r with movingDistanceCm := target.movingDistanceCm }
  | 2 => { r with movingEnergy := target.movingEnergy }
  | 3 => { r with stationaryDistanceCm := target.stationaryDistanceCm }
  | _ => { r with stationaryEnergy := target.stationaryEnergy }

/-- The report after the first stores. -/
def Report.stores (r target : Report) : Nat → Report
  | 0 => r
  | k + 1 => (r.stores target k).store target k

@[simp] theorem Report.stores_all (r target : Report) : r.stores target 5 = target := rfl

namespace Ld2412Parser

/-- The reports that `feed` completes over a byte history. -/
def reports (bytes : List UInt8) : List Report :=
  (Mealy.outputs feedReport {} bytes).reduceOption

theorem reports_append_singleton (bytes : List UInt8) (byte : UInt8) :
    reports (bytes ++ [byte]) = reports bytes ++ ((after bytes).feedReport byte).2.toList := by
  rw [reports, reports, Mealy.outputs_append, List.reduceOption_append, run_feedReport,
    Mealy.outputs_cons, Mealy.outputs_nil, ← after]
  cases ((after bytes).feedReport byte).2 with
  | none => rfl
  | some report => rfl

theorem feedReport_eq_none {p : Ld2412Parser} {byte : UInt8} (h : (p.feed byte).2 = false) :
    (p.feedReport byte).2 = none := by
  rw [feedReport]
  show (if (p.feed byte).2 then some _ else none) = none
  rw [h, if_neg Bool.false_ne_true]

theorem after_append_singleton (bytes : List UInt8) (byte : UInt8) :
    after (bytes ++ [byte]) = ((after bytes).feed byte).1 := by
  rw [after, Mealy.run_append]
  rfl

/-- A completed report is that of a whole frame among the bytes. -/
theorem frame_of_report {bytes : List UInt8} {r : Report} (h : r ∈ reports bytes) :
    ∃ (u v : List UInt8) (d : Payload), Phase.Opens u ∧ bytes = u ++ d.frame ++ v ∧
      d.decode = some r := by
  induction bytes using List.reverseRecOn with
  | nil => cases h
  | append_singleton bytes byte ih =>
    rw [reports_append_singleton] at h
    rcases List.mem_append.mp h with hearlier | hnow
    · obtain ⟨u, v, d, hu, hsplit, hd⟩ := ih hearlier
      refine ⟨u, v ++ [byte], d, hu, ?_, hd⟩
      rw [hsplit, List.append_assoc _ v]
    · rw [Option.mem_toList, feedReport_after] at hnow
      obtain ⟨u, d, hu, hsplit, hd⟩ := (Phase.report_iff bytes byte r).mp hnow
      refine ⟨u, [], d, hu, ?_, hd⟩
      rw [hsplit, List.append_nil]

/-- Of frames with gaps between them, the report frames in their order. -/
theorem reports_stream (segments : List (Gap × Payload)) (tail : Gap) :
    reports (streamBytes segments tail) = segments.filterMap fun s => s.2.decode := by
  have hnone : ∀ n, (List.replicate n (none : Option Report)).reduceOption = [] := by
    intro n
    rw [List.reduceOption_replicate_none]
  rw [reports, outputs_fresh, Phase.outputs_stream]
  induction segments with
  | nil => exact hnone _
  | cons s segments ih =>
    rw [streamAnswers] at ih ⊢
    rw [List.flatMap_cons, List.append_assoc, List.reduceOption_append, ih,
      List.reduceOption_append, hnone, Phase.answers, List.reduceOption_append, hnone,
      List.filterMap_cons]
    cases s.2.decode with
    | none => rfl
    | some report => rfl

end Ld2412Parser

end RoomWatchdog.Ld2412

namespace RoomWatchdog
open Ld2412 (Report Ld2412Parser)

/-- Where the loop task stands in radarPoll: at `available`, inside decodeData with the first
fields stored, or with a complete report in front of the critical section. -/
inductive Radar.Loop where
  | polling
  | decoding (report : Report) (stored : Nat)
  | completed
  deriving DecidableEq

/-- The receive buffer of Serial1, the parser that the loop task feeds from it, and `published`
behind reportMux. `consumed` is the history of what was read from the buffer. -/
structure Radar where
  rx : List UInt8 := []
  parser : Ld2412Parser := {}
  published : Register.State Report := { value := {} }
  loop : Radar.Loop := .polling
  consumed : List UInt8 := []

/-- A step of the UART, of the loop task, or of any task that calls radarReport. -/
inductive Radar.Action where
  | receive (bytes : List UInt8)
  | feed
  | store
  | publish
  | radarReport
  deriving DecidableEq

namespace Radar

/-- The bytes that arrived in the course of a run. -/
def received (actions : List Action) : List UInt8 :=
  actions.flatMap fun
    | .receive bytes => bytes
    | .feed | .store | .publish | .radarReport => []

/-- One turn of radarPoll. A byte that completes a report leaves the stores to the steps that
follow. -/
def feed (s : Radar) : Option Radar :=
  match s.loop, s.rx with
  | .polling, byte :: rx =>
    let (parser, complete) := s.parser.feed byte
    let s := { s with rx, consumed := s.consumed ++ [byte] }
    if complete then
      some { s with
        parser := { parser with report := s.parser.report }
        loop := .decoding parser.report 0 }
    else some { s with parser }
  | _, _ => none

def store (s : Radar) : Option Radar :=
  match s.loop with
  | .decoding report stored =>
    some { s with
      parser := { s.parser with report := s.parser.report.store report stored }
      loop := if stored + 1 = 5 then .completed else .decoding report (stored + 1) }
  | _ => none

def publish (s : Radar) : Option Radar :=
  if s.loop = .completed then
    some { s with published := s.published.write s.parser.report, loop := .polling }
  else none

def step (s : Radar) : Action → Option Radar
  | .receive bytes => some { s with rx := s.rx ++ bytes }
  | .feed => s.feed
  | .store => s.store
  | .publish => s.publish
  | .radarReport => some { s with published := s.published.observe }

/-- The parser as the loop task alone would see it, and what is behind the lock: all reports,
but for the one that is on its way. -/
def Tracks (s : Radar) : Prop :=
  match s.loop with
  | .polling =>
    s.parser = Ld2412Parser.after s.consumed ∧
      s.published.written = Ld2412Parser.reports s.consumed
  | .decoding report stored =>
    (∃ before : Report, s.parser.report = before.stores report stored) ∧ stored < 5 ∧
      { s.parser with report } = Ld2412Parser.after s.consumed ∧
      s.published.written ++ [report] = Ld2412Parser.reports s.consumed
  | .completed =>
    s.parser = Ld2412Parser.after s.consumed ∧
      s.published.written ++ [s.parser.report] = Ld2412Parser.reports s.consumed

section steps
variable {s t : Radar}

theorem tracks_polling (h : s.loop = .polling) : s.Tracks ↔
    s.parser = Ld2412Parser.after s.consumed ∧
      s.published.written = Ld2412Parser.reports s.consumed := by
  rw [Tracks, h]

theorem feed_cases (h : s.feed = some t) : ∃ byte rx, s.loop = .polling ∧ s.rx = byte :: rx ∧
    ((s.parser.feed byte).2 = false ∧
      { s with
        rx
        consumed := s.consumed ++ [byte]
        parser := (s.parser.feed byte).1 } = t ∨
    (s.parser.feed byte).2 = true ∧
      { s with
        rx
        consumed := s.consumed ++ [byte]
        parser := { (s.parser.feed byte).1 with report := s.parser.report }
        loop := .decoding (s.parser.feed byte).1.report 0 } = t) := by
  simp only [feed] at h
  split at h
  next byte rx hloop hrx =>
    refine ⟨byte, rx, hloop, hrx, ?_⟩
    cases hcomplete : (s.parser.feed byte).2 with
    | false =>
      rw [hcomplete] at h
      exact Or.inl ⟨rfl, Option.some.inj h⟩
    | true =>
      rw [hcomplete] at h
      exact Or.inr ⟨rfl, Option.some.inj h⟩
  · cases h

theorem store_cases (h : s.store = some t) : ∃ report stored, s.loop = .decoding report stored ∧
    { s with
      parser := { s.parser with report := s.parser.report.store report stored }
      loop := if stored + 1 = 5 then .completed else .decoding report (stored + 1) } = t := by
  simp only [store] at h
  split at h
  next report stored hloop => exact ⟨report, stored, hloop, Option.some.inj h⟩
  · cases h

theorem publish_cases (h : s.publish = some t) : s.loop = .completed ∧
    { s with published := s.published.write s.parser.report, loop := .polling } = t := by
  rw [publish] at h
  split_ifs at h with hloop
  exact ⟨hloop, Option.some.inj h⟩

/-- A byte that completes nothing adds no report; one that does leaves it to be stored. -/
theorem tracks_feed (hs : s.Tracks) (h : s.feed = some t) : t.Tracks := by
  obtain ⟨byte, rx, hloop, -, hfed⟩ := feed_cases h
  obtain ⟨hparser, hwritten⟩ := (tracks_polling hloop).mp hs
  have hnext := Ld2412Parser.after_append_singleton s.consumed byte
  have hreports := Ld2412Parser.reports_append_singleton s.consumed byte
  rw [← hparser] at hnext hreports
  rw [← hwritten] at hreports
  rcases hfed with ⟨hmore, rfl⟩ | ⟨hcomplete, rfl⟩
  · rw [Ld2412Parser.feedReport_eq_none hmore] at hreports
    simp only [Tracks, hloop]
    refine ⟨hnext.symm, ?_⟩
    rw [hreports]
    exact (List.append_nil _).symm
  · rw [Ld2412Parser.feedReport_eq_some.mpr ⟨hcomplete, rfl⟩] at hreports
    exact ⟨⟨s.parser.report, rfl⟩, by decide, hnext.symm, hreports.symm⟩

theorem tracks_store (hs : s.Tracks) (h : s.store = some t) : t.Tracks := by
  obtain ⟨report, stored, hloop, rfl⟩ := store_cases h
  rw [Tracks, hloop] at hs
  obtain ⟨⟨before, hbefore⟩, hstored, hparser, hwritten⟩ := hs
  have hstores : s.parser.report.store report stored = before.stores report (stored + 1) := by
    rw [hbefore]
    rfl
  by_cases hlast : stored + 1 = 5
  · have hwhole : s.parser.report.store report stored = report := by
      rw [hstores, hlast, Report.stores_all]
    simp only [Tracks, if_pos hlast, hwhole]
    exact ⟨hparser, hwritten⟩
  · simp only [Tracks, if_neg hlast]
    exact ⟨⟨before, hstores⟩, by omega, hparser, hwritten⟩

theorem tracks_publish (hs : s.Tracks) (h : s.publish = some t) : t.Tracks := by
  obtain ⟨hloop, rfl⟩ := publish_cases h
  rw [Tracks, hloop] at hs
  exact hs

theorem tracks_step (s : Radar) (a : Action) (t : Radar) (h : s.step a = some t)
    (hs : s.Tracks) : t.Tracks := by
  cases a with
  | receive bytes =>
    obtain rfl := Option.some.inj h
    exact hs
  | feed => exact tracks_feed hs h
  | store => exact tracks_store hs h
  | publish => exact tracks_publish hs h
  | radarReport =>
    obtain rfl := Option.some.inj h
    exact hs

theorem faithful_step (s : Radar) (a : Action) (t : Radar) (h : s.step a = some t)
    (hs : s.published.Faithful {}) : t.published.Faithful {} := by
  cases a with
  | receive bytes =>
    obtain rfl := Option.some.inj h
    exact hs
  | feed =>
    obtain ⟨byte, rx, -, -, ⟨-, rfl⟩ | ⟨-, rfl⟩⟩ := feed_cases h
    · exact hs
    · exact hs
  | store =>
    obtain ⟨report, stored, -, rfl⟩ := store_cases h
    exact hs
  | publish =>
    obtain ⟨-, rfl⟩ := publish_cases h
    exact hs.write _
  | radarReport =>
    obtain rfl := Option.some.inj h
    exact hs.observe

/-- No byte is dropped between the receive buffer and the parser. -/
theorem received_exec {actions : List Action} (h : Guarded.exec step s actions = some t) :
    s.consumed ++ s.rx ++ received actions = t.consumed ++ t.rx := by
  induction actions generalizing s with
  | nil =>
    obtain rfl := Option.some.inj h
    exact List.append_nil _
  | cons a actions ih =>
    obtain ⟨u, hstep, hrest⟩ := Guarded.exec_cons.mp h
    rw [← ih hrest, received, List.flatMap_cons, ← received, ← List.append_assoc]
    congr 1
    cases a with
    | receive bytes =>
      obtain rfl := Option.some.inj hstep
      exact List.append_assoc _ _ _
    | feed =>
      obtain ⟨byte, rx, -, hrx, ⟨-, rfl⟩ | ⟨-, rfl⟩⟩ := feed_cases hstep
      · simp [hrx]
      · simp [hrx]
    | store =>
      obtain ⟨report, stored, -, rfl⟩ := store_cases hstep
      exact List.append_nil _
    | publish =>
      obtain ⟨-, rfl⟩ := publish_cases hstep
      exact List.append_nil _
    | radarReport =>
      obtain rfl := Option.some.inj hstep
      exact List.append_nil _

end steps

theorem tracks_written {s : Radar} (hs : s.Tracks) :
    (s.loop = .polling → s.published.written = Ld2412Parser.reports s.consumed) ∧
    (s.loop ≠ .polling → s.published.written = (Ld2412Parser.reports s.consumed).dropLast) := by
  rw [Tracks] at hs
  cases hloop : s.loop with
  | polling =>
    rw [hloop] at hs
    exact ⟨fun _ => hs.2, fun hbusy => absurd rfl hbusy⟩
  | decoding report stored =>
    rw [hloop] at hs
    refine ⟨by simp, fun _ => ?_⟩
    rw [← hs.2.2.2, List.dropLast_concat]
  | completed =>
    rw [hloop] at hs
    refine ⟨by simp, fun _ => ?_⟩
    rw [← hs.2, List.dropLast_concat]

/-- What radarReport returns, in every interleaving of the UART, the stores of the parser and
the callers. Each report is that of a whole frame among the bytes read, or the first one before
any, never a mix; a later one is never of an earlier frame. Behind the lock is the report of the
last frame read, or of the one before while the loop task is busy with its last byte, and frames
that the module sends with gaps between them come through in their order. -/
theorem reports_published (actions : List Action) (s : Radar)
    (h : Guarded.exec step {} actions = some s) :
    received actions = s.consumed ++ s.rx ∧
    (∀ o ∈ s.published.observed,
      ({} :: Ld2412Parser.reports s.consumed : List Report)[o.1]? = some o.2) ∧
    (s.published.observed.Pairwise fun o o' => o.1 ≤ o'.1) ∧
    ({} :: s.published.written : List Report)[s.published.written.length]? =
      some s.published.value ∧
    (s.loop = .polling → s.published.written = Ld2412Parser.reports s.consumed) ∧
    (s.loop ≠ .polling → s.published.written = (Ld2412Parser.reports s.consumed).dropLast) ∧
    (∀ r ∈ Ld2412Parser.reports s.consumed, ∃ (u v : List UInt8) (d : Ld2412.Payload),
      Ld2412.Phase.Opens u ∧ s.consumed = u ++ d.frame ++ v ∧ d.decode = some r) ∧
    ∀ (segments : List (Ld2412.Gap × Ld2412.Payload)) (tail : Ld2412.Gap),
      s.consumed = Ld2412.streamBytes segments tail →
      Ld2412Parser.reports s.consumed = segments.filterMap fun s => s.2.decode := by
  have htracks := Guarded.exec_preserves Tracks tracks_step h ⟨rfl, rfl⟩
  have hfaithful := Guarded.exec_preserves (fun s => s.published.Faithful {}) faithful_step h
    (Register.State.faithful_boot _)
  obtain ⟨hpolling, hbusy⟩ := tracks_written htracks
  have hprefix : s.published.written <+: Ld2412Parser.reports s.consumed := by
    by_cases hloop : s.loop = .polling
    · rw [hpolling hloop]
    · rw [hbusy hloop]
      exact List.dropLast_prefix _
  refine ⟨received_exec h, ?_, hfaithful.ordered, hfaithful.value, hpolling, hbusy, ?_, ?_⟩
  · intro o ho
    have hcopy := hfaithful.each o ho
    obtain ⟨later, hlater⟩ := hprefix
    obtain ⟨hlt, -⟩ := List.getElem?_eq_some_iff.mp hcopy
    rw [← hlater, ← List.cons_append, List.getElem?_append_left hlt, hcopy]
  · intro r hr
    exact Ld2412Parser.frame_of_report hr
  · intro segments tail hstream
    rw [hstream]
    exact Ld2412Parser.reports_stream segments tail

/-- A report frame with a moving target at 80 cm. -/
def movingFrame : List UInt8 :=
  [0xF4, 0xF3, 0xF2, 0xF1, 9, 0, 0x02, 0xAA, 0x01, 80, 0, 50, 0, 0, 0, 0xF8, 0xF7, 0xF6, 0xF5]

/-- radarReport is called after two of the stores for the frame. -/
def midDecode : List Action :=
  .receive movingFrame :: List.replicate 19 .feed ++ [.store, .store, .radarReport]

set_option maxRecDepth 4000 in
theorem mid_decode_published : ∃ s : Radar, Guarded.exec step {} midDecode = some s ∧
    s.parser.report = { targetState := 1, movingDistanceCm := 80 } ∧
    s.published.observed = [(0, {})] ∧ Ld2412Parser.reports s.consumed ≠ [] ∧
    s.published.written = (Ld2412Parser.reports s.consumed).dropLast := by
  obtain ⟨s, hrun⟩ : ∃ s, Guarded.exec step {} midDecode = some s := ⟨_, rfl⟩
  obtain ⟨-, -, -, -, -, hbusy, -⟩ := reports_published midDecode s hrun
  obtain rfl := Option.some.inj hrun
  exact ⟨_, rfl, rfl, rfl, by decide, hbusy (by simp)⟩

end Radar

end RoomWatchdog
