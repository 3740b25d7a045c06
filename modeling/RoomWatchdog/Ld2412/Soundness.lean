import RoomWatchdog.Ld2412.Refinement
import RoomWatchdog.Ld2412.History

namespace RoomWatchdog.Ld2412
namespace Ld2412Parser

/-- The parser after a byte history, starting fresh. -/
def after (bytes : List UInt8) : Ld2412Parser := Mealy.run feed {} bytes

theorem run_feedReport (p : Ld2412Parser) (bytes : List UInt8) :
    Mealy.run feedReport p bytes = Mealy.run feed p bytes := by
  induction bytes generalizing p with
  | nil => rfl
  | cons b bytes ih => exact ih _

/-- Every reachable parser is in the phase its history gives. -/
theorem after_refines (bytes : List UInt8) :
    Refines (after bytes) (Mealy.run Phase.step (.hunt 0) bytes) := by
  rw [after, ← run_feedReport]
  exact feed_simulation.run fresh_refines bytes

theorem feedReport_after (bytes : List UInt8) (byte : UInt8) :
    ((after bytes).feedReport byte).2 = ((Mealy.run Phase.step (.hunt 0) bytes).step byte).2 :=
  (feedReport_refines (after_refines bytes) byte).2

theorem feedReport_eq_some {p : Ld2412Parser} {byte : UInt8} {r : Report} :
    (p.feedReport byte).2 = some r ↔ (p.feed byte).2 = true ∧ (p.feed byte).1.report = r := by
  simp only [feedReport]
  split_ifs with h <;> simp [h]

/-- `feed` returns true on the byte after `bytes`. -/
def Completes (bytes : List UInt8) (byte : UInt8) : Prop := ((after bytes).feed byte).2 = true

/-- The frame a true result belongs to: it ends at this byte, and where it began a header
was welcome. -/
theorem completes_frame {bytes : List UInt8} {byte : UInt8} (h : Completes bytes byte) :
    ∃ (u : List UInt8) (d : Payload), Phase.Opens u ∧ bytes ++ [byte] = u ++ d.frame ∧
      IsReport d.bytes ∧ ((after bytes).feed byte).1.report = reportOf d.bytes := by
  have hsome : ((after bytes).feedReport byte).2 = some ((after bytes).feed byte).1.report :=
    feedReport_eq_some.mpr ⟨h, rfl⟩
  rw [feedReport_after] at hsome
  obtain ⟨u, d, hu, hsplit, hd⟩ := (Phase.report_iff _ _ _).mp hsome
  unfold Payload.decode at hd
  split_ifs at hd with hr
  exact ⟨u, d, hu, hsplit, hr, (Option.some.inj hd).symm⟩

/-- Inside a frame that began where a header was welcome only the last byte completes. -/
theorem not_completes_inside {u : List UInt8} (hu : Phase.Opens u) (d : Payload) {n : Nat}
    (hn : n + 1 < d.frame.length) {byte : UInt8} (hb : d.frame[n]? = some byte) :
    ¬ Completes (u ++ d.frame.take n) byte := by
  intro hc
  obtain ⟨hrun, hout⟩ := Phase.feed_frame hu d
  have hsome : ((after (u ++ d.frame.take n)).feedReport byte).2 =
      some ((after (u ++ d.frame.take n)).feed byte).1.report := feedReport_eq_some.mpr ⟨hc, rfl⟩
  rw [Payload.frame_length] at hn
  rw [feedReport_after, Mealy.run_append] at hsome
  have hget : (Mealy.outputs Phase.step (Mealy.run Phase.step (.hunt 0) u) d.frame)[n]? = _ :=
    Mealy.outputs_getElem? d.frame n
  rw [hout, hb, Option.map_some, hsome, Phase.answers,
    List.getElem?_append_left (by simp; omega)] at hget
  simp [List.getElem?_replicate] at hget

/-- The frame behind a true result starts after every byte that completed an earlier one. -/
theorem completes_frame_start {bytes : List UInt8} (i : Fin bytes.length)
    (h : Completes (bytes.take i) bytes[i]) :
    ∃ start, start ≤ i.val ∧
      (∃ d : Payload, (bytes.take (i + 1)).drop start = d.frame ∧ IsReport d.bytes ∧
        ((after (bytes.take i)).feed bytes[i]).1.report = reportOf d.bytes) ∧
      ∀ j : Fin bytes.length, j < i → Completes (bytes.take j) bytes[j] → j.val < start := by
  obtain ⟨u, d, hu, hsplit, hr, hreport⟩ := completes_frame h
  have htake : bytes.take (i + 1) = u ++ d.frame := by
    rw [← hsplit, List.take_add_one, List.getElem?_eq_getElem i.isLt]
    rfl
  have hlen : i.val + 1 = u.length + d.frame.length := by
    have := congrArg List.length htake
    simpa [Nat.min_eq_left (Nat.succ_le_of_lt i.isLt)] using this
  have hpos : 0 < d.frame.length := by
    rw [Payload.frame_length]
    omega
  refine ⟨u.length, by omega, ⟨d, by rw [htake, List.drop_left], hr, hreport⟩, ?_⟩
  intro j hji hj
  by_contra hge
  have hji' : j.val < i.val := hji
  obtain ⟨n, hn⟩ := Nat.exists_eq_add_of_le (Nat.le_of_not_lt hge)
  have htakej : bytes.take j = u ++ d.frame.take n := by
    have hshort : bytes.take j = (bytes.take (i + 1)).take j := by
      rw [List.take_take, Nat.min_eq_left (by omega)]
    rw [hshort, htake, hn, List.take_length_add_append]
  have hbyte : d.frame[n]? = some bytes[j] := by
    have hget : (bytes.take (i + 1))[j.val]? = some bytes[j] := by
      rw [List.getElem?_take_of_lt (by omega), List.getElem?_eq_getElem j.isLt]
      rfl
    have hoff : j.val - u.length = n := by omega
    rwa [htake, List.getElem?_append_right (by omega), hoff] at hget
  rw [htakej] at hj
  exact not_completes_inside hu d (by omega) hbyte hj

/-- Soundness on any input. Every true result ends a complete report frame, `report` is the
decoding of exactly that frame, frames of different results are disjoint and in order, and
a false result leaves `report` alone. -/
theorem feed_sound (bytes : List UInt8) :
    ∃ start : Fin bytes.length → Nat, ∀ i : Fin bytes.length,
      (((after (bytes.take i)).feed bytes[i]).2 = true →
        start i ≤ i.val ∧
        (∃ d : Payload, (bytes.take (i + 1)).drop (start i) = d.frame ∧ IsReport d.bytes ∧
          ((after (bytes.take i)).feed bytes[i]).1.report = reportOf d.bytes) ∧
        ∀ j : Fin bytes.length, j < i → ((after (bytes.take j)).feed bytes[j]).2 = true →
          j.val < start i) ∧
      (((after (bytes.take i)).feed bytes[i]).2 = false →
        ((after (bytes.take i)).feed bytes[i]).1.report = (after (bytes.take i)).report) := by
  have frames (i : Fin bytes.length) : ∃ start,
      Completes (bytes.take i) bytes[i] → start ≤ i.val ∧
        (∃ d : Payload, (bytes.take (i + 1)).drop start = d.frame ∧ IsReport d.bytes ∧
          ((after (bytes.take i)).feed bytes[i]).1.report = reportOf d.bytes) ∧
        ∀ j : Fin bytes.length, j < i → Completes (bytes.take j) bytes[j] → j.val < start := by
    by_cases h : Completes (bytes.take i) bytes[i]
    · obtain ⟨start, hstart⟩ := completes_frame_start i h
      exact ⟨start, fun _ => hstart⟩
    · exact ⟨0, fun hc => absurd hc h⟩
  choose start hstart using frames
  exact ⟨start, fun i => ⟨hstart i, feed_false_report⟩⟩

end Ld2412Parser
end RoomWatchdog.Ld2412
