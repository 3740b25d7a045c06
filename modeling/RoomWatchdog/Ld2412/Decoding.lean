import RoomWatchdog.Ld2412.Refinement
import RoomWatchdog.Ld2412.History

namespace RoomWatchdog.Ld2412

/-- Bytes between frames. They may contain, or end in, any part of a header. -/
structure Gap where
  bytes : List UInt8
  noHeader : ¬ headerBytes <:+: bytes

/-- Frames with arbitrary payloads, a gap before each and one after the last. -/
def streamBytes (segments : List (Gap × Payload)) (tail : Gap) : List UInt8 :=
  segments.flatMap (fun s => s.1.bytes ++ s.2.frame) ++ tail.bytes

/-- The answers to such a stream, byte by byte. -/
def streamAnswers (segments : List (Gap × Payload)) (tail : Gap) : List (Option Report) :=
  segments.flatMap (fun s => List.replicate s.1.bytes.length none ++ Phase.answers s.2) ++
    List.replicate tail.bytes.length none

namespace Phase

theorem feed_gap (g : Gap) : ∃ pos, Mealy.Runs step (.hunt 0) g.bytes (.hunt pos)
    (List.replicate g.bytes.length none) :=
  feed_noise 0 g.bytes (by simpa using g.noHeader)

theorem feed_segment (s : Gap × Payload) :
    Mealy.Runs step (.hunt 0) (s.1.bytes ++ s.2.frame) (.hunt 0)
      (List.replicate s.1.bytes.length none ++ answers s.2) := by
  obtain ⟨pos, hgap⟩ := feed_gap s.1
  exact hgap.append (feed_frame (hunt_receptive pos) s.2)

theorem outputs_stream (segments : List (Gap × Payload)) (tail : Gap) :
    Mealy.outputs step (.hunt 0) (streamBytes segments tail) = streamAnswers segments tail := by
  induction segments with
  | nil =>
    obtain ⟨pos, hgap⟩ := feed_gap tail
    simpa [streamBytes, streamAnswers] using hgap.2
  | cons s segments ih =>
    obtain ⟨hrun, hout⟩ := feed_segment s
    have hbytes : streamBytes (s :: segments) tail =
        s.1.bytes ++ s.2.frame ++ streamBytes segments tail := by
      simp [streamBytes]
    have hanswers : streamAnswers (s :: segments) tail =
        List.replicate s.1.bytes.length none ++ answers s.2 ++ streamAnswers segments tail := by
      simp [streamAnswers]
    rw [hbytes, hanswers, Mealy.outputs_append, hrun, hout, ih]

end Phase

namespace Ld2412Parser

/-- Decoding undoes framing: over any frames and any headerless gaps, `feed` returns true
exactly at the last byte of every report frame, and `report` is then that frame's. -/
theorem feed_decodes_stream (segments : List (Gap × Payload)) (tail : Gap) :
    Mealy.outputs feedReport {} (streamBytes segments tail) = streamAnswers segments tail := by
  rw [outputs_fresh]
  exact Phase.outputs_stream segments tail

end Ld2412Parser

end RoomWatchdog.Ld2412
