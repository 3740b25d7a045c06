import RoomWatchdog.Ld2412.Grammar
import RoomWatchdog.Ld2412.Recovery

namespace RoomWatchdog.Ld2412
namespace Phase

/-- A frame cut short leaves a header welcome only when the cut falls in its header or
footer: a cut in the length field or in the data leaves bytes still expected. -/
theorem opens_take_frame (d : Payload) {k : Nat} (hk : k < d.frame.length) :
    Opens (d.frame.take k) ↔ k < 4 ∨ d.bytes.length + 6 ≤ k := by
  rw [Payload.frame_length] at hk
  have hframe : d.frame = headerBytes ++ (lengthBytes d.bytes.length ++ d.bytes) ++ footerBytes := by
    simp [Payload.frame]
  have hhead : Mealy.run step (.hunt 0) headerBytes = .lengthLow := by
    simpa using run_noise_header (g := []) (by decide)
  rcases Nat.lt_or_ge k 4 with hhdr | hhdr
  · have htake : d.frame.take k = headerBytes.take k := by
      rw [hframe, List.append_assoc, List.take_append_of_le_length (by simp [headerBytes]; omega)]
    have hopens : ∀ i : Fin 4, Opens (headerBytes.take i) := by
      unfold Opens
      decide
    rw [htake]
    exact iff_of_true (hopens ⟨k, hhdr⟩) (.inl hhdr)
  rcases Nat.lt_or_ge k (d.bytes.length + 6) with hbody | hfoot
  · refine iff_of_false ?_ (by omega)
    have htake : d.frame.take k =
        headerBytes ++ (lengthBytes d.bytes.length ++ d.bytes).take (k - 4) := by
      rw [hframe, List.append_assoc, List.take_append, List.take_of_length_le
        (by simp [headerBytes]; omega), List.take_append_of_le_length (by
          simp [headerBytes]
          omega)]
      rfl
    rw [htake, opens_append hhead]
    rcases Nat.lt_or_ge k 6 with hlen | hdata
    · obtain hk4 | hk5 : k = 4 ∨ k = 5 := by omega
      · rw [hk4]
        exact id
      · rw [hk5]
        exact id
    · have hsplit : (lengthBytes d.bytes.length ++ d.bytes).take (k - 4) =
          lengthBytes d.bytes.length ++ d.bytes.take (k - 6) := by
        rw [List.take_append, List.take_of_length_le (by rw [lengthBytes_length]; omega),
          lengthBytes_length]
        rfl
      rw [hsplit, Mealy.run_append, (feed_lengthBytes _ d.min_le d.le_max).1,
        (feed_fill _ _ (by simp; omega)).1]
      exact id
  · have htake : d.frame.take k = [] ++ headerBytes ++
        (lengthBytes d.bytes.length ++ d.bytes) ++ footerBytes.take (k - (d.bytes.length + 6)) := by
      rw [hframe, List.take_append, List.take_of_length_le (by
        simp only [List.length_append, headerBytes, List.length_cons, List.length_nil,
          lengthBytes_length]
        omega)]
      rfl
    have hrun := run_noise_footer (g := []) (by decide) d ⟨k - (d.bytes.length + 6), by omega⟩
    rw [htake]
    exact iff_of_true (by rw [Opens, hrun]; trivial) (.inr hfoot)

end Phase

namespace Ld2412Parser

/-- The first `k` bytes of `f` and then all of `g`, fed to a fresh parser: `feed` returns
true at the last byte of `g` with the values of `g` in `report`. -/
def ResyncsAfterCut (f g : ReportPayload) (k : Nat) : Prop :=
  (Mealy.outputs feedReport {} (f.toPayload.frame.take k ++ g.toPayload.frame)).getLast? =
    some (some (reportOf g.bytes))

/-- The cut falls in the header or the footer of `f`; or what the parser has not swallowed
of `g` still ends in a complete report frame with the same values, whose header it meets
while hunting; or the footer of `g` happens to close `f`, with the same values inside. -/
def CutHarmless (f g : ReportPayload) (k : Nat) : Prop :=
  (k < 4 ∨ f.bytes.length + 6 ≤ k) ∨
  (∃ (u : List UInt8) (d : Payload), u ≠ [] ∧ g.toPayload.frame = u ++ d.frame ∧
    Skippable (f.toPayload.frame.take k ++ u) ∧ IsReport d.bytes ∧
    reportOf d.bytes = reportOf g.bytes) ∨
  (∃ d : Payload, f.toPayload.frame.take k ++ g.toPayload.frame = d.frame ∧ IsReport d.bytes ∧
    reportOf d.bytes = reportOf g.bytes)

theorem frame_ne_nil (d : Payload) : d.frame ≠ [] := by
  simp [Payload.frame, headerBytes]

/-- Resynchronised means: some frame with the values of `g` ends the bytes fed, and began
where a header was welcome. -/
theorem resyncs_iff_frame (f g : ReportPayload) (k : Nat) :
    ResyncsAfterCut f g k ↔ ∃ (u : List UInt8) (d : Payload), Phase.Opens u ∧
      f.toPayload.frame.take k ++ g.toPayload.frame = u ++ d.frame ∧ IsReport d.bytes ∧
      reportOf d.bytes = reportOf g.bytes := by
  have hne : f.toPayload.frame.take k ++ g.toPayload.frame ≠ [] := by
    simp [frame_ne_nil g.toPayload]
  obtain ⟨read, byte, hread⟩ := (List.eq_nil_or_concat' _).resolve_left hne
  have hdecode (d : Payload) : d.decode = some (reportOf g.bytes) ↔
      IsReport d.bytes ∧ reportOf d.bytes = reportOf g.bytes := by
    rw [Payload.decode]
    split_ifs with hr <;> simp [hr]
  rw [ResyncsAfterCut, outputs_fresh, hread, Mealy.outputs_append]
  simp only [Mealy.outputs_cons, Mealy.outputs_nil, List.getLast?_append, List.getLast?_singleton,
    Option.some_or, Option.some.injEq, Phase.report_iff, hdecode]

/-- A frame that starts inside the part of `f` before the cut starts with `f` itself. -/
theorem frame_start_before_cut {f : ReportPayload} {k : Fin f.toPayload.frame.length}
    {u v : List UInt8} {d : Payload} (hu : Phase.Opens u) (hcut : f.toPayload.frame.take k = u ++ v)
    (hk : 4 ≤ k.val ∧ k.val < f.bytes.length + 6) (hd : v <+: d.frame) : u = [] := by
  have hlen : u.length ≤ k.val := by
    have := congrArg List.length hcut
    simp only [List.length_take, List.length_append] at this
    omega
  have htake : u = f.toPayload.frame.take u.length := by
    have := congrArg (List.take u.length) hcut
    rwa [List.take_take, Nat.min_eq_left hlen, List.take_left, eq_comm] at this
  have hlt : u.length < f.toPayload.frame.length := Nat.lt_of_le_of_lt hlen k.isLt
  have hshort : u.length < 4 := by
    rw [htake] at hu
    rcases (Phase.opens_take_frame f.toPayload hlt).mp hu with h | h
    · exact h
    · omega
  -- the byte after `u` is a header byte of `f` and the first byte of a frame
  have hbyte : f.toPayload.frame[u.length]? = some 0xF4 := by
    have hcutbyte : (f.toPayload.frame.take k)[u.length]? = v[0]? := by
      rw [hcut, List.getElem?_append_right (by omega), Nat.sub_self]
    have hv : 0 < v.length := by
      have := congrArg List.length hcut
      simp only [List.length_take, List.length_append] at this
      omega
    obtain ⟨w, hw⟩ := hd
    have hfirst : d.frame[0]? = some 0xF4 := rfl
    rw [← hw, List.getElem?_append_left hv] at hfirst
    rw [← List.getElem?_take_of_lt (show u.length < k.val by omega), hcutbyte, hfirst]
  have hheader : headerBytes[u.length]? = some 0xF4 := by
    rw [← hbyte, Payload.frame, List.append_assoc, List.append_assoc,
      List.getElem?_append_left (by simpa [headerBytes] using hshort)]
  have honly : ∀ i : Fin 4, headerBytes[i.val]? = some 0xF4 → i.val = 0 := by decide
  exact List.eq_nil_of_length_eq_zero (honly ⟨u.length, hshort⟩ hheader)

/-- Exactly which cuts cost nothing. Every other cut loses the complete frame after it. -/
theorem resyncs_after_cut_iff (f g : ReportPayload) (k : Fin f.toPayload.frame.length) :
    ResyncsAfterCut f g k ↔ CutHarmless f g k := by
  have hcut := Phase.opens_take_frame f.toPayload k.isLt
  rw [resyncs_iff_frame]
  constructor
  · rintro ⟨u, d, hu, hsplit, hr, hvalues⟩
    by_cases hedge : k.val < 4 ∨ f.bytes.length + 6 ≤ k.val
    · exact .inl hedge
    rcases List.append_eq_append_iff.mp hsplit with ⟨v, rfl, hg⟩ | ⟨v, hf, hd⟩
    · by_cases hv : v = []
      · subst hv
        exact absurd (hcut.mp (by simpa using hu)) hedge
      · exact .inr (.inl ⟨v, d, hv, hg, Phase.skippable_of_opens _ hu, hr, hvalues⟩)
    · have hnil := frame_start_before_cut hu hf (by omega) ⟨_, hd.symm⟩
      subst hnil
      exact .inr (.inr ⟨d, by simpa using hsplit, hr, hvalues⟩)
  · rintro (hedge | ⟨u, d, -, hg, hskip, hr, hvalues⟩ | ⟨d, hsplice, hr, hvalues⟩)
    · exact ⟨_, g.toPayload, hcut.mpr hedge, rfl, g.isReport, rfl⟩
    · exact ⟨_, d, Phase.opens_of_skippable hskip, by rw [hg, List.append_assoc], hr, hvalues⟩
    · exact ⟨[], d, by trivial, by simpa using hsplice, hr, hvalues⟩

/-- Cut after two data bytes, the sample frame takes the complete one after it along. -/
theorem cut_in_data_loses_frame :
    ¬ ∀ (f g : ReportPayload) (k : Fin f.toPayload.frame.length), ResyncsAfterCut f g k := by
  intro h
  have hcut := h sampleReport sampleReport ⟨8, by decide⟩
  revert hcut
  unfold ResyncsAfterCut
  decide +kernel

end Ld2412Parser
end RoomWatchdog.Ld2412
