import RoomWatchdog.Ld2412.History

namespace RoomWatchdog.Ld2412

/-- A list that a pattern does not start agrees with it up to some position. -/
theorem prefix_or_breaks {α : Type*} (p l : List α) :
    p <+: l ∨ ∃ j < p.length, ∃ rest, l = p.take j ++ rest ∧ rest.head? ≠ p[j]? := by
  induction p generalizing l with
  | nil => exact .inl List.nil_prefix
  | cons a p ih =>
    by_cases h : l.head? = some a
    · obtain ⟨l', rfl⟩ : ∃ l', l = a :: l' := by
        cases l with
        | nil => simp at h
        | cons b l' => exact ⟨l', by simpa using h⟩
      rcases ih l' with hp | ⟨j, hj, rest, rfl, hne⟩
      · exact .inl (List.cons_prefix_cons.mpr ⟨rfl, hp⟩)
      · exact .inr ⟨j + 1, by simpa using hj, rest, by simp, by simpa using hne⟩
    · exact .inr ⟨0, by simp, l, by simp, by simpa using h⟩

/-- Byte strings after which the next header is taken as a header, by what they are made
of: noise without a header, headers with an impossible length, complete frames, and frames
whose footer breaks off. -/
inductive Skippable : List UInt8 → Prop
  | noise {g : List UInt8} : ¬ headerBytes <:+: g → Skippable g
  | badLength {g rest : List UInt8} {lo hi : UInt8} : ¬ headerBytes <:+: g →
      ¬ (9 ≤ leValue lo hi ∧ leValue lo hi ≤ 64) → Skippable rest →
      Skippable (g ++ headerBytes ++ [lo, hi] ++ rest)
  | frame {g rest : List UInt8} (d : Payload) : ¬ headerBytes <:+: g → Skippable rest →
      Skippable (g ++ d.frame ++ rest)
  | brokenFooter {g rest : List UInt8} (d : Payload) (j : Fin 4) : ¬ headerBytes <:+: g →
      rest.head? ≠ some (footerByte j) → Skippable rest →
      Skippable (g ++ headerBytes ++ (lengthBytes d.bytes.length ++ d.bytes) ++
        footerBytes.take j ++ rest)

namespace Phase

/-- A footer that breaks off leaves the next byte to the hunt. -/
theorem run_close_break (d : Payload) (j : Fin 4) (rest : List UInt8)
    (h : rest.head? ≠ some (footerByte j)) :
    (Mealy.run step (.close d j) rest).Receptive ↔ Opens rest := by
  cases rest with
  | nil => exact ⟨fun _ => trivial, fun _ => trivial⟩
  | cons b rest =>
    have hb : b ≠ footerByte j := by simpa using h
    have hstep : (step (.close d j) b).1 = (step (.hunt 0) b).1 := by
      simp [step, hb]
    rw [Opens, Mealy.run_cons, Mealy.run_cons, hstep]

/-- Noise and a header lead a fresh deframer to the length field. -/
theorem run_noise_header {g : List UInt8} (hg : ¬ headerBytes <:+: g) :
    Mealy.run step (.hunt 0) (g ++ headerBytes) = .lengthLow := by
  obtain ⟨pos, hnoise⟩ := feed_noise 0 g (by simpa using hg)
  exact (hnoise.append (feed_header (hunt_receptive pos))).1

theorem run_noise_frame {g : List UInt8} (hg : ¬ headerBytes <:+: g) (d : Payload) :
    Mealy.run step (.hunt 0) (g ++ d.frame) = .hunt 0 := by
  obtain ⟨pos, hnoise⟩ := feed_noise 0 g (by simpa using hg)
  exact (hnoise.append (feed_frame (hunt_receptive pos) d)).1

theorem run_lengthBytes (lo hi : UInt8) :
    Mealy.run step .lengthLow [lo, hi] = announce (leValue lo hi) := rfl

theorem run_noise_footer {g : List UInt8} (hg : ¬ headerBytes <:+: g) (d : Payload) (j : Fin 4) :
    Mealy.run step (.hunt 0) (g ++ headerBytes ++ (lengthBytes d.bytes.length ++ d.bytes) ++
      footerBytes.take j) = .close d j := by
  have hfoot : Mealy.run step (.close d 0) (footerBytes.take j) = .close d j := by
    match j with
    | 0 => rfl
    | 1 => rfl
    | 2 => rfl
    | 3 => rfl
  rw [Mealy.run_append, Mealy.run_append, run_noise_header hg, (feed_body d).1, hfoot]

theorem opens_append {u v : List UInt8} {ph : Phase} (h : Mealy.run step (.hunt 0) u = ph) :
    Opens (u ++ v) ↔ (Mealy.run step ph v).Receptive := by
  rw [Opens, Mealy.run_append, h]

theorem opens_of_skippable {u : List UInt8} (h : Skippable u) : Opens u := by
  induction h with
  | noise hg =>
    obtain ⟨pos, hnoise⟩ := feed_noise 0 _ (by simpa using hg)
    rw [Opens, hnoise.1]
    trivial
  | badLength hg hlen _ ih =>
    rw [List.append_assoc, opens_append (run_noise_header hg), Mealy.run_append,
      run_lengthBytes, announce, dif_neg hlen]
    exact ih
  | frame d hg _ ih => exact (opens_append (run_noise_frame hg d)).mpr ih
  | brokenFooter d j hg hne _ ih =>
    exact (opens_append (run_noise_footer hg d j)).mpr ((run_close_break d j _ hne).mpr ih)

/-- What follows a complete payload is either the footer or where the footer breaks off. -/
theorem skippable_after_payload {g t : List UInt8} (hg : ¬ headerBytes <:+: g) (d : Payload)
    (ih : ∀ rest : List UInt8, rest.length ≤ t.length → Opens rest → Skippable rest)
    (h : (Mealy.run step (.close d 0) t).Receptive) :
    Skippable (g ++ headerBytes ++ (lengthBytes d.bytes.length ++ d.bytes) ++ t) := by
  rcases prefix_or_breaks footerBytes t with ⟨rest, rfl⟩ | ⟨j, hj, rest, rfl, hne⟩
  · have hrest : Opens rest := by
      rw [Mealy.run_append, (feed_footer d).1] at h
      exact h
    have hframe := Skippable.frame d hg (ih rest (by simp) hrest)
    simpa [Payload.frame] using hframe
  · have hbyte : footerBytes[j]? = some (footerByte j) := by
      have : ∀ i : Fin 4, footerBytes[i.val]? = some (footerByte i) := by decide
      exact this ⟨j, hj⟩
    rw [hbyte] at hne
    have hfoot := run_noise_footer hg d ⟨j, hj⟩
    rw [Mealy.run_append, Mealy.run_append, run_noise_header hg, (feed_body d).1] at hfoot
    rw [Mealy.run_append, hfoot] at h
    have hrest := (run_close_break d ⟨j, hj⟩ rest hne).mp h
    have hbroken := Skippable.brokenFooter d ⟨j, hj⟩ hg hne (ih rest (by simp) hrest)
    simpa using hbroken

theorem skippable_of_opens (u : List UInt8) (h : Opens u) : Skippable u := by
  induction hn : u.length using Nat.strong_induction_on generalizing u with
  | _ n ih =>
    by_cases hheader : headerBytes <:+: u
    · obtain ⟨g, t, rfl, hg⟩ := PrefixMatcher.exists_first_infix (by decide) hheader
      rw [opens_append (run_noise_header hg)] at h
      match t with
      | [] => exact h.elim
      | [_] => exact h.elim
      | lo :: hi :: t =>
        rw [show lo :: hi :: t = [lo, hi] ++ t from rfl, Mealy.run_append, run_lengthBytes,
          announce] at h
        split_ifs at h with hlen
        · have hlong : leValue lo hi ≤ t.length := by
            by_contra hshort
            rw [(feed_fill _ t (by simp; omega)).1] at h
            exact h
          let d : Payload := ⟨t.take (leValue lo hi), by simp; omega, by simp; omega⟩
          have hd : d.bytes.length = leValue lo hi := by simp [d, hlong]
          have hfill := (feed_fill_all ⟨leValue lo hi, [], hlen.1, hlen.2,
            Nat.lt_of_lt_of_le (by decide) hlen.1⟩ d.bytes (by simp [hd])).1
          rw [← List.take_append_drop (leValue lo hi) t, Mealy.run_append] at h
          have hskip := skippable_after_payload hg d (t := t.drop (leValue lo hi))
            (fun rest hle hopen => ih rest.length (by
              simp only [List.length_drop] at hle
              simp only [List.length_append, List.length_cons] at hn
              omega) rest hopen rfl) (by
              rw [show t.take (leValue lo hi) = d.bytes from rfl, hfill] at h
              exact h)
          rw [hd, lengthBytes_leValue] at hskip
          simpa [d] using hskip
        · have hskip := Skippable.badLength hg hlen (ih t.length (by
            simp only [List.length_append, List.length_cons] at hn
            omega) t h rfl)
          simpa using hskip
    · exact .noise hheader

theorem opens_iff_skippable (u : List UInt8) : Opens u ↔ Skippable u :=
  ⟨skippable_of_opens u, opens_of_skippable⟩

end Phase
end RoomWatchdog.Ld2412
