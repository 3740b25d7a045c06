import RoomWatchdog.Library.Mealy
import RoomWatchdog.Library.PrefixMatcher
import RoomWatchdog.Ld2412.Frame

namespace RoomWatchdog.Ld2412

/-- A payload being collected: some of the announced bytes are still missing. -/
structure Filling where
  len : Nat
  got : List UInt8
  min_le : 9 ≤ len
  le_max : len ≤ 64
  got_lt : got.length < len
  deriving DecidableEq

/-- What a deframer has to remember of the bytes read so far. No counter can leave its
range and no payload can be too short, too long or filled from an earlier frame. -/
inductive Phase where
  | hunt (pos : Fin 4)
  | lengthLow
  | lengthHigh (lo : UInt8)
  | fill (f : Filling)
  | close (d : Payload) (pos : Fin 4)
  deriving DecidableEq

namespace Phase

def huntFrom (pos : Nat) (byte : UInt8) : Phase :=
  if h : PrefixMatcher.step headerBytes pos byte < 4 then
    .hunt ⟨PrefixMatcher.step headerBytes pos byte, h⟩
  else
    .lengthLow

theorem huntFrom_of_lt {pos n : Nat} {byte : UInt8}
    (h : PrefixMatcher.step headerBytes pos byte = n) (hn : n < 4) :
    huntFrom pos byte = .hunt ⟨n, hn⟩ := by
  subst h
  exact dif_pos hn

theorem huntFrom_of_complete {pos : Nat} {byte : UInt8}
    (h : PrefixMatcher.step headerBytes pos byte = 4) : huntFrom pos byte = .lengthLow :=
  dif_neg (by omega)

def announce (len : Nat) : Phase :=
  if h : 9 ≤ len ∧ len ≤ 64 then
    .fill ⟨len, [], h.1, h.2, Nat.lt_of_lt_of_le (by decide) h.1⟩
  else
    .hunt 0

end Phase

def Filling.push (f : Filling) (byte : UInt8) : Phase :=
  if h : f.got.length + 1 < f.len then
    .fill { f with got := f.got ++ [byte], got_lt := by simpa using h }
  else
    have hlen : (f.got ++ [byte]).length = f.len := by
      have := f.got_lt
      simp only [List.length_append, List.length_singleton]
      omega
    .close ⟨f.got ++ [byte], hlen ▸ f.min_le, hlen ▸ f.le_max⟩ 0

namespace Phase

/-- One byte; a report when it completes a frame that carries one. -/
def step (ph : Phase) (byte : UInt8) : Phase × Option Report :=
  match ph with
  | .hunt pos => (huntFrom pos byte, none)
  | .lengthLow => (.lengthHigh byte, none)
  | .lengthHigh lo => (announce (leValue lo byte), none)
  | .fill f => (f.push byte, none)
  | .close d pos =>
    if byte = footerByte pos then
      if h : pos.val + 1 < 4 then (.close d ⟨pos.val + 1, h⟩, none) else (.hunt 0, d.decode)
    else
      (huntFrom 0 byte, none)

/-- A header that comes next will be taken as a header. -/
def Receptive : Phase → Prop
  | .hunt _ => True
  | .close _ _ => True
  | _ => False

instance : DecidablePred Receptive := fun ph => by
  cases ph <;> unfold Receptive <;> infer_instance

/-- After the bytes `u` a fresh deframer would take a header as a header. -/
def Opens (u : List UInt8) : Prop := (Mealy.run step (.hunt 0) u).Receptive

theorem hunt_receptive (pos : Fin 4) : (hunt pos).Receptive := trivial

/-! The four parts of a frame, each from the phase the part before it leaves. -/

theorem footerByte_ne_header (pos : Fin 4) : (0xF4 : UInt8) ≠ footerByte pos := by
  revert pos
  decide

theorem huntFrom_first (pos : Nat) : huntFrom pos 0xF4 = .hunt 1 :=
  huntFrom_of_lt (PrefixMatcher.step_first (by decide) pos) (by decide)

theorem step_header_first {ph : Phase} (h : ph.Receptive) : step ph 0xF4 = (.hunt 1, none) := by
  cases ph with
  | hunt pos => simp [step, huntFrom_first]
  | close d pos => simp [step, footerByte_ne_header pos, huntFrom_first]
  | lengthLow => exact h.elim
  | lengthHigh lo => exact h.elim
  | fill f => exact h.elim

theorem feed_header {ph : Phase} (h : ph.Receptive) :
    Mealy.Runs step ph headerBytes .lengthLow (List.replicate 4 none) :=
  .cons (step_header_first h) ⟨by decide, by decide⟩

theorem feed_lengthBytes (n : Nat) (hmin : 9 ≤ n) (hmax : n ≤ 64) :
    Mealy.Runs step .lengthLow (lengthBytes n)
      (.fill ⟨n, [], hmin, hmax, Nat.lt_of_lt_of_le (by decide) hmin⟩) (List.replicate 2 none) := by
  have h := leValue_lengthBytes n (by omega)
  refine .cons rfl (.single ?_)
  simp [step, announce, h, hmin, hmax]

/-- Fewer bytes than are missing leave the payload open. -/
theorem feed_fill (f : Filling) (bs : List UInt8) (h : f.got.length + bs.length < f.len) :
    Mealy.Runs step (.fill f) bs
      (.fill { f with got := f.got ++ bs, got_lt := by simpa using h })
      (List.replicate bs.length none) := by
  induction bs generalizing f with
  | nil => simpa using Mealy.Runs.refl (Phase.fill f)
  | cons b bs ih =>
    simp only [List.length_cons] at h
    have hb : f.got.length + 1 < f.len := by omega
    let f' : Filling := { f with got := f.got ++ [b], got_lt := by simpa using hb }
    have hstep : step (.fill f) b = (.fill f', none) := by simp [step, Filling.push, hb, f']
    have hrest := ih f' (by simp [f']; omega)
    simpa [f', List.replicate_succ] using Mealy.Runs.cons hstep hrest

/-- The missing bytes complete the payload. -/
theorem feed_fill_all (f : Filling) (bs : List UInt8) (h : f.got.length + bs.length = f.len) :
    Mealy.Runs step (.fill f) bs
      (.close ⟨f.got ++ bs, by simp [h, f.min_le], by simp [h, f.le_max]⟩ 0)
      (List.replicate bs.length none) := by
  have hne : bs ≠ [] := by
    intro hb
    have := f.got_lt
    simp only [hb, List.length_nil] at h
    omega
  obtain ⟨init, last, hbs⟩ : ∃ init last, bs = init ++ [last] :=
    (List.eq_nil_or_concat' bs).resolve_left hne
  subst hbs
  simp only [List.length_append, List.length_singleton] at h
  have hlast : ¬ f.got.length + init.length + 1 < f.len := by omega
  let d : Payload := ⟨f.got ++ init ++ [last], by have := f.min_le; simp; omega,
    by have := f.le_max; simp; omega⟩
  have hinit := feed_fill f init (by omega)
  have hstep : step (.fill ⟨f.len, f.got ++ init, f.min_le, f.le_max, by simp; omega⟩) last =
      (.close d 0, none) := by
    simp [step, Filling.push, hlast, d]
  simpa [d, List.replicate_succ'] using hinit.append (.single hstep)

theorem feed_footer (d : Payload) :
    Mealy.Runs step (.close d 0) footerBytes (.hunt 0) (List.replicate 3 none ++ [d.decode]) :=
  ⟨rfl, rfl⟩

/-- A payload's length field and bytes, read after a header. -/
theorem feed_body (d : Payload) :
    Mealy.Runs step .lengthLow (lengthBytes d.bytes.length ++ d.bytes) (.close d 0)
      (List.replicate 2 none ++ List.replicate d.bytes.length none) :=
  (feed_lengthBytes _ d.min_le d.le_max).append (feed_fill_all _ d.bytes (by simp))

/-- The answers to a frame: silence, then what the frame reports. -/
def answers (d : Payload) : List (Option Report) :=
  List.replicate (d.frame.length - 1) none ++ [d.decode]

/-- A frame met in a receptive phase is decoded at its last byte and nowhere else. -/
theorem feed_frame {ph : Phase} (h : ph.Receptive) (d : Payload) :
    Mealy.Runs step ph d.frame (.hunt 0) (answers d) := by
  have hrun := ((feed_header h).append (feed_body d)).append (feed_footer d)
  have hsplit : headerBytes ++ (lengthBytes d.bytes.length ++ d.bytes) ++ footerBytes = d.frame := by
    simp [Payload.frame]
  have hcount : d.frame.length - 1 = 4 + (2 + d.bytes.length) + 3 := by
    rw [Payload.frame_length]
    omega
  rw [hsplit] at hrun
  simpa only [answers, hcount, List.replicate_add, List.append_assoc] using hrun

end Phase

end RoomWatchdog.Ld2412
