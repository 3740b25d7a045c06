import Mathlib.Data.List.TakeWhile
import RoomWatchdog.Notify.NotificationQueue

namespace RoomWatchdog

/-- What the queue is for: the pending texts, oldest first, and how many were discarded. -/
structure DropOldest where
  contents : List (List UInt8) := []
  dropped : UInt32 := 0

namespace DropOldest

def push (capacity maxLength : Nat) (f : DropOldest) (message : Option CString) :
    DropOldest × Bool :=
  let text := ((message.map CString.text).getD []).take (maxLength - 1)
  if f.contents.length = capacity then
    ({ contents := f.contents.tail ++ [text], dropped := f.dropped + 1 }, false)
  else ({ f with contents := f.contents ++ [text] }, true)

def pop (f : DropOldest) (out : Out) : DropOldest × Bool × Option (List UInt8) :=
  match f.contents, out.pointer with
  | text :: rest, some buffer =>
    if out.outSize = 0 then (f, false, some buffer.toList)
    else ({ f with contents := rest }, true,
      some (NotificationQueue.overwritten buffer.toList (text.take (out.outSize - 1) ++ [0])))
  | _, buffer => (f, false, buffer.map Vector.toList)

open NotificationQueue in
def step (capacity maxLength : Nat) (f : DropOldest) : Op → DropOldest × Answer
  | .push message =>
    let (f, kept) := f.push capacity maxLength message
    (f, .pushed kept)
  | .pop out =>
    let (f, taken, buffer) := f.pop out
    (f, .popped taken buffer)

end DropOldest

namespace NotificationQueue
open RingWindow

def cString {n : Nat} (slot : Vector UInt8 n) : List UInt8 := slot.toList.takeWhile (· ≠ 0)

variable {capacity maxLength : Nat} [NeZero capacity]

/-- The slots in use, oldest first. -/
def live (q : NotificationQueue capacity maxLength) : List (Vector UInt8 maxLength) :=
  window q.slots q.head q.count

/-- The ring holds the list, with every live slot terminated. -/
structure Refines (q : NotificationQueue capacity maxLength) (f : DropOldest) : Prop where
  head_lt : q.head < capacity
  count_le : q.count ≤ capacity
  contents : q.live.map cString = f.contents
  terminated : ∀ slot ∈ q.live, 0 ∈ slot.toList
  dropped : q.dropped = f.dropped

variable {q : NotificationQueue capacity maxLength} {f : DropOldest}

theorem refines_empty : Refines ({} : NotificationQueue capacity maxLength) {} where
  head_lt := Nat.pos_of_neZero capacity
  count_le := Nat.zero_le _
  contents := rfl
  terminated := by simp [live]
  dropped := rfl

theorem Refines.count (h : Refines q f) : q.count = f.contents.length := by
  rw [← h.contents, List.length_map, live, window_length]

/-- Taking the oldest slot out of use. -/
theorem Refines.advance (h : Refines q f) {count : Nat} (hcount : q.count = count + 1)
    (dropped : UInt32) :
    f.contents = cString (cell q.slots q.head) :: f.contents.tail ∧
    Refines { q with head := advance capacity q.head, count := count, dropped := dropped }
      { contents := f.contents.tail, dropped := dropped } := by
  have hlive : q.live = cell q.slots q.head ::
      window q.slots (NotificationQueue.advance capacity q.head) count := by
    rw [live, hcount, window_pop]
    rfl
  have hcontents := h.contents
  rw [hlive, List.map_cons] at hcontents
  refine ⟨by rw [← hcontents]; rfl, Nat.mod_lt _ (Nat.pos_of_neZero capacity), ?_, ?_, ?_, rfl⟩
  · have := h.count_le
    show count ≤ capacity
    omega
  · show (window q.slots (NotificationQueue.advance capacity q.head) count).map cString = _
    rw [← hcontents]
    rfl
  · intro slot hslot
    apply h.terminated
    rw [hlive]
    exact List.mem_cons_of_mem _ hslot

theorem cString_overwritten {n : Nat} {slot : Vector UInt8 n} {old text : List UInt8}
    (h : slot.toList = overwritten old (text ++ [0])) (htext : ∀ b ∈ text, b ≠ 0) :
    cString slot = text ∧ 0 ∈ slot.toList := by
  rw [cString, h, overwritten, List.append_assoc]
  constructor
  · rw [List.takeWhile_append_of_pos (by simpa using htext)]
    simp
  · simp

theorem fitting_ne_zero {room : Nat} {source : List UInt8} : ∀ b ∈ fitting room source, b ≠ 0 := by
  intro b hb
  simpa using List.mem_takeWhile_imp (List.mem_of_mem_take hb)

theorem fitting_text (room : Nat) (message : Option CString) :
    fitting room ((message.map CString.bytes).getD []) =
      ((message.map CString.text).getD []).take room := by
  cases message <;> rfl

/-- Writing the slot after the live ones puts a text at the end of the list. -/
theorem Refines.write (h : Refines q f) (hroom : q.count < capacity) {slot : Vector UInt8 maxLength}
    {text : List UInt8} (hslot : cString slot = text ∧ 0 ∈ slot.toList)
    (hi : (q.head + q.count) % capacity < capacity) :
    Refines { q with slots := q.slots.set ((q.head + q.count) % capacity) slot,
                     count := q.count + 1 }
      { f with contents := f.contents ++ [text] } := by
  have hlive : window (q.slots.set ((q.head + q.count) % capacity) slot) q.head (q.count + 1) =
      q.live ++ [slot] := window_push q.slots q.head hroom slot hi rfl
  refine ⟨h.head_lt, hroom, ?_, ?_, h.dropped⟩
  · rw [live, hlive, List.map_append, h.contents, List.map_singleton, hslot.1]
  · intro slot' hmem
    rw [live, hlive] at hmem
    rcases List.mem_append.mp hmem with hold | hnew
    · exact h.terminated slot' hold
    · rw [List.mem_singleton.mp hnew]
      exact hslot.2

/-- The second half of push, once there is room. -/
theorem push_write (hlength : 1 < maxLength) (h : Refines q f) (hroom : q.count < capacity)
    (message : Option CString) :
    ∃ (hi : (q.head + q.count) % capacity < capacity) (slot : Vector UInt8 maxLength),
      copy q.slots[(q.head + q.count) % capacity] maxLength (message.map CString.bytes) = some slot ∧
      Refines { q with slots := q.slots.set ((q.head + q.count) % capacity) slot,
                       count := q.count + 1 }
        { f with contents :=
            f.contents ++ [((message.map CString.text).getD []).take (maxLength - 1)] } := by
  have hi : (q.head + q.count) % capacity < capacity := Nat.mod_lt _ (Nat.pos_of_neZero capacity)
  have hterm : ∀ bytes ∈ message.map CString.bytes, 0 ∈ bytes := by
    cases message with
    | none => simp
    | some m =>
      intro bytes hbytes
      cases hbytes
      exact m.terminated
  obtain ⟨slot, hcopy, hslot⟩ := copy_spec (Nat.lt_of_succ_lt hlength) (Nat.le_refl _)
    q.slots[(q.head + q.count) % capacity] _ hterm
  refine ⟨hi, slot, hcopy, h.write hroom ?_ hi⟩
  rw [← fitting_text]
  exact cString_overwritten hslot fitting_ne_zero

theorem push_refines (hlength : 1 < maxLength) (h : Refines q f) (message : Option CString) :
    ∃ q', q.push message = some (q', (f.push capacity maxLength message).2) ∧
      Refines q' (f.push capacity maxLength message).1 := by
  by_cases hfull : q.count = capacity
  · -- the head slot is given up first, and is the one written
    obtain ⟨count, hcount⟩ := Nat.exists_eq_succ_of_ne_zero (hfull ▸ NeZero.ne capacity)
    obtain ⟨-, hadvanced⟩ := h.advance hcount (q.dropped + 1)
    have hroom : count < capacity := by omega
    obtain ⟨hi, slot, hcopy, hwritten⟩ := push_write hlength hadvanced hroom message
    have hless : q.count - 1 = count := by omega
    have hlist : f.contents.length = capacity := h.count.symm.trans hfull
    rw [DropOldest.push, if_pos hlist, ← h.dropped]
    refine ⟨_, ?_, hwritten⟩
    simp only [push, if_pos hfull, hless, dif_pos hi, hcopy]
    rfl
  · have hroom : q.count < capacity := Nat.lt_of_le_of_ne h.count_le hfull
    obtain ⟨hi, slot, hcopy, hwritten⟩ := push_write hlength h hroom message
    have hlist : ¬ f.contents.length = capacity := fun heq => hfull (h.count.trans heq)
    rw [DropOldest.push, if_neg hlist]
    refine ⟨_, ?_, hwritten⟩
    simp only [push, if_neg hfull, dif_pos hi, hcopy]
    rfl

omit [NeZero capacity] in
/-- A pop that takes nothing leaves the queue and the buffer alone. -/
theorem pop_unusable {out : Out} (h : q.count = 0 ∨ out.pointer = none ∨ out.outSize = 0) :
    q.pop out = some (q, false, out.pointer) := by
  simp only [NotificationQueue.pop]
  cases hout : out.pointer with
  | none => rfl
  | some buffer =>
    have hunusable : q.count = 0 ∨ out.outSize = 0 := by simpa [hout] using h
    exact if_pos hunusable

/-- A pop that takes something copies out the first text of the list. -/
theorem pop_usable (h : Refines q f) {out : Out} {buffer : Vector UInt8 out.length}
    (hout : out.pointer = some buffer) (hcount : q.count ≠ 0) (hsize : out.outSize ≠ 0) :
    ∃ q' buffer' text rest, f.contents = text :: rest ∧
      q.pop out = some (q', true, some buffer') ∧
      buffer'.toList = overwritten buffer.toList (text.take (out.outSize - 1) ++ [0]) ∧
      (∀ b ∈ text.take (out.outSize - 1), b ≠ 0) ∧
      Refines q' { f with contents := rest } := by
  have hhead := h.head_lt
  obtain ⟨count, hsucc⟩ := Nat.exists_eq_succ_of_ne_zero hcount
  obtain ⟨hcontents, hadvanced⟩ := h.advance hsucc q.dropped
  have hterm : 0 ∈ q.slots[q.head].toList := by
    apply h.terminated
    rw [live, hsucc, window_pop, cell_eq_getElem _ hhead]
    exact List.mem_cons_self
  have hbytes : ∀ bytes ∈ some q.slots[q.head].toList, 0 ∈ bytes := by
    intro bytes hbytes
    cases hbytes
    exact hterm
  have hfits : out.outSize ≤ out.length := out.fits (by rw [hout]; rfl)
  obtain ⟨buffer', hcopy, hbuffer⟩ := copy_spec (Nat.pos_of_ne_zero hsize) hfits buffer _ hbytes
  have hless : q.count - 1 = count := by omega
  have htext : fitting (out.outSize - 1) q.slots[q.head].toList =
      (cString (cell q.slots q.head)).take (out.outSize - 1) := by
    rw [cell_eq_getElem _ hhead]
    rfl
  refine ⟨_, buffer', _, _, hcontents, ?_, ?_, ?_, h.dropped ▸ hadvanced⟩
  · have husable : ¬ (q.count = 0 ∨ out.outSize = 0) := not_or.mpr ⟨hcount, hsize⟩
    simp only [NotificationQueue.pop]
    simp only [hout, if_neg husable, dif_pos hhead, hcopy, hless, h.dropped]
    rfl
  · rw [← htext]
    exact hbuffer
  · rw [← htext]
    exact fitting_ne_zero

theorem pop_refines (h : Refines q f) (out : Out) :
    ∃ q' buffer, q.pop out = some (q', (f.pop out).2.1, buffer) ∧
      buffer.map Vector.toList = (f.pop out).2.2 ∧ Refines q' (f.pop out).1 := by
  by_cases hunusable : q.count = 0 ∨ out.pointer = none ∨ out.outSize = 0
  · have hspec : f.pop out = (f, false, out.pointer.map Vector.toList) := by
      rw [h.count, List.length_eq_zero_iff] at hunusable
      simp only [DropOldest.pop]
      split
      next text rest buffer hcontents hout =>
        rcases hunusable with hnil | hnone | hsize
        · rw [hcontents] at hnil
          cases hnil
        · rw [hout] at hnone
          cases hnone
        · rw [if_pos hsize, hout]
          rfl
      · rfl
    rw [hspec]
    exact ⟨q, _, pop_unusable hunusable, rfl, h⟩
  · obtain ⟨hcount, hnull, hsize⟩ := by simpa only [not_or] using hunusable
    obtain ⟨buffer, hout⟩ := Option.ne_none_iff_exists'.mp hnull
    obtain ⟨q', buffer', text, rest, hcontents, hpop, hbytes, -, hq'⟩ := pop_usable h hout hcount hsize
    have hspec : f.pop out = ({ f with contents := rest }, true,
        some (overwritten buffer.toList (text.take (out.outSize - 1) ++ [0]))) := by
      simp only [DropOldest.pop, hcontents, hout, if_neg hsize]
    rw [hspec, ← hbytes]
    exact ⟨q', some buffer', hpop, rfl, hq'⟩

theorem implements_dropOldest (hlength : 1 < maxLength) :
    Faulting.Implements Refines (@step capacity maxLength) (DropOldest.step capacity maxLength) := by
  intro q f op h
  cases op with
  | push message =>
    obtain ⟨q', hpush, hq'⟩ := push_refines hlength h message
    exact ⟨q', by rw [step, hpush]; rfl, hq'⟩
  | pop out =>
    obtain ⟨q', buffer, hpop, hbuffer, hq'⟩ := pop_refines h out
    refine ⟨q', ?_, hq'⟩
    simp only [step, hpop, Option.map_some, hbuffer]
    rfl

/-- Every sequence of calls stays inside its buffers and answers as the list does; the
size, the loss counter and the terminated live slots are the list's throughout. -/
theorem behaves_as_dropOldest (hlength : 1 < maxLength) (ops : List Op) :
    ∃ q : NotificationQueue capacity maxLength,
      Faulting.exec step {} ops = some (q, Mealy.outputs (DropOldest.step capacity maxLength) {} ops) ∧
      let f := Mealy.run (DropOldest.step capacity maxLength) {} ops
      q.size = f.contents.length ∧ q.empty = f.contents.isEmpty ∧ q.dropped = f.dropped ∧
      q.live.map cString = f.contents ∧ ∀ slot ∈ q.live, 0 ∈ slot.toList := by
  have himplements := @implements_dropOldest capacity maxLength _ hlength
  obtain ⟨q, hexec, hrefines⟩ := himplements.exec refines_empty ops
  refine ⟨q, hexec, hrefines.count, ?_, hrefines.dropped, hrefines.contents, hrefines.terminated⟩
  rw [empty, hrefines.count]
  cases (Mealy.run (DropOldest.step capacity maxLength) {} ops).contents <;> rfl

/-- Three messages for two slots of three bytes, then a pop into a smaller buffer. -/
def threeForTwo : List Op :=
  [.push (some ⟨[65, 66, 67, 68, 0], by decide⟩), .push (some ⟨[69, 70, 71, 0], by decide⟩),
    .push none, .pop ⟨3, some #v[1, 2, 3], 3, fun _ => Nat.le_refl 3⟩]

theorem oldest_gives_way : ∃ q : NotificationQueue 2 4,
    Faulting.exec step {} threeForTwo = some (q,
      [.pushed true, .pushed true, .pushed false, .popped true (some [69, 70, 0])]) ∧
    q.size = 1 ∧ q.dropped = 1 ∧ q.live.map cString = [[]] := by
  obtain ⟨q, hexec, hsize, -, hdropped, hlive, -⟩ :=
    @behaves_as_dropOldest 2 4 _ (by decide) threeForTwo
  exact ⟨q, hexec, hsize, hdropped, hlive⟩

end NotificationQueue

end RoomWatchdog
