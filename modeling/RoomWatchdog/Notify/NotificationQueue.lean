import RoomWatchdog.Library.Buffer
import RoomWatchdog.Library.Faulting
import RoomWatchdog.Library.RingWindow

namespace RoomWatchdog

/-- The bytes from a char pointer to the end of its object, with a terminator among them. -/
structure CString where
  bytes : List UInt8
  terminated : 0 ∈ bytes

def CString.text (s : CString) : List UInt8 := s.bytes.takeWhile (· ≠ 0)

/-- An output pointer and the size given with it, which the buffer behind it really has. -/
structure Out where
  length : Nat
  pointer : Option (Vector UInt8 length)
  outSize : Nat
  fits : pointer.isSome → outSize ≤ length

/-- A whole buffer, passed with its sizeof. -/
def Out.whole {n : Nat} (buffer : Vector UInt8 n) : Out := ⟨n, some buffer, n, fun _ => Nat.le_refl n⟩

/-- Bounded FIFO of pending push messages. -/
structure NotificationQueue (capacity maxLength : Nat) where
  slots : Vector (Vector UInt8 maxLength) capacity := .replicate capacity (.replicate maxLength 0)
  head : Nat := 0
  count : Nat := 0
  dropped : UInt32 := 0

namespace NotificationQueue

/-- The loop of copy: none when it leaves the source or the destination, else the index at
which it stops. -/
def copyLoop {n : Nat} (destination : Vector UInt8 n) (destinationSize : Nat) :
    List UInt8 → Nat → Option (Vector UInt8 n × Nat)
  | [], _ => none
  | c :: source, i =>
    if c ≠ 0 ∧ i + 1 < destinationSize then
      if h : i < n then copyLoop (destination.set i c) destinationSize source (i + 1) else none
    else some (destination, i)

def copy {n : Nat} (destination : Vector UInt8 n) (destinationSize : Nat)
    (source : Option (List UInt8)) : Option (Vector UInt8 n) :=
  let stopped := match source with
    | none => some (destination, 0)
    | some source => copyLoop destination destinationSize source 0
  stopped.bind fun (destination, i) => if h : i < n then some (destination.set i 0) else none

/-- The part of a C string that fits `room` bytes. -/
def fitting (room : Nat) (source : List UInt8) : List UInt8 := (source.takeWhile (· ≠ 0)).take room

theorem fitting_cons {room : Nat} {c : UInt8} (h : c ≠ 0) (source : List UInt8) :
    fitting (room + 1) (c :: source) = c :: fitting room source := by
  rw [fitting, List.takeWhile_cons_of_pos (by simpa using h), List.take_succ_cons, fitting]

/-- A buffer after `written` has replaced its first bytes. -/
def overwritten (buffer written : List UInt8) : List UInt8 := written ++ buffer.drop written.length

/-- The loop replaces the bytes from `i` on with as much text as leaves room for the
terminator. -/
theorem copyLoop_spec {n size : Nat} (hsize : size ≤ n) {source : List UInt8} (hterm : 0 ∈ source)
    (d : Vector UInt8 n) {i : Nat} (hi : i < size) :
    ∃ d', copyLoop d size source i = some (d', i + (fitting (size - 1 - i) source).length) ∧
      d'.toList =
        d.toList.take i ++ overwritten (d.toList.drop i) (fitting (size - 1 - i) source) := by
  induction source generalizing d i with
  | nil => cases hterm
  | cons c source ih =>
    by_cases hmore : c ≠ 0 ∧ i + 1 < size
    · have hin : i < n := by omega
      have hrest : 0 ∈ source := (List.mem_cons.mp hterm).resolve_left (Ne.symm hmore.1)
      obtain ⟨d', hloop, hbytes⟩ := ih hrest (d.set i c) hmore.2
      have hroom : size - 1 - i = size - 1 - (i + 1) + 1 := by omega
      rw [hroom, fitting_cons hmore.1, copyLoop, if_pos hmore, dif_pos hin, hloop]
      refine ⟨d', ?_, ?_⟩
      · rw [List.length_cons]
        congr 2
        omega
      · rw [hbytes, Buffer.take_set d hin, Buffer.drop_set d hin]
        simp [overwritten, Nat.add_assoc, Nat.add_comm 1]
    · have hnone : fitting (size - 1 - i) (c :: source) = [] := by
        by_cases hc : c = 0
        · simp [fitting, hc]
        · have hlast : ¬ i + 1 < size := fun hlt => hmore ⟨hc, hlt⟩
          have hroom : size - 1 - i = 0 := by omega
          rw [hroom, fitting, List.take_zero]
      rw [hnone, copyLoop, if_neg hmore]
      exact ⟨d, rfl, by simp [overwritten]⟩

/-- copy writes the text, cut to the size less one, and a terminator, and nothing else. -/
theorem copy_spec {n size : Nat} (hpos : 0 < size) (hsize : size ≤ n) (d : Vector UInt8 n)
    (source : Option (List UInt8)) (hterm : ∀ bytes ∈ source, 0 ∈ bytes) :
    ∃ d', copy d size source = some d' ∧
      d'.toList = overwritten d.toList (fitting (size - 1) (source.getD []) ++ [0]) := by
  have hloop : ∃ d', (match source with
        | none => some (d, 0)
        | some source => copyLoop d size source 0) =
        some (d', (fitting (size - 1) (source.getD [])).length) ∧
      d'.toList = overwritten d.toList (fitting (size - 1) (source.getD [])) := by
    cases source with
    | none => exact ⟨d, by simp [fitting], by simp [fitting, overwritten]⟩
    | some bytes =>
      obtain ⟨d', hrun, hbytes⟩ := copyLoop_spec hsize (hterm bytes rfl) d hpos
      exact ⟨d', by simpa using hrun, by simpa using hbytes⟩
  obtain ⟨d', hrun, hbytes⟩ := hloop
  have hroom : (fitting (size - 1) (source.getD [])).length < n := by
    have := List.length_take_le (size - 1) ((source.getD []).takeWhile (· ≠ 0))
    unfold fitting
    omega
  refine ⟨d'.set _ 0 hroom, ?_, ?_⟩
  · unfold copy
    simp only [hrun, Option.bind_some]
    exact dif_pos hroom
  · rw [Buffer.toList_set_eq d' hroom, hbytes]
    simp [overwritten, List.drop_append]

variable {capacity maxLength : Nat}

-- the array fits the address space, so no index sum below 2 * capacity wraps size_t
def advance (capacity index : Nat) : Nat := (index + 1) % capacity

/-- False when an older message had to be discarded to make room. -/
def push (q : NotificationQueue capacity maxLength) (message : Option CString) :
    Option (NotificationQueue capacity maxLength × Bool) := do
  let (q, keptEverything) :=
    if q.count = capacity then
      ({ q with head := advance capacity q.head, count := q.count - 1, dropped := q.dropped + 1 },
        false)
    else (q, true)
  let i := (q.head + q.count) % capacity
  if h : i < capacity then
    let slot ← copy q.slots[i] maxLength (message.map CString.bytes)
    some ({ q with slots := q.slots.set i slot, count := q.count + 1 }, keptEverything)
  else none

/-- Copies the oldest message into out and removes it; false when empty. The buffer is handed
back as it is afterwards. -/
def pop (q : NotificationQueue capacity maxLength) (out : Out) :
    Option (NotificationQueue capacity maxLength × Bool × Option (Vector UInt8 out.length)) :=
  match out.pointer with
  | none => some (q, false, none)
  | some buffer =>
    if q.count = 0 ∨ out.outSize = 0 then some (q, false, some buffer)
    else if h : q.head < capacity then do
      let buffer ← copy buffer out.outSize (some q.slots[q.head].toList)
      some ({ q with head := advance capacity q.head, count := q.count - 1 }, true, some buffer)
    else none

theorem push_dropped {q q' : NotificationQueue capacity maxLength} {message : Option CString}
    {kept : Bool} (h : q.push message = some (q', kept)) :
    q'.dropped = if kept then q.dropped else q.dropped + 1 := by
  by_cases hfull : q.count = capacity
  · simp only [push, if_pos hfull] at h
    split_ifs at h
    obtain ⟨slot, -, hq'⟩ := Option.bind_eq_some_iff.mp h
    cases hq'
    rfl
  · simp only [push, if_neg hfull] at h
    split_ifs at h
    obtain ⟨slot, -, hq'⟩ := Option.bind_eq_some_iff.mp h
    cases hq'
    rfl

theorem pop_dropped {q q' : NotificationQueue capacity maxLength} {out : Out} {taken : Bool}
    {buffer : Option (Vector UInt8 out.length)} (h : q.pop out = some (q', taken, buffer)) :
    q'.dropped = q.dropped := by
  simp only [pop] at h
  split at h
  · cases h
    rfl
  · split_ifs at h
    · cases h
      rfl
    · obtain ⟨copied, -, hq'⟩ := Option.bind_eq_some_iff.mp h
      cases hq'
      rfl

/-- A pop from a queue that is not empty takes something, if it comes to an end. -/
theorem pop_takes {q q' : NotificationQueue capacity maxLength} {out : Out} {taken : Bool}
    {buffer : Vector UInt8 out.length} {popped : Option (Vector UInt8 out.length)}
    (hbuffer : out.pointer = some buffer) (husable : ¬ (q.count = 0 ∨ out.outSize = 0))
    (h : q.pop out = some (q', taken, popped)) : taken = true ∧ popped.isSome := by
  simp only [pop] at h
  simp only [hbuffer, if_neg husable] at h
  split_ifs at h
  obtain ⟨copied, -, hpop⟩ := Option.bind_eq_some_iff.mp h
  cases hpop
  exact ⟨rfl, rfl⟩

def size (q : NotificationQueue capacity maxLength) : Nat := q.count

def empty (q : NotificationQueue capacity maxLength) : Bool := q.count = 0

inductive Op where
  | push (message : Option CString)
  | pop (out : Out)

/-- What a call hands back, with the output buffer as it is afterwards. -/
inductive Answer where
  | pushed (keptEverything : Bool)
  | popped (taken : Bool) (buffer : Option (List UInt8))
  deriving DecidableEq

def step (q : NotificationQueue capacity maxLength) :
    Op → Option (NotificationQueue capacity maxLength × Answer)
  | .push message => (q.push message).map fun (q, kept) => (q, .pushed kept)
  | .pop out => (q.pop out).map fun (q, taken, buffer) =>
    (q, .popped taken (buffer.map Vector.toList))

end NotificationQueue

end RoomWatchdog
