import Mathlib.Data.List.TakeDrop
import Mathlib.Data.List.TakeWhile

namespace RoomWatchdog.Audio

/-- What one turn of the outer loop of streamAudioPcm meets: the answers of client.connected()
and of the WiFi test, the samples that micReadPcm returns, and for the turns of the inner loop
the answer of client.connected() and how much client.write would take. -/
structure Turn where
  connected : Bool
  wifi : Bool
  samples : List Int16
  writes : Nat → Bool × Nat

/-- What the task does. A write is known by the bytes that the socket took. -/
inductive Call where
  | micReadPcm (samples : List Int16)
  | write (accepted : List UInt8)
  | micDroppedSamples
  | micStopPcmStream
  | stop
  deriving DecidableEq

/-- A sample as it lies in memory. -/
def sampleBytes (sample : Int16) : List UInt8 :=
  [sample.toUInt16.toUInt8, (sample.toUInt16 >>> 8).toUInt8]

def chunkBytes (samples : List Int16) : List UInt8 := samples.flatMap sampleBytes

/-- The inner loop from turn `k` on: the writes, and `sent` as it is in the end. -/
def writeLoop (bytes : List UInt8) (writes : Nat → Bool × Nat) (k sent : Nat) : List Call × Nat :=
  if sent < bytes.length ∧ (writes k).1 then
    let written := min (writes k).2 (bytes.length - sent)
    if written = 0 then ([.write []], sent)
    else
      let (calls, sent') := writeLoop bytes writes (k + 1) (sent + written)
      (.write ((bytes.drop sent).take written) :: calls, sent')
  else ([], sent)
termination_by bytes.length - sent

/-- The outer loop for as many turns as are given, and whether it was left by then. -/
def streamLoop : List Turn → List Call × Bool
  | [] => ([], false)
  | t :: turns =>
    if t.connected && t.wifi then
      let bytes := chunkBytes t.samples
      let (calls, sent) := writeLoop bytes t.writes 0 0
      if sent < bytes.length then (.micReadPcm t.samples :: calls, true)
      else
        let (later, left) := streamLoop turns
        (.micReadPcm t.samples :: calls ++ later, left)
    else ([], true)

/-- From behind the header on. -/
def streamAudioPcm (turns : List Turn) : List Call :=
  let (calls, left) := streamLoop turns
  if left then calls ++ [.micDroppedSamples, .micStopPcmStream, .stop] else calls

namespace Call

def accepted : Call → List UInt8
  | write accepted => accepted
  | _ => []

def chunk : Call → Option (List Int16)
  | micReadPcm samples => some samples
  | _ => none

end Call

/-- The bytes that the socket has taken. -/
def accepted (calls : List Call) : List UInt8 := calls.flatMap Call.accepted

/-- The bytes of the chunks read. -/
def produced (calls : List Call) : List UInt8 := (calls.filterMap Call.chunk).flatMap chunkBytes

@[simp] theorem accepted_nil : accepted [] = [] := rfl

@[simp] theorem accepted_cons (call : Call) (calls : List Call) :
    accepted (call :: calls) = call.accepted ++ accepted calls := List.flatMap_cons

@[simp] theorem accepted_append (calls later : List Call) :
    accepted (calls ++ later) = accepted calls ++ accepted later := List.flatMap_append

@[simp] theorem produced_append (calls later : List Call) :
    produced (calls ++ later) = produced calls ++ produced later := by
  simp only [produced, List.filterMap_append, List.flatMap_append]

@[simp] theorem produced_read (samples : List Int16) (calls : List Call) :
    produced (.micReadPcm samples :: calls) = chunkBytes samples ++ produced calls := rfl

/-- Calls of the inner loop. -/
def Writes (calls : List Call) : Prop := ∀ call ∈ calls, ∃ taken, call = .write taken

theorem Writes.chunks {calls : List Call} (h : Writes calls) : calls.filterMap Call.chunk = [] := by
  apply List.filterMap_eq_nil_iff.mpr
  intro call hcall
  obtain ⟨taken, rfl⟩ := h call hcall
  rfl

theorem Writes.produced {calls : List Call} (h : Writes calls) : produced calls = [] := by
  rw [Audio.produced, h.chunks]
  rfl

theorem Writes.not_stop {calls : List Call} (h : Writes calls) : Call.micStopPcmStream ∉ calls := by
  intro hmem
  obtain ⟨taken, htaken⟩ := h _ hmem
  cases htaken

/-- A read that follows writes comes after all of them. -/
theorem Writes.split {writes before later after : List Call} {samples : List Int16}
    (h : Writes writes) (hsplit : writes ++ later = before ++ .micReadPcm samples :: after) :
    ∃ more, before = writes ++ more ∧ later = more ++ .micReadPcm samples :: after := by
  induction writes generalizing before with
  | nil => exact ⟨before, rfl, hsplit⟩
  | cons call writes ih =>
    obtain ⟨taken, rfl⟩ := h call List.mem_cons_self
    cases before with
    | nil => cases (List.cons.inj hsplit).1
    | cons first before =>
      obtain ⟨rfl, hrest⟩ := List.cons.inj hsplit
      obtain ⟨more, rfl, hlater⟩ := ih (fun c hc => h c (List.mem_cons_of_mem _ hc)) hrest
      exact ⟨more, rfl, hlater⟩

variable {bytes : List UInt8} {writes : Nat → Bool × Nat} {k sent : Nat}

/-- The writes of the inner loop and how far it has come. -/
structure Sent (bytes : List UInt8) (sent : Nat) (result : List Call × Nat) : Prop where
  start : sent ≤ result.2
  fits : result.2 ≤ bytes.length
  taken : accepted result.1 = (bytes.drop sent).take (result.2 - sent)
  writes : Writes result.1
  short : result.1.length ≤ bytes.length - sent

/-- The inner loop ends, and hands over the bytes from its start to its end once each. -/
theorem writeLoop_sent (h : sent ≤ bytes.length) :
    Sent bytes sent (writeLoop bytes writes k sent) := by
  fun_induction writeLoop bytes writes k sent with
  | case1 k sent hgo written hzero =>
    refine ⟨Nat.le_refl _, h, ?_, ?_, ?_⟩
    · simp [Call.accepted]
    · intro call hcall
      exact ⟨[], List.mem_singleton.mp hcall⟩
    · rw [List.length_singleton]
      omega
  | case2 k sent hgo written hsome calls sent' hrest ih =>
    have hwritten : written ≤ bytes.length - sent := Nat.min_le_right _ _
    have hnext := ih (by omega)
    rw [hrest] at hnext
    obtain ⟨hstart, hfits, htaken, hwrites, hshort⟩ := hnext
    dsimp only at hstart hfits htaken hwrites hshort
    refine ⟨?_, hfits, ?_, ?_, ?_⟩
    · dsimp only
      omega
    · have hsplit : sent' - sent = written + (sent' - (sent + written)) := by omega
      rw [accepted_cons, htaken, hsplit, List.take_add, List.drop_drop]
      rfl
    · intro call hcall
      rcases List.mem_cons.mp hcall with rfl | hcall
      · exact ⟨_, rfl⟩
      · exact hwrites call hcall
    · rw [List.length_cons]
      omega
  | case3 k sent hstop =>
    exact ⟨Nat.le_refl _, h, by simp, nofun, Nat.zero_le _⟩

/-- What the socket would take in `n` writes from turn `k` on, none of them cut short: the loop
is over at the first that finds the client gone or takes nothing. -/
def room (writes : Nat → Bool × Nat) : Nat → Nat → Nat
  | _, 0 => 0
  | k, n + 1 =>
    if (writes k).1 && (writes k).2 != 0 then (writes k).2 + room writes (k + 1) n else 0

theorem room_gone (n : Nat) (h : (writes k).1 = false) : room writes k n = 0 := by
  cases n with
  | zero => rfl
  | succ n => simp [room, h]

theorem room_nothing (n : Nat) (h : (writes k).2 = 0) : room writes k n = 0 := by
  cases n with
  | zero => rfl
  | succ n => simp [room, h]

theorem room_succ (n : Nat) (hup : (writes k).1 = true) (hsome : (writes k).2 ≠ 0) :
    room writes k (n + 1) = (writes k).2 + room writes (k + 1) n := by
  simp [room, hup, hsome]

/-- Every write takes a byte, so `n` of them decide about `n` bytes. -/
theorem min_room {n m : Nat} (hle : n ≤ m) : min n (room writes k m) = min n (room writes k n) := by
  induction n generalizing k m with
  | zero => rw [Nat.zero_min, Nat.zero_min]
  | succ n ih =>
    obtain ⟨m, rfl⟩ : ∃ m', m = m' + 1 := ⟨m - 1, by omega⟩
    cases hup : (writes k).1 with
    | false => rw [room_gone _ hup, room_gone _ hup]
    | true =>
      by_cases hsome : (writes k).2 = 0
      · rw [room_nothing _ hsome, room_nothing _ hsome]
      · rw [room_succ m hup hsome, room_succ n hup hsome]
        have hrest := @ih (k + 1) m (by omega)
        omega

/-- How far the inner loop comes. -/
theorem writeLoop_room (h : sent ≤ bytes.length) :
    (writeLoop bytes writes k sent).2 =
      min bytes.length (sent + room writes k (bytes.length - sent)) := by
  fun_induction writeLoop bytes writes k sent with
  | case1 k sent hgo written hzero =>
    have hnothing : (writes k).2 = 0 := by omega
    rw [room_nothing _ hnothing]
    exact (Nat.min_eq_right h).symm
  | case2 k sent hgo written hsome calls sent' hrest ih =>
    have hwritten : written = min (writes k).2 (bytes.length - sent) := rfl
    have hend := ih (by omega)
    rw [hrest] at hend
    dsimp only at hend ⊢
    have hcount : bytes.length - sent = bytes.length - sent - 1 + 1 := by omega
    have henough := @min_room writes (k + 1) (bytes.length - (sent + written))
      (bytes.length - sent - 1) (by omega)
    rw [hend, hcount, room_succ _ hgo.2 (by omega)]
    omega
  | case3 k sent hstop =>
    dsimp only
    by_cases hless : sent < bytes.length
    · have hgone : (writes k).1 = false := by
        rw [← Bool.not_eq_true]
        exact fun hup => hstop ⟨hless, hup⟩
      rw [room_gone _ hgone]
      exact (Nat.min_eq_right h).symm
    · have hzero : bytes.length - sent = 0 := by omega
      rw [hzero]
      change sent = min bytes.length (sent + 0)
      omega

namespace Turn

/-- How many bytes of the chunk the socket has room for. -/
def room (t : Turn) : Nat := Audio.room t.writes 0 (chunkBytes t.samples).length

/-- The bytes of the chunk that the socket takes. -/
def taken (t : Turn) : List UInt8 := (chunkBytes t.samples).take t.room

def up (t : Turn) : Bool := t.connected && t.wifi

/-- Client and WiFi are there, and the chunk is taken whole. -/
def goesOn (t : Turn) : Bool := t.up && decide ((chunkBytes t.samples).length ≤ t.room)

end Turn

/-- The turns that read a chunk: all before the first that does not go on, and that one if it
finds client and WiFi there. -/
def readTurns (turns : List Turn) : List Turn :=
  turns.takeWhile Turn.goesOn ++ ((turns.dropWhile Turn.goesOn).head?.toList.filter Turn.up)

theorem readTurns_on {t : Turn} {turns : List Turn} (h : t.goesOn = true) :
    readTurns (t :: turns) = t :: readTurns turns := by
  rw [readTurns, List.takeWhile_cons_of_pos h, List.dropWhile_cons_of_pos h]
  rfl

theorem readTurns_last {t : Turn} {turns : List Turn} (hup : t.up = true)
    (h : t.goesOn = false) : readTurns (t :: turns) = [t] := by
  simp [readTurns, hup, h]

theorem readTurns_down {t : Turn} {turns : List Turn} (h : t.up = false) :
    readTurns (t :: turns) = [] := by
  have hstop : t.goesOn = false := by rw [Turn.goesOn, h, Bool.false_and]
  simp [readTurns, h, hstop]

theorem readTurns_within (turns : List Turn) : readTurns turns <+: turns := by
  induction turns with
  | nil => exact List.prefix_rfl
  | cons t turns ih =>
    cases hon : t.goesOn with
    | true =>
      rw [readTurns_on hon]
      exact (List.prefix_append_right_inj [t]).mpr ih
    | false =>
      cases hup : t.up with
      | true =>
        rw [readTurns_last hup hon]
        exact List.prefix_append [t] turns
      | false =>
        rw [readTurns_down hup]
        exact List.nil_prefix

theorem readTurns_all {turns : List Turn} (h : ∀ t ∈ turns, t.goesOn = true) :
    readTurns turns = turns := by
  rw [readTurns, List.takeWhile_eq_self_iff.mpr h, List.dropWhile_eq_nil_iff.mpr h]
  exact List.append_nil turns

/-- No chunk is read before all bytes of those before it have been taken. -/
def WholeChunks (calls : List Call) : Prop :=
  ∀ before samples after, calls = before ++ .micReadPcm samples :: after →
    accepted before = produced before

theorem wholeChunks_nil : WholeChunks [] := by
  intro before samples after hsplit
  exact absurd hsplit.symm (List.append_ne_nil_of_right_ne_nil _ (List.cons_ne_nil _ _))

theorem wholeChunks_writes {samples : List Int16} {calls : List Call} (h : Writes calls) :
    WholeChunks (.micReadPcm samples :: calls) := by
  intro before later after hsplit
  cases before with
  | nil => rfl
  | cons first before =>
    obtain ⟨-, hrest⟩ := List.cons.inj hsplit
    obtain ⟨more, -, hnil⟩ := h.split ((List.append_nil calls).trans hrest)
    exact absurd hnil.symm (by simp)

theorem wholeChunks_append {samples : List Int16} {calls later : List Call} (h : Writes calls)
    (hwhole : accepted calls = chunkBytes samples) (hlater : WholeChunks later) :
    WholeChunks (.micReadPcm samples :: calls ++ later) := by
  intro before next after hsplit
  cases before with
  | nil => rfl
  | cons first before =>
    obtain ⟨rfl, hrest⟩ := List.cons.inj hsplit
    obtain ⟨more, rfl, hmore⟩ := h.split hrest
    rw [accepted_cons, accepted_append, produced_read, produced_append, h.produced, hwhole,
      hlater more next after hmore]
    rfl

/-- The calls of the outer loop over some turns: the chunks that it reads, the bytes of them that
are taken, and why it is left. -/
structure Streamed (turns : List Turn) (result : List Call × Bool) : Prop where
  whole : WholeChunks result.1
  upTo : accepted result.1 <+: produced result.1
  streaming : .micStopPcmStream ∉ result.1
  reads : result.1.filterMap Call.chunk = (readTurns turns).map Turn.samples
  taken : accepted result.1 = (readTurns turns).flatMap Turn.taken
  left : result.2 = true ↔ ∃ t ∈ turns, t.goesOn = false

theorem streamed_nil : Streamed [] (streamLoop []) where
  whole := wholeChunks_nil
  upTo := List.prefix_rfl
  streaming := nofun
  reads := rfl
  taken := rfl
  left := by simp [streamLoop]

/-- Without client or WiFi no chunk is read. -/
theorem streamed_down {t : Turn} {turns : List Turn} (hdown : t.up = false) :
    Streamed (t :: turns) ([], true) where
  whole := wholeChunks_nil
  upTo := List.prefix_rfl
  streaming := nofun
  reads := by rw [readTurns_down hdown]; rfl
  taken := by rw [readTurns_down hdown]; rfl
  left := by
    have hstop : t.goesOn = false := by rw [Turn.goesOn, hdown, Bool.false_and]
    exact ⟨fun _ => ⟨t, List.mem_cons_self, hstop⟩, fun _ => rfl⟩

section Chunk

variable {t : Turn} {turns : List Turn} {result : List Call × Nat}

theorem Sent.taken_room (h : Sent (chunkBytes t.samples) 0 result)
    (hroom : result.2 = min (chunkBytes t.samples).length t.room) :
    accepted result.1 = t.taken := by
  rw [h.taken, List.drop_zero, Nat.sub_zero, hroom, Nat.min_comm, ← List.take_eq_take_min]
  rfl

/-- A chunk that is not taken whole ends the loop. -/
theorem streamed_cut (h : Sent (chunkBytes t.samples) 0 result)
    (hroom : result.2 = min (chunkBytes t.samples).length t.room) (hup : t.up = true)
    (hcut : result.2 < (chunkBytes t.samples).length) :
    Streamed (t :: turns) (.micReadPcm t.samples :: result.1, true) := by
  have hstop : t.goesOn = false := by
    rw [Turn.goesOn, hup, Bool.true_and, decide_eq_false_iff_not]
    omega
  have hreads : readTurns (t :: turns) = [t] := readTurns_last hup hstop
  refine ⟨wholeChunks_writes h.writes, ?_, ?_, ?_, ?_, ?_⟩
  · rw [accepted_cons, produced_read, h.writes.produced, List.append_nil, h.taken]
    exact List.take_prefix _ _
  · intro hmem
    rcases List.mem_cons.mp hmem with heq | hmem
    · cases heq
    · exact h.writes.not_stop hmem
  · rw [hreads]
    change t.samples :: result.1.filterMap Call.chunk = _
    rw [h.writes.chunks]
    rfl
  · rw [hreads, accepted_cons, h.taken_room hroom]
    exact (List.append_nil _).symm
  · exact ⟨fun _ => ⟨t, List.mem_cons_self, hstop⟩, fun _ => rfl⟩

/-- A chunk taken whole leads to the next turn. -/
theorem streamed_whole {later : List Call × Bool} (h : Sent (chunkBytes t.samples) 0 result)
    (hroom : result.2 = min (chunkBytes t.samples).length t.room) (hup : t.up = true)
    (hend : ¬ result.2 < (chunkBytes t.samples).length) (hlater : Streamed turns later) :
    Streamed (t :: turns) (.micReadPcm t.samples :: result.1 ++ later.1, later.2) := by
  have hon : t.goesOn = true := by
    rw [Turn.goesOn, hup, Bool.true_and, decide_eq_true_iff]
    omega
  have hwhole : accepted result.1 = chunkBytes t.samples := by
    rw [h.taken, List.drop_zero, List.take_of_length_le (by omega)]
  have haccepted : accepted (.micReadPcm t.samples :: result.1 ++ later.1) =
      chunkBytes t.samples ++ accepted later.1 := by
    rw [accepted_append, accepted_cons, hwhole]
    rfl
  have hproduced : produced (.micReadPcm t.samples :: result.1 ++ later.1) =
      chunkBytes t.samples ++ produced later.1 := by
    rw [produced_append, produced_read, h.writes.produced, List.append_nil]
  refine ⟨wholeChunks_append h.writes hwhole hlater.whole, ?_, ?_, ?_, ?_, ?_⟩
  · rw [haccepted, hproduced]
    exact (List.prefix_append_right_inj _).mpr hlater.upTo
  · intro hmem
    rcases List.mem_append.mp hmem with hmem | hmem
    · rcases List.mem_cons.mp hmem with heq | hmem
      · cases heq
      · exact h.writes.not_stop hmem
    · exact hlater.streaming hmem
  · rw [readTurns_on hon, List.filterMap_append, hlater.reads]
    change t.samples :: result.1.filterMap Call.chunk ++ _ = _
    rw [h.writes.chunks]
    rfl
  · rw [readTurns_on hon, accepted_append, accepted_cons, h.taken_room hroom, hlater.taken]
    rfl
  · constructor
    · intro hleft
      obtain ⟨u, hu, hstop⟩ := hlater.left.mp hleft
      exact ⟨u, List.mem_cons_of_mem _ hu, hstop⟩
    · rintro ⟨u, hu, hstop⟩
      rcases List.mem_cons.mp hu with rfl | hu
      · rw [hon] at hstop
        cases hstop
      · exact hlater.left.mpr ⟨u, hu, hstop⟩

end Chunk

theorem streamLoop_streamed (turns : List Turn) : Streamed turns (streamLoop turns) := by
  induction turns with
  | nil => exact streamed_nil
  | cons t turns ih =>
    have hsent := @writeLoop_sent (chunkBytes t.samples) t.writes 0 0 (Nat.zero_le _)
    have hroom := @writeLoop_room (chunkBytes t.samples) t.writes 0 0 (Nat.zero_le _)
    rw [Nat.zero_add, Nat.sub_zero] at hroom
    simp only [streamLoop]
    split_ifs with hup hcut
    · exact streamed_cut hsent hroom hup hcut
    · exact streamed_whole hsent hroom hup hcut ih
    · exact streamed_down (Bool.not_eq_true _ ▸ hup)

theorem Turn.goesOn_false {t : Turn} : t.goesOn = false ↔
    t.connected = false ∨ t.wifi = false ∨ t.room < (chunkBytes t.samples).length := by
  rw [goesOn, up, Bool.and_eq_false_iff, Bool.and_eq_false_iff, decide_eq_false_iff_not,
    Nat.not_le, or_assoc]

/-- As long as the loop goes on, every turn reads a chunk. -/
theorem Streamed.running {turns : List Turn} {result : List Call × Bool}
    (h : Streamed turns result) (hrunning : result.2 = false) : readTurns turns = turns := by
  apply readTurns_all
  intro t ht
  by_contra hstop
  have hleft : result.2 = true := h.left.mpr ⟨t, ht, Bool.not_eq_true _ ▸ hstop⟩
  rw [hrunning] at hleft
  cases hleft

/-- Calls behind the loop change nothing about the chunks. -/
theorem WholeChunks.append {calls later : List Call} (h : WholeChunks calls)
    (hlater : ∀ samples, .micReadPcm samples ∉ later) : WholeChunks (calls ++ later) := by
  intro before samples after hsplit
  rcases List.append_eq_append_iff.mp hsplit with ⟨more, -, hmore⟩ | ⟨more, rfl, hmore⟩
  · exact absurd (hmore ▸ List.mem_append_right _ List.mem_cons_self) (hlater samples)
  · cases more with
    | nil =>
      have hfirst : .micReadPcm samples :: after = later := hmore
      exact absurd (hfirst ▸ List.mem_cons_self) (hlater samples)
    | cons first more =>
      obtain ⟨rfl, -⟩ := List.cons.inj hmore
      exact h before samples more rfl

theorem writeLoop_length_le (bytes : List UInt8) (writes : Nat → Bool × Nat) (k sent : Nat) :
    (writeLoop bytes writes k sent).1.length ≤ bytes.length - sent := by
  rcases Nat.le_total sent bytes.length with hle | hge
  · exact (writeLoop_sent hle).short
  · have hstop : ¬ (sent < bytes.length ∧ (writes k).1 = true) := by omega
    rw [writeLoop, if_neg hstop]
    exact Nat.zero_le _

theorem streamAudioPcm_eq (turns : List Turn) : streamAudioPcm turns = (streamLoop turns).1 ++
    if (streamLoop turns).2 then [.micDroppedSamples, .micStopPcmStream, .stop] else [] := by
  cases hleft : (streamLoop turns).2 with
  | true =>
    simp only [streamAudioPcm, hleft]
    rfl
  | false =>
    simp only [streamAudioPcm, hleft]
    exact (List.append_nil _).symm

/-- What comes behind the loop reads no chunk and writes none. -/
theorem streamAudioPcm_chunks (turns : List Turn) :
    (streamAudioPcm turns).filterMap Call.chunk = (streamLoop turns).1.filterMap Call.chunk := by
  rw [streamAudioPcm_eq, List.filterMap_append]
  cases (streamLoop turns).2 <;> exact List.append_nil _

theorem streamAudioPcm_accepted (turns : List Turn) :
    accepted (streamAudioPcm turns) = accepted (streamLoop turns).1 := by
  rw [streamAudioPcm_eq, accepted_append]
  cases (streamLoop turns).2 <;> exact List.append_nil _

theorem streamAudioPcm_whole {turns : List Turn} (h : WholeChunks (streamLoop turns).1) :
    WholeChunks (streamAudioPcm turns) := by
  rw [streamAudioPcm_eq]
  apply h.append
  intro samples
  cases (streamLoop turns).2 <;> simp

/-- Whatever the socket takes and whenever it or the WiFi goes away: a chunk is read for each turn
up to the first that does not go on, and the socket takes of it the bytes that it has room for.
So behind the header it has taken the bytes of the chunks from the first on without a gap or a
repetition, all of a chunk before the next is read; an inner loop is over after as many writes
as it has bytes at most. The loop is left when client or WiFi is gone or a chunk is not taken
whole, for no other reason, and then the task stops the PCM stream once; else it is in it. -/
theorem socket_writes_exact (turns : List Turn) :
    (streamAudioPcm turns).filterMap Call.chunk = (readTurns turns).map Turn.samples ∧
    (streamAudioPcm turns).filterMap Call.chunk <+: turns.map Turn.samples ∧
    accepted (streamAudioPcm turns) = (readTurns turns).flatMap Turn.taken ∧
    accepted (streamAudioPcm turns) <+: produced (streamAudioPcm turns) ∧
    WholeChunks (streamAudioPcm turns) ∧
    (∀ bytes writes k sent, (writeLoop bytes writes k sent).1.length ≤ bytes.length - sent) ∧
    ((streamLoop turns).2 = true ↔ ∃ t ∈ turns, t.connected = false ∨ t.wifi = false ∨
      t.room < (chunkBytes t.samples).length) ∧
    (if (streamLoop turns).2 then ∃ calls, .micStopPcmStream ∉ calls ∧
        streamAudioPcm turns = calls ++ [.micDroppedSamples, .micStopPcmStream, .stop]
      else .micStopPcmStream ∉ streamAudioPcm turns ∧
        (streamAudioPcm turns).filterMap Call.chunk = turns.map Turn.samples) := by
  have h := streamLoop_streamed turns
  have hchunks := streamAudioPcm_chunks turns
  have haccepted := streamAudioPcm_accepted turns
  have hproduced : produced (streamAudioPcm turns) = produced (streamLoop turns).1 := by
    rw [produced, hchunks, produced]
  have hreads : (readTurns turns).map Turn.samples <+: turns.map Turn.samples :=
    (readTurns_within turns).map Turn.samples
  have hleave : (streamLoop turns).2 = true ↔ ∃ t ∈ turns, t.connected = false ∨ t.wifi = false ∨
      t.room < (chunkBytes t.samples).length := by
    rw [h.left]
    simp only [Turn.goesOn_false]
  refine ⟨hchunks.trans h.reads, ?_, haccepted.trans h.taken, ?_, streamAudioPcm_whole h.whole,
    writeLoop_length_le, hleave, ?_⟩
  · rw [hchunks, h.reads]
    exact hreads
  · rw [haccepted, hproduced]
    exact h.upTo
  · rw [hchunks, h.reads, streamAudioPcm_eq]
    cases hleft : (streamLoop turns).2 with
    | true => exact ⟨_, h.streaming, rfl⟩
    | false =>
      refine ⟨?_, ?_⟩
      · simpa using h.streaming
      · rw [h.running hleft]

end RoomWatchdog.Audio
