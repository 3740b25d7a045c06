import RoomWatchdog.Net.Pacing

namespace RoomWatchdog.Net

/-- What has become of the messages that never reached the server. -/
structure Losses where
  discarded : Nat := 0
  givenUp : Nat := 0
  refused : Nat := 0
  unserved : Nat := 0
  deriving DecidableEq

namespace Losses

/-- Those that the counters are for: not the messages of a node that has no worker. A
reader without the lock has to leave out the discarded ones. -/
def seen (l : Losses) (timedOut : Bool) : Nat :=
  (if timedOut then 0 else l.discarded) + (l.givenUp + l.refused)

def counted (l : Losses) : Nat := l.seen false

def all (l : Losses) : Nat := l.counted + l.unserved

/-- What one step loses, given the delivery before it. -/
def next {depth messageMax : Nat} (maxAttempts : UInt8) (l : Losses)
    (s : Delivery depth messageMax) : Action → Losses
  | .queueGotify message acquired =>
    if s.queueLock = false then { l with unserved := l.unserved + 1 }
    else if acquired = false then { l with refused := l.refused + 1 }
    else if (s.pending.push (some message)).map (·.2) = some false then
      { l with discarded := l.discarded + 1 }
    else l
  | .pushGotify ok =>
    if s.pushResult maxAttempts ok = .gaveUp then { l with givenUp := l.givenUp + 1 } else l
  | _ => l

/-- The counters of the delivery hold them. -/
structure Tallied {depth messageMax : Nat} (l : Losses) (s : Delivery depth messageMax) : Prop where
  dropped : s.pending.dropped = UInt32.ofNat l.discarded
  undeliverable : s.undeliverable = UInt32.ofNat (l.givenUp + l.refused)
  closed : s.queueLock = false → l.discarded = 0

variable {depth messageMax : Nat} {maxAttempts : UInt8} {l : Losses}
  {s t : Delivery depth messageMax}

theorem next_le (l : Losses) (s : Delivery depth messageMax) (action : Action) :
    l.discarded ≤ (l.next maxAttempts s action).discarded ∧
    l.givenUp + l.refused ≤
      (l.next maxAttempts s action).givenUp + (l.next maxAttempts s action).refused := by
  cases action with
  | queueGotify message acquired =>
    simp only [next]
    split_ifs <;> constructor <;> (try dsimp only) <;> omega
  | pushGotify ok =>
    simp only [next]
    split_ifs <;> constructor <;> (try dsimp only) <;> omega
  | takeNextMessage => exact ⟨Nat.le_refl _, Nat.le_refl _⟩
  | wake => exact ⟨Nat.le_refl _, Nat.le_refl _⟩
  | retry => exact ⟨Nat.le_refl _, Nat.le_refl _⟩

theorem next_seen_le (l : Losses) (s : Delivery depth messageMax) (action : Action)
    (timedOut : Bool) : l.seen timedOut ≤ (l.next maxAttempts s action).seen timedOut := by
  obtain ⟨hdiscarded, hrest⟩ := @next_le _ _ maxAttempts l s action
  cases timedOut with
  | true => exact Nat.add_le_add_left hrest 0
  | false => exact Nat.add_le_add hdiscarded hrest

/-- A reader with the lock sees no less. -/
theorem seen_le (l : Losses) {a b : Bool} (h : a = false → b = false) : l.seen a ≤ l.seen b := by
  cases a with
  | false => rw [h rfl]
  | true =>
    cases b with
    | false => exact Nat.add_le_add_right (Nat.zero_le _) _
    | true => exact Nat.le_refl _

theorem tallied_queueGotify (h : l.Tallied s) {message : CString} {acquired : Bool}
    (hstep : s.queueGotify message acquired = some t) :
    (l.next maxAttempts s (.queueGotify message acquired)).Tallied t := by
  rcases Delivery.queueGotify_cases hstep with
    ⟨hlock, rfl⟩ | ⟨hlock, rfl, rfl⟩ | ⟨hlock, rfl, pending, kept, hpush, rfl⟩
  · rw [next, if_pos hlock]
    exact ⟨h.dropped, h.undeliverable, h.closed⟩
  · have hopen : ¬ s.queueLock = false := by simp [hlock]
    rw [next, if_neg hopen, if_pos rfl]
    refine ⟨h.dropped, ?_, h.closed⟩
    change s.undeliverable + 1 = UInt32.ofNat (l.givenUp + l.refused + 1)
    rw [UInt32.ofNat_add, ← h.undeliverable]
    rfl
  · have hopen : ¬ s.queueLock = false := by simp [hlock]
    have hdropped := NotificationQueue.push_dropped hpush
    rw [next, if_neg hopen, if_neg Bool.true_eq_false.mp, hpush]
    cases kept with
    | true => exact ⟨hdropped.trans h.dropped, h.undeliverable, h.closed⟩
    | false =>
      rw [if_neg Bool.false_ne_true, h.dropped] at hdropped
      refine ⟨?_, h.undeliverable, fun hclosed => absurd hclosed hopen⟩
      change pending.dropped = UInt32.ofNat (l.discarded + 1)
      rw [hdropped, UInt32.ofNat_add]
      rfl

theorem tallied_pushGotify (h : l.Tallied s) {ok : Bool}
    (hstep : s.pushGotify maxAttempts ok = some t) :
    (l.next maxAttempts s (.pushGotify ok)).Tallied t := by
  obtain ⟨attempt, job, hworker, -, hcases⟩ := Delivery.pushGotify_cases hstep
  simp only [next, Delivery.pushResult, hworker]
  rcases hcases with ⟨rfl, rfl⟩ | ⟨rfl, hlast, rfl⟩ | ⟨rfl, hlast, rfl⟩
  · exact ⟨h.dropped, h.undeliverable, h.closed⟩
  · have hgaveUp : attempt ≥ maxAttempts := hlast
    rw [if_neg Bool.false_ne_true, if_pos hgaveUp, if_pos rfl]
    refine ⟨h.dropped, ?_, h.closed⟩
    change s.undeliverable + 1 = UInt32.ofNat (l.givenUp + 1 + l.refused)
    rw [Nat.add_right_comm, UInt32.ofNat_add, ← h.undeliverable]
    rfl
  · have hmore : ¬ attempt ≥ maxAttempts := hlast
    rw [if_neg Bool.false_ne_true, if_neg hmore, if_neg (by decide)]
    exact ⟨h.dropped, h.undeliverable, h.closed⟩

theorem tallied_step (h : l.Tallied s) {action : Action}
    (hstep : s.step maxAttempts action = some t) : (l.next maxAttempts s action).Tallied t := by
  cases action with
  | queueGotify message acquired => exact tallied_queueGotify h hstep
  | takeNextMessage =>
    obtain ⟨-, ⟨-, rfl⟩ | ⟨-, pending, message, hpop, rfl⟩⟩ := Delivery.takeNextMessage_cases hstep
    · exact ⟨h.dropped, h.undeliverable, h.closed⟩
    · exact ⟨(NotificationQueue.pop_dropped hpop).trans h.dropped, h.undeliverable, h.closed⟩
  | wake =>
    obtain ⟨-, rfl⟩ := Delivery.wake_cases hstep
    exact ⟨h.dropped, h.undeliverable, h.closed⟩
  | pushGotify ok => exact tallied_pushGotify h hstep
  | retry =>
    obtain ⟨attempt, -, rfl⟩ := Delivery.retry_cases hstep
    exact ⟨h.dropped, h.undeliverable, h.closed⟩

end Losses

/-- Where the one reader stands in pushLostCount, with the losses at the time of its call:
before the lock, or past it with what it found there. -/
inductive Reader where
  | idle
  | locking (atCall : Losses)
  | adding (atCall : Losses) (discarded : UInt32) (timedOut : Bool)
  deriving DecidableEq

structure Result where
  value : UInt32
  atCall : Losses
  timedOut : Bool
  deriving DecidableEq

structure Counted (depth messageMax : Nat) where
  delivery : Delivery depth messageMax
  losses : Losses := {}
  reader : Reader := .idle
  results : List Result := []

/-- A step of the delivery, or of pushLostCount. -/
inductive Move where
  | deliver (action : Action)
  | call
  | lock (acquired : Bool)
  | add

namespace Counted

variable {depth messageMax : Nat}

def begin (created : Bool) (garbage : Vector UInt8 messageMax) : Counted depth messageMax where
  delivery := Delivery.gotifyBegin created garbage

def step (maxAttempts : UInt8) (s : Counted depth messageMax) :
    Move → Option (Counted depth messageMax)
  | .deliver action => (s.delivery.step maxAttempts action).map fun delivery =>
    { s with delivery, losses := s.losses.next maxAttempts s.delivery action }
  | .call =>
    match s.reader with
    | .idle => some { s with reader := .locking s.losses }
    | _ => none
  | .lock acquired =>
    match s.reader with
    | .locking atCall =>
      if s.delivery.queueLock = false then some { s with reader := .adding atCall 0 false }
      else if acquired then some { s with reader := .adding atCall s.delivery.pending.dropped false }
      else some { s with reader := .adding atCall 0 true }
    | _ => none
  | .add =>
    match s.reader with
    | .adding atCall discarded timedOut => some { s with
        reader := .idle
        results := s.results ++ [⟨discarded + s.delivery.undeliverable, atCall, timedOut⟩] }
    | _ => none

/-- What pushLostCount is for: no result misses a loss, and none is below one before it. The
discarded messages count only for a reader that did not time out. -/
def Reliable (results : List Result) : Prop :=
  (∀ r ∈ results, r.atCall.seen r.timedOut ≤ r.value.toNat) ∧
    results.Pairwise fun earlier later =>
      (earlier.timedOut = false → later.timedOut = false) → earlier.value ≤ later.value

/-- No result shows more than has been lost. -/
def Bounded (results : List Result) (l : Losses) : Prop :=
  ∀ r ∈ results, r.value.toNat ≤ l.seen r.timedOut

/-- A read past the lock has the losses of its call in what it found and will add. -/
def Reading (s : Counted depth messageMax) : Prop :=
  match s.reader with
  | .idle => True
  | .locking atCall => (∀ timedOut, atCall.seen timedOut ≤ s.losses.seen timedOut) ∧
    Bounded s.results atCall
  | .adding atCall discarded timedOut => ∃ n ≤ if timedOut then 0 else s.losses.discarded,
    discarded = UInt32.ofNat n ∧
    atCall.seen timedOut ≤ n + (s.losses.givenUp + s.losses.refused) ∧ Bounded s.results atCall

/-- The counters hold what was lost, and all results so far are reliable. -/
structure Sound (s : Counted depth messageMax) : Prop where
  tallied : s.losses.Tallied s.delivery
  reading : s.Reading
  reliable : Reliable s.results
  bounded : Bounded s.results s.losses

variable {maxAttempts : UInt8} {s t : Counted depth messageMax}

theorem sound_begin (created : Bool) (garbage : Vector UInt8 messageMax) :
    Sound (begin created garbage : Counted depth messageMax) where
  tallied := ⟨rfl, rfl, fun _ => rfl⟩
  reading := trivial
  reliable := ⟨nofun, List.Pairwise.nil⟩
  bounded := nofun

theorem Bounded.mono {results : List Result} {l m : Losses} (h : Bounded results l)
    (hle : ∀ timedOut, l.seen timedOut ≤ m.seen timedOut) : Bounded results m :=
  fun r hr => Nat.le_trans (h r hr) (hle r.timedOut)

theorem sound_deliver (h : s.Sound) {action : Action}
    (hstep : s.step maxAttempts (.deliver action) = some t) : t.Sound := by
  obtain ⟨delivery, hdelivery, rfl⟩ := Option.map_eq_some_iff.mp hstep
  have hseen := @Losses.next_seen_le _ _ maxAttempts s.losses s.delivery action
  obtain ⟨hdiscarded, hrest⟩ := @Losses.next_le _ _ maxAttempts s.losses s.delivery action
  refine ⟨Losses.tallied_step h.tallied hdelivery, ?_, h.reliable, h.bounded.mono hseen⟩
  have hreading := h.reading
  cases hreader : s.reader with
  | idle => simp only [Reading]
  | locking atCall =>
    simp only [Reading, hreader] at hreading ⊢
    exact ⟨fun timedOut => Nat.le_trans (hreading.1 timedOut) (hseen timedOut), hreading.2⟩
  | adding atCall discarded timedOut =>
    simp only [Reading, hreader] at hreading ⊢
    obtain ⟨n, hn, hvalue, hatCall, hbefore⟩ := hreading
    refine ⟨n, ?_, hvalue, Nat.le_trans hatCall (Nat.add_le_add_left hrest n), hbefore⟩
    cases timedOut with
    | true => exact hn
    | false => exact Nat.le_trans hn hdiscarded

theorem sound_call (h : s.Sound) (hstep : s.step maxAttempts .call = some t) : t.Sound := by
  simp only [step] at hstep
  split at hstep <;> cases hstep
  exact ⟨h.tallied, ⟨fun _ => Nat.le_refl _, h.bounded⟩, h.reliable, h.bounded⟩

theorem sound_lock (h : s.Sound) {acquired : Bool}
    (hstep : s.step maxAttempts (.lock acquired) = some t) : t.Sound := by
  simp only [step] at hstep
  split at hstep
  case h_2 => cases hstep
  next atCall hreader =>
    have hreading := h.reading
    simp only [Reading, hreader] at hreading
    obtain ⟨hatCall, hbefore⟩ := hreading
    split_ifs at hstep with hopen hacquired <;> cases hstep
    · have hnone : s.losses.seen false = 0 + (s.losses.givenUp + s.losses.refused) := by
        rw [Losses.seen, h.tallied.closed hopen]
        rfl
      exact ⟨h.tallied, ⟨0, Nat.zero_le _, rfl, (hatCall false).trans_eq hnone, hbefore⟩,
        h.reliable, h.bounded⟩
    · exact ⟨h.tallied, ⟨s.losses.discarded, Nat.le_refl _, h.tallied.dropped, hatCall false,
        hbefore⟩, h.reliable, h.bounded⟩
    · exact ⟨h.tallied, ⟨0, Nat.le_refl _, rfl, hatCall true, hbefore⟩, h.reliable, h.bounded⟩

/-- One more result, which is between the losses at its call and those now. -/
theorem Reliable.append {results : List Result} {r : Result} (h : Reliable results)
    (hatCall : r.atCall.seen r.timedOut ≤ r.value.toNat) (hbefore : Bounded results r.atCall) :
    Reliable (results ++ [r]) := by
  constructor
  · intro q hq
    rcases List.mem_append.mp hq with hold | hnew
    · exact h.1 q hold
    · rw [List.mem_singleton.mp hnew]
      exact hatCall
  · rw [List.pairwise_append]
    refine ⟨h.2, List.pairwise_singleton _ _, ?_⟩
    intro earlier hearlier later hlater hlock
    rw [List.mem_singleton] at hlater
    subst hlater
    apply UInt32.le_iff_toNat_le.mpr
    calc earlier.value.toNat ≤ later.atCall.seen earlier.timedOut := hbefore earlier hearlier
      _ ≤ later.atCall.seen later.timedOut := later.atCall.seen_le hlock
      _ ≤ later.value.toNat := hatCall

theorem sound_add (h : s.Sound) (hlost : s.losses.counted < 2 ^ 32)
    (hstep : s.step maxAttempts .add = some t) : t.Sound := by
  simp only [step] at hstep
  split at hstep
  case h_2 => cases hstep
  next atCall discarded timedOut hreader =>
    have hreading := h.reading
    simp only [Reading, hreader] at hreading
    obtain ⟨n, hn, rfl, hatCall, hbefore⟩ := hreading
    cases hstep
    have hseen : n + (s.losses.givenUp + s.losses.refused) ≤ s.losses.seen timedOut :=
      Nat.add_le_add_right hn _
    have hfits : n + (s.losses.givenUp + s.losses.refused) < 2 ^ 32 :=
      Nat.lt_of_le_of_lt (Nat.le_trans hseen (s.losses.seen_le fun _ => rfl)) hlost
    have hvalue : (UInt32.ofNat n + s.delivery.undeliverable).toNat =
        n + (s.losses.givenUp + s.losses.refused) := by
      rw [h.tallied.undeliverable, ← UInt32.ofNat_add]
      exact UInt32.toNat_ofNat_of_lt' hfits
    refine ⟨h.tallied, trivial, h.reliable.append (hatCall.trans_eq hvalue.symm) hbefore, ?_⟩
    intro q hq
    rcases List.mem_append.mp hq with hold | hnew
    · exact h.bounded q hold
    · rw [List.mem_singleton.mp hnew]
      exact hvalue.trans_le hseen

theorem step_counted_le {move : Move} (hstep : s.step maxAttempts move = some t) :
    s.losses.counted ≤ t.losses.counted := by
  cases move with
  | deliver action =>
    obtain ⟨delivery, -, rfl⟩ := Option.map_eq_some_iff.mp hstep
    exact Losses.next_seen_le s.losses s.delivery action false
  | call =>
    simp only [step] at hstep
    split at hstep <;> cases hstep
    exact Nat.le_refl _
  | lock acquired =>
    simp only [step] at hstep
    split at hstep
    · split_ifs at hstep <;> cases hstep <;> exact Nat.le_refl _
    · cases hstep
  | add =>
    simp only [step] at hstep
    split at hstep <;> cases hstep
    exact Nat.le_refl _

theorem sound_step (s : Counted depth messageMax) (move : Move) (t : Counted depth messageMax)
    (hstep : s.step maxAttempts move = some t) (h : s.losses.counted < 2 ^ 32 → s.Sound) :
    t.losses.counted < 2 ^ 32 → t.Sound := by
  intro hlost
  have hbefore : s.losses.counted < 2 ^ 32 := Nat.lt_of_le_of_lt (step_counted_le hstep) hlost
  cases move with
  | deliver action => exact sound_deliver (h hbefore) hstep
  | call => exact sound_call (h hbefore) hstep
  | lock acquired => exact sound_lock (h hbefore) hstep
  | add => exact sound_add (h hbefore) hbefore hstep

/-- In every run that has lost fewer than 2^32 messages: a result misses none that was
discarded, given up on or refused for the lock before the call, the discarded ones if the
reader had the lock or needed none; and it is below an earlier result only if the reader
timed out this time and not then. -/
theorem results_reliable (maxAttempts : UInt8) (created : Bool) (garbage : Vector UInt8 messageMax)
    (moves : List Move) (s : Counted depth messageMax)
    (h : Guarded.exec (step maxAttempts) (begin created garbage) moves = some s)
    (hlost : s.losses.counted < 2 ^ 32) : Reliable s.results :=
  (Guarded.exec_preserves (fun s : Counted depth messageMax => s.losses.counted < 2 ^ 32 → s.Sound)
    sound_step h (fun _ => sound_begin created garbage) hlost).reliable

/-- Two messages for a queue that holds one, and a reader who has the lock once and times out
then. -/
def overflow : List Move :=
  [.deliver (.queueGotify ⟨[70, 0], by decide⟩ true),
    .deliver (.queueGotify ⟨[71, 0], by decide⟩ true), .call, .lock true, .add, .call, .lock false,
    .add]

theorem overflow_reliable : ∃ s : Counted 1 2,
    Guarded.exec (step 3) (begin true (.replicate _ 0)) overflow = some s ∧
      s.results.map Result.value = [1, 0] ∧ Reliable s.results := by
  obtain ⟨s, hrun⟩ : ∃ s : Counted 1 2,
      Guarded.exec (step 3) (begin true (.replicate _ 0)) overflow = some s := ⟨_, rfl⟩
  have hlost : s.losses.counted < 2 ^ 32 := by
    obtain rfl := Option.some.inj hrun
    decide
  refine ⟨s, hrun, ?_, results_reliable 3 true _ overflow s hrun hlost⟩
  obtain rfl := Option.some.inj hrun
  rfl

/-- A node without a worker refuses a message and counts none, and a reader who times out is
told less than before. -/
theorem losses_missed :
    (∃ s : Counted Config.gotifyQueueDepth Config.gotifyMessageMax,
      Guarded.exec (step Config.gotifyMaxAttempts) (begin false (.replicate _ 0))
        [.deliver (.queueGotify ⟨[65, 0], by decide⟩ true), .call, .lock true, .add] = some s ∧
      s.results = [⟨0, { unserved := 1 }, false⟩] ∧
      ¬ ∀ r ∈ s.results, r.atCall.all ≤ r.value.toNat) ∧
    ∃ s : Counted Config.gotifyQueueDepth Config.gotifyMessageMax,
      Guarded.exec (step Config.gotifyMaxAttempts) (begin true (.replicate _ 0))
        (List.replicate 9 (.deliver (.queueGotify ⟨[65, 0], by decide⟩ true)) ++
          [.call, .lock true, .add, .call, .lock false, .add]) = some s ∧
      s.results = [⟨1, { discarded := 1 }, false⟩, ⟨0, { discarded := 1 }, true⟩] ∧
      ¬ s.results.Pairwise fun earlier later => earlier.value ≤ later.value := by
  refine ⟨⟨_, rfl, rfl, ?_⟩, ⟨_, rfl, rfl, ?_⟩⟩
  · intro h
    exact absurd (h ⟨0, { unserved := 1 }, false⟩ List.mem_cons_self) (by decide)
  · intro h
    exact absurd ((List.pairwise_cons.mp h).1 ⟨0, { discarded := 1 }, true⟩ List.mem_cons_self)
      (by decide)

end Counted

end RoomWatchdog.Net
