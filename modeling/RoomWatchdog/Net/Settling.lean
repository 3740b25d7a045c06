import RoomWatchdog.Net.Conservation

namespace RoomWatchdog

/-- The texts in the queue, oldest first. -/
def NotificationQueue.texts {capacity maxLength : Nat} [NeZero capacity]
    (q : NotificationQueue capacity maxLength) : List (List UInt8) := q.live.map cString

@[simp] theorem NotificationQueue.texts_length {capacity maxLength : Nat} [NeZero capacity]
    (q : NotificationQueue capacity maxLength) : q.texts.length = q.count := by
  simp [texts, live]

namespace Net

/-- The steps of gotifyWorkerTask. -/
def Action.isWorker : Action → Bool
  | .queueGotify _ _ => false
  | .takeNextMessage | .wake | .pushGotify _ | .retry => true

/-- How many steps of its own the worker is at most from its next takeNextMessage. -/
def Worker.left (allowed : Nat) : Worker → Nat
  | .pushing attempt => 2 * (allowed - attempt.toNat) + 1
  | .backingOff attempt => 2 * (allowed - attempt.toNat)
  | .sleeping => 1
  | .taking | .absent => 0

namespace Delivery

variable {depth messageMax : Nat} [NeZero depth] {maxAttempts : UInt8}
  {s t : Delivery depth messageMax} {f : DropOldest} {n : Nat}

/-- What has been accepted is in the queue behind what has left it, and that the worker has taken
but for what was displaced. -/
structure InTurn (s : Delivery depth messageMax) : Prop where
  present : s.worker ≠ .absent
  gone : ∃ gone displaced, s.kept = gone ++ s.pending.texts ∧
    gone.length = s.taken.length + displaced ∧ s.pending.dropped = UInt32.ofNat displaced

/-- Nobody waits of the first `n` that were accepted. -/
def Settled (n : Nat) (s : Delivery depth messageMax) : Prop :=
  s.job = none ∧ n + s.pending.count ≤ s.accepted.length

/-- How many steps of its own the worker is at most from having settled the first `n`. -/
def left (maxAttempts : UInt8) (n : Nat) (s : Delivery depth messageMax) : Nat :=
  (n + s.pending.count - s.accepted.length) * (2 * allowed maxAttempts) +
    s.worker.left (allowed maxAttempts)

theorem allowed_pos (maxAttempts : UInt8) : 0 < allowed maxAttempts :=
  Nat.lt_of_lt_of_le Nat.zero_lt_one (Nat.le_max_left _ _)

theorem inTurn_begin (garbage : Vector UInt8 messageMax) :
    (gotifyBegin true garbage : Delivery depth messageMax).InTurn where
  present := by simp [gotifyBegin]
  gone := ⟨[], 0, rfl, rfl, rfl⟩

/-- A push puts its text behind the others, the oldest of which gives way if there is no room. -/
theorem pushed_texts (hlength : 1 < messageMax) (hq : s.pending.Refines f) {message : CString}
    {pending : NotificationQueue depth messageMax} {kept : Bool}
    (hpush : s.pending.push (some message) = some (pending, kept)) :
    ∃ displaced,
      s.pending.texts ++ [message.text.take (messageMax - 1)] = displaced ++ pending.texts ∧
      pending.dropped = s.pending.dropped + UInt32.ofNat displaced.length := by
  obtain ⟨pending', hpush', hq'⟩ := NotificationQueue.push_refines hlength hq (some message)
  obtain rfl : pending' = pending := (Prod.mk.inj (Option.some.inj (hpush'.symm.trans hpush))).1
  rw [NotificationQueue.texts, NotificationQueue.texts, hq.contents, hq'.contents, hq'.dropped,
    hq.dropped, DropOldest.push]
  by_cases hfull : f.contents.length = depth
  · rw [if_pos hfull]
    cases hcontents : f.contents with
    | nil =>
      rw [hcontents] at hfull
      exact absurd hfull.symm (NeZero.ne depth)
    | cons oldest rest => exact ⟨[oldest], rfl, rfl⟩
  · rw [if_neg hfull]
    exact ⟨[], rfl, (UInt32.add_zero _).symm⟩

/-- A pop takes the oldest text. -/
theorem popped_texts (hq : s.pending.Refines f)
    (husable : ¬ (s.pending.count = 0 ∨ messageMax = 0))
    {pending : NotificationQueue depth messageMax} {message : Vector UInt8 messageMax}
    (htaken : s.pending.pop (.whole s.message) = some (pending, true, some message)) :
    ∃ text, s.pending.texts = text :: pending.texts ∧ pending.dropped = s.pending.dropped := by
  have hwhole : (Out.whole s.message).pointer = some s.message := rfl
  obtain ⟨hcount, hsize⟩ := not_or.mp husable
  obtain ⟨pending', buffer, text, rest, hcontents, hpop, -, -, hq'⟩ :=
    NotificationQueue.pop_usable hq hwhole hcount hsize
  obtain rfl : pending' = pending := (Prod.mk.inj (Option.some.inj (hpop.symm.trans htaken))).1
  refine ⟨text, ?_, ?_⟩
  · rw [NotificationQueue.texts, NotificationQueue.texts, hq.contents, hcontents, hq'.contents]
  · rw [hq'.dropped, hq.dropped]

theorem inTurn_queueGotify (hlength : 1 < messageMax) (h : Conserved maxAttempts s f)
    (hs : s.InTurn) {message : CString} {acquired : Bool}
    (hstep : s.queueGotify message acquired = some t) : t.InTurn := by
  rcases queueGotify_cases hstep with ⟨-, rfl⟩ | ⟨-, -, rfl⟩ | ⟨-, -, pending, kept, hpush, rfl⟩
  · exact ⟨hs.present, hs.gone⟩
  · exact ⟨hs.present, hs.gone⟩
  · refine ⟨hs.present, ?_⟩
    obtain ⟨gone, displaced, hkept, hgone, hdropped⟩ := hs.gone
    obtain ⟨more, htexts, hmore⟩ := pushed_texts hlength h.queue hpush
    refine ⟨gone ++ more, displaced + more.length, ?_, ?_, ?_⟩
    · show (s.accepted ++ [message]).map (fun m => m.text.take (messageMax - 1)) =
        gone ++ more ++ pending.texts
      rw [List.map_append, List.append_assoc, ← htexts, ← List.append_assoc, ← hkept]
      rfl
    · show (gone ++ more).length = s.taken.length + (displaced + more.length)
      rw [List.length_append, hgone, Nat.add_assoc]
    · show pending.dropped = UInt32.ofNat (displaced + more.length)
      rw [hmore, hdropped, UInt32.ofNat_add]

theorem inTurn_takeNextMessage (h : Conserved maxAttempts s f) (hs : s.InTurn)
    (hstep : s.takeNextMessage = some t) : t.InTurn := by
  obtain ⟨hworker, ⟨-, rfl⟩ | ⟨husable, pending, message, htaken, rfl⟩⟩ :=
    takeNextMessage_cases hstep
  · exact ⟨by simp, hs.gone⟩
  · refine ⟨by simp, ?_⟩
    obtain ⟨gone, displaced, hkept, hgone, hdropped⟩ := hs.gone
    have hidle : s.job = none := h.atWork.idle (by rw [hworker]; rfl)
    obtain ⟨text, htexts, hsame⟩ := popped_texts h.queue husable htaken
    refine ⟨gone ++ [text], displaced, ?_, ?_, ?_⟩
    · show s.kept = gone ++ [text] ++ pending.texts
      rw [hkept, htexts, List.append_cons]
    · rw [taken, hidle] at hgone
      simp only [List.length_append, List.length_map] at hgone
      simp [taken, hgone]
      omega
    · show pending.dropped = UInt32.ofNat displaced
      rw [hsame, hdropped]

theorem inTurn_pushGotify (hs : s.InTurn) {ok : Bool}
    (hstep : s.pushGotify maxAttempts ok = some t) : t.InTurn := by
  obtain ⟨attempt, job, -, hjob, hcases⟩ := pushGotify_cases hstep
  obtain ⟨gone, displaced, hkept, hgone, hdropped⟩ := hs.gone
  have htaken : s.taken.length = s.jobs.length + 1 := by simp [taken, hjob]
  rw [htaken] at hgone
  rcases hcases with ⟨-, rfl⟩ | ⟨-, -, rfl⟩ | ⟨-, -, rfl⟩
  · refine ⟨by simp, gone, displaced, hkept, ?_, hdropped⟩
    simpa [taken] using hgone
  · refine ⟨by simp, gone, displaced, hkept, ?_, hdropped⟩
    simpa [taken] using hgone
  · refine ⟨by simp, gone, displaced, hkept, ?_, hdropped⟩
    simpa [taken] using hgone

theorem inTurn_step (hlength : 1 < messageMax) (h : Conserved maxAttempts s f) (hs : s.InTurn)
    {a : Action} (hstep : s.step maxAttempts a = some t) : t.InTurn := by
  cases a with
  | queueGotify message acquired => exact inTurn_queueGotify hlength h hs hstep
  | takeNextMessage => exact inTurn_takeNextMessage h hs hstep
  | wake =>
    obtain ⟨-, rfl⟩ := wake_cases hstep
    exact ⟨by simp, hs.gone⟩
  | pushGotify ok => exact inTurn_pushGotify hs hstep
  | retry =>
    obtain ⟨attempt, -, rfl⟩ := retry_cases hstep
    exact ⟨by simp, hs.gone⟩

/-- What comes in later makes nobody wait longer. -/
theorem left_queueGotify (hlength : 1 < messageMax) (h : Conserved maxAttempts s f)
    {message : CString} {acquired : Bool} (hstep : s.queueGotify message acquired = some t) :
    s.accepted.length ≤ t.accepted.length ∧ t.left maxAttempts n ≤ s.left maxAttempts n := by
  rcases queueGotify_cases hstep with ⟨-, rfl⟩ | ⟨-, -, rfl⟩ | ⟨-, -, pending, kept, hpush, rfl⟩
  · exact ⟨Nat.le_refl _, Nat.le_refl _⟩
  · exact ⟨Nat.le_refl _, Nat.le_refl _⟩
  · obtain ⟨more, htexts, -⟩ := pushed_texts hlength h.queue hpush
    have hcount : pending.count ≤ s.pending.count + 1 := by
      have hlengths := congrArg List.length htexts
      simp only [List.length_append, NotificationQueue.texts_length,
        List.length_singleton] at hlengths
      omega
    have haccepted : (s.accepted ++ [message]).length = s.accepted.length + 1 := by simp
    constructor
    · rw [haccepted]
      exact Nat.le_succ _
    · refine Nat.add_le_add_right (Nat.mul_le_mul_right _ ?_) _
      show n + pending.count - (s.accepted ++ [message]).length ≤
        n + s.pending.count - s.accepted.length
      omega

/-- One message fewer waits, and the worker has all its attempts before it. -/
theorem left_takeNextMessage (hlength : 1 < messageMax) (h : Conserved maxAttempts s f)
    (hn : n ≤ s.accepted.length) (hstep : s.takeNextMessage = some t) :
    t.accepted = s.accepted ∧ (s.Settled n ∨ t.left maxAttempts n + 1 ≤ s.left maxAttempts n) := by
  obtain ⟨hworker, hcases⟩ := takeNextMessage_cases hstep
  have hidle : s.job = none := h.atWork.idle (by rw [hworker]; rfl)
  rcases hcases with ⟨hunusable, rfl⟩ | ⟨husable, pending, message, htaken, rfl⟩
  · have hempty : s.pending.count = 0 := by omega
    exact ⟨rfl, Or.inl ⟨hidle, by omega⟩⟩
  · refine ⟨rfl, ?_⟩
    obtain ⟨text, htexts, -⟩ := popped_texts h.queue husable htaken
    have hcount : s.pending.count = pending.count + 1 := by
      have hlengths := congrArg List.length htexts
      simpa using hlengths
    by_cases hsettled : n + s.pending.count ≤ s.accepted.length
    · exact Or.inl ⟨hidle, hsettled⟩
    · right
      have hfewer : n + s.pending.count - s.accepted.length =
          n + pending.count - s.accepted.length + 1 := by omega
      have hone : (1 : UInt8).toNat = 1 := rfl
      have hallowed := allowed_pos maxAttempts
      simp only [left, hworker, hfewer, Worker.left, Nat.add_mul]
      omega

omit [NeZero depth] in
theorem left_pushGotify {ok : Bool} (hstep : s.pushGotify maxAttempts ok = some t) :
    t.accepted = s.accepted ∧ t.left maxAttempts n + 1 ≤ s.left maxAttempts n := by
  obtain ⟨attempt, job, hworker, -, hcases⟩ := pushGotify_cases hstep
  rcases hcases with ⟨-, rfl⟩ | ⟨-, -, rfl⟩ | ⟨-, -, rfl⟩
  · simp only [left, hworker, Worker.left, true_and]
    omega
  · simp only [left, hworker, Worker.left, true_and]
    omega
  · simp only [left, hworker, Worker.left, true_and]
    omega

/-- Behind a delay there is an attempt left. -/
theorem left_retry (h : Conserved maxAttempts s f) (hstep : s.retry = some t) :
    t.accepted = s.accepted ∧ t.left maxAttempts n + 1 ≤ s.left maxAttempts n := by
  obtain ⟨attempt, hworker, rfl⟩ := retry_cases hstep
  have hwork := h.atWork
  rw [AtWork, hworker] at hwork
  obtain ⟨j, tried, -, -, hlt, hattempt, -⟩ := hwork
  have hnext : (attempt + 1).toNat = attempt.toNat + 1 := by
    -- the limit is an 8-bit number
    have hbound := maxAttempts.toNat_lt
    have hone : (1 : UInt8).toNat = 1 := rfl
    simp only [allowed] at hlt
    rw [UInt8.toNat_add]
    omega
  simp only [left, hworker, Worker.left, hnext, true_and]
  omega

/-- What holds of the delivery while the first `n` that were accepted are looked at. -/
structure Watched (maxAttempts : UInt8) (n : Nat) (s : Delivery depth messageMax) : Prop where
  conserved : ∃ f, Conserved maxAttempts s f
  inTurn : s.InTurn
  accepted : n ≤ s.accepted.length

/-- Each step of the worker brings it nearer to having settled them, and no call takes it away. -/
theorem watched_step (hlength : 1 < messageMax) (s : Delivery depth messageMax) (a : Action)
    (t : Delivery depth messageMax) (hstep : s.step maxAttempts a = some t)
    (hs : s.Watched maxAttempts n) :
    t.Watched maxAttempts n ∧
      (s.Settled n ∨
        t.left maxAttempts n + (if a.isWorker then 1 else 0) ≤ s.left maxAttempts n) := by
  obtain ⟨f, h⟩ := hs.conserved
  have hconserved := conserved_step hlength s a t hstep hs.conserved
  have hturn := inTurn_step hlength h hs.inTurn hstep
  cases a with
  | queueGotify message acquired =>
    obtain ⟨hmore, hleft⟩ := left_queueGotify hlength h hstep
    exact ⟨⟨hconserved, hturn, hs.accepted.trans hmore⟩, Or.inr hleft⟩
  | takeNextMessage =>
    obtain ⟨hsame, hleft⟩ := left_takeNextMessage hlength h hs.accepted hstep
    exact ⟨⟨hconserved, hturn, hsame ▸ hs.accepted⟩, hleft⟩
  | wake =>
    obtain ⟨hworker, rfl⟩ := wake_cases hstep
    refine ⟨⟨hconserved, hturn, hs.accepted⟩, Or.inr ?_⟩
    simp only [left, hworker]
    rfl
  | pushGotify ok =>
    obtain ⟨hsame, hleft⟩ := left_pushGotify hstep
    exact ⟨⟨hconserved, hturn, hsame ▸ hs.accepted⟩, Or.inr hleft⟩
  | retry =>
    obtain ⟨hsame, hleft⟩ := left_retry h hstep
    exact ⟨⟨hconserved, hturn, hsame ▸ hs.accepted⟩, Or.inr hleft⟩

theorem Watched.can_go_on (hlength : 1 < messageMax) (hs : s.Watched maxAttempts n) :
    ∃ a : Action, a.isWorker = true ∧ (s.step maxAttempts a).isSome = true := by
  obtain ⟨f, h⟩ := hs.conserved
  obtain ⟨-, htake | hwake | hpush | hretry | habsent⟩ := never_stuck hlength h
  · exact ⟨.takeNextMessage, rfl, htake⟩
  · exact ⟨.wake, rfl, hwake⟩
  · exact ⟨.pushGotify true, rfl, hpush true⟩
  · exact ⟨.retry, rfl, hretry⟩
  · exact absurd habsent hs.inTurn.present

/-- What has become of them by then. -/
theorem Watched.settled (hs : s.Watched maxAttempts n) (h : s.Settled n) :
    ∃ gone displaced, s.kept = gone ++ s.pending.texts ∧ n ≤ gone.length ∧
      (s.jobs.map Job.text).Sublist gone ∧ gone.length = s.jobs.length + displaced ∧
      s.pending.dropped = UInt32.ofNat displaced ∧ ∀ j ∈ s.jobs, j.Finished maxAttempts := by
  obtain ⟨f, hconserved⟩ := hs.conserved
  obtain ⟨gone, displaced, hkept, hgone, hdropped⟩ := hs.inTurn.gone
  obtain ⟨hidle, hfew⟩ := h
  have htaken : s.taken = s.jobs.map Job.text := by simp [taken, hidle]
  have horder := hconserved.order
  rw [hkept, ← hconserved.queue.contents, htaken] at horder
  have hlengths := congrArg List.length hkept
  simp only [kept, List.length_append, List.length_map, NotificationQueue.texts_length]
    at hlengths
  refine ⟨gone, displaced, hkept, by omega, (List.append_sublist_append_right _).mp horder, ?_,
    hdropped, hconserved.finished⟩
  rw [hgone, htaken, List.length_map]

/-- A full queue and all the attempts of the message in hand. -/
theorem left_le (h : Conserved maxAttempts s f) :
    s.left maxAttempts s.accepted.length ≤ 2 * allowed maxAttempts * (depth + 1) := by
  have hallowed := allowed_pos maxAttempts
  have hworker : s.worker.left (allowed maxAttempts) ≤ 2 * allowed maxAttempts := by
    have hwork := h.atWork
    rw [AtWork] at hwork
    cases hline : s.worker with
    | pushing attempt =>
      rw [hline] at hwork
      obtain ⟨j, tried, -, -, -, hattempt, -⟩ := hwork
      simp only [Worker.left]
      omega
    | backingOff attempt =>
      simp only [Worker.left]
      omega
    | absent | taking | sleeping =>
      simp only [Worker.left]
      omega
  have hcount : s.accepted.length + s.pending.count - s.accepted.length ≤ depth := by
    have := h.queue.count_le
    omega
  calc s.left maxAttempts s.accepted.length
      ≤ depth * (2 * allowed maxAttempts) + 2 * allowed maxAttempts :=
        Nat.add_le_add (Nat.mul_le_mul_right _ hcount) hworker
    _ = 2 * allowed maxAttempts * (depth + 1) := by rw [Nat.mul_comm depth, Nat.mul_succ]

/-- With no step left the worker is at its takeNextMessage, and none of them is in the queue. -/
theorem settled_of_left (h : Conserved maxAttempts s f) (hleft : s.left maxAttempts n = 0) :
    s.Settled n := by
  obtain ⟨hnone, hworker⟩ := Nat.add_eq_zero_iff.mp hleft
  have hallowed := allowed_pos maxAttempts
  have hwork := h.atWork
  rw [AtWork] at hwork
  have hidle : s.job = none := by
    cases hline : s.worker with
    | pushing attempt =>
      rw [hline] at hworker
      cases hworker
    | backingOff attempt =>
      rw [hline] at hworker hwork
      obtain ⟨j, tried, -, -, hlt, hattempt, -⟩ := hwork
      simp only [Worker.left] at hworker
      omega
    | absent | taking | sleeping =>
      rw [hline] at hwork
      exact hwork
  refine ⟨hidle, ?_⟩
  rcases Nat.mul_eq_zero.mp hnone with hqueue | hzero
  · omega
  · omega

/-- Nobody waits forever. Whatever the server answers and however many messages come in meanwhile,
there is always a step that the worker can take, and by the time it has taken
2 * attempts * (depth + 1) steps there was a moment with no message in its hand and none in the
queue of those accepted before: each of them had been delivered or given up, in the order of
acceptance, or had been displaced, and the queue had counted that. -/
theorem messages_settled (hlength : 1 < messageMax) (maxAttempts : UInt8)
    (garbage : Vector UInt8 messageMax) (earlier later : List Action)
    (s t : Delivery depth messageMax)
    (h : Guarded.exec (step maxAttempts) (gotifyBegin true garbage) earlier = some s)
    (hlater : Guarded.exec (step maxAttempts) s later = some t) :
    (∃ a : Action, a.isWorker = true ∧ (s.step maxAttempts a).isSome = true) ∧
    (2 * allowed maxAttempts * (depth + 1) ≤ later.countP Action.isWorker →
      ∃ steps u gone displaced, steps <+: later ∧
        Guarded.exec (step maxAttempts) s steps = some u ∧ u.job = none ∧
        u.kept = gone ++ u.pending.texts ∧ s.accepted.length ≤ gone.length ∧
        (u.jobs.map Job.text).Sublist gone ∧ gone.length = u.jobs.length + displaced ∧
        u.pending.dropped = UInt32.ofNat displaced ∧ ∀ j ∈ u.jobs, j.Finished maxAttempts) := by
  have hboot : (gotifyBegin true garbage : Delivery depth messageMax).Watched maxAttempts 0 :=
    ⟨⟨{}, conserved_begin garbage⟩, inTurn_begin garbage, Nat.zero_le _⟩
  have hreached := Guarded.exec_preserves (Watched maxAttempts 0)
    (fun s a t hstep hs => (watched_step hlength s a t hstep hs).1) h hboot
  have hs : s.Watched maxAttempts s.accepted.length := { hreached with accepted := Nat.le_refl _ }
  refine ⟨hs.can_go_on hlength, ?_⟩
  intro hmany
  rcases Guarded.exec_reaches (Watched maxAttempts s.accepted.length) (Settled s.accepted.length)
      Action.isWorker (left maxAttempts s.accepted.length) (watched_step hlength) hlater hs with
    ⟨early, u, hearly, hu, hwatched, hsettled⟩ | ⟨ht, hrank⟩
  · obtain ⟨gone, displaced, hfate⟩ := hwatched.settled hsettled
    exact ⟨early, u, gone, displaced, hearly, hu, hsettled.1, hfate⟩
  · -- the moment comes with the last of these steps
    obtain ⟨f, hf⟩ := hs.conserved
    obtain ⟨f', hf'⟩ := ht.conserved
    have hleft : t.left maxAttempts s.accepted.length = 0 := by
      have := left_le hf
      omega
    have hsettled := settled_of_left hf' hleft
    obtain ⟨gone, displaced, hfate⟩ := ht.settled hsettled
    exact ⟨later, t, gone, displaced, List.prefix_refl later, hlater, hsettled.1, hfate⟩

/-- The first message is being retried and another one waits. -/
def retrying : List Action :=
  [.queueGotify ⟨[80, 81, 0], by decide⟩ true, .takeNextMessage, .pushGotify false,
    .queueGotify ⟨[82, 0], by decide⟩ true]

/-- The queue fills up and displaces the other one, and the server comes back after the first has
been given up. -/
def busy : List Action :=
  List.replicate 8 (.queueGotify ⟨[83, 0], by decide⟩ true) ++
    [.retry, .pushGotify false, .retry, .pushGotify false] ++
    (List.replicate 8 [.takeNextMessage, .pushGotify true]).flatten ++
    (List.replicate 17 [.takeNextMessage, .wake]).flatten

instance : NeZero Config.gotifyQueueDepth := ⟨by decide⟩

theorem busy_settled :
    ∃ s t u : Delivery Config.gotifyQueueDepth Config.gotifyMessageMax,
      Guarded.exec (step Config.gotifyMaxAttempts) (gotifyBegin true (.replicate _ 7)) retrying =
        some s ∧
      Guarded.exec (step Config.gotifyMaxAttempts) s busy = some t ∧ s.accepted.length = 2 ∧
      ∃ steps gone displaced, steps <+: busy ∧
        Guarded.exec (step Config.gotifyMaxAttempts) s steps = some u ∧ u.job = none ∧
        u.kept = gone ++ u.pending.texts ∧ 2 ≤ gone.length ∧
        gone.length = u.jobs.length + displaced := by
  obtain ⟨s, hs, t, ht, haccepted⟩ :
      ∃ s ∈ Guarded.exec (step Config.gotifyMaxAttempts) (gotifyBegin true (.replicate _ 7) :
        Delivery Config.gotifyQueueDepth Config.gotifyMessageMax) retrying,
        ∃ t ∈ Guarded.exec (step Config.gotifyMaxAttempts) s busy, s.accepted.length = 2 := by
    decide +kernel
  have hmany : 2 * allowed Config.gotifyMaxAttempts * (Config.gotifyQueueDepth + 1) ≤
      busy.countP Action.isWorker := by decide +kernel
  obtain ⟨steps, u, gone, displaced, hsteps, hu, hidle, hkept, hgone, -, hjobs, -⟩ :=
    (messages_settled (by decide) Config.gotifyMaxAttempts _ retrying busy s t hs ht).2 hmany
  exact ⟨s, t, u, hs, ht, haccepted, steps, gone, displaced, hsteps, hu, hidle, hkept,
    haccepted ▸ hgone, hjobs⟩

end Delivery

end Net

end RoomWatchdog
