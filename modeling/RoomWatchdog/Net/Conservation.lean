import RoomWatchdog.Net.Delivery

namespace RoomWatchdog.Net
open NotificationQueue (cString)

/-- The number of times a message is tried at most; even a limit of 0 allows one attempt. -/
def allowed (maxAttempts : UInt8) : Nat := max 1 maxAttempts.toNat

def Worker.held : Worker → Nat
  | .pushing _ => 1
  | .backingOff _ => 1
  | _ => 0

/-- A job whose `n` attempts so far have failed. -/
def Job.Trying (j : Job) (n : Nat) : Prop :=
  j.attempts = List.replicate n (j.text, false) ∧ j.givenUp = 0

/-- A job that ended with its first success, or with its last allowed failure and one count. -/
def Job.Finished (maxAttempts : UInt8) (j : Job) : Prop :=
  (∃ n < allowed maxAttempts,
    j.attempts = List.replicate n (j.text, false) ++ [(j.text, true)] ∧ j.givenUp = 0) ∨
  j.attempts = List.replicate (allowed maxAttempts) (j.text, false) ∧ j.givenUp = 1

def Job.successes (j : Job) : List (List UInt8) :=
  j.attempts.filterMap fun (text, ok) => if ok then some text else none

theorem Job.Trying.successes {j : Job} {n : Nat} (h : j.Trying n) : j.successes = [] := by
  rw [Job.successes, h.1, List.filterMap_replicate]
  rfl

theorem Job.Finished.successes {maxAttempts : UInt8} {j : Job} (h : j.Finished maxAttempts) :
    j.successes.Sublist [j.text] := by
  rcases h with ⟨n, -, hattempts, -⟩ | ⟨hattempts, -⟩
  · simp [Job.successes, hattempts]
  · simp [Job.successes, hattempts]

/-- A finished message is either delivered or counted, and only once. -/
theorem Job.Finished.once {maxAttempts : UInt8} {j : Job} (h : j.Finished maxAttempts) :
    j.successes.length + j.givenUp = 1 := by
  rcases h with ⟨n, -, hattempts, hgivenUp⟩ | ⟨hattempts, hgivenUp⟩
  · simp [Job.successes, hattempts, hgivenUp]
  · simp [Job.successes, hattempts, hgivenUp]

namespace Delivery

variable {depth messageMax : Nat} [NeZero depth] {maxAttempts : UInt8}
  {s t : Delivery depth messageMax} {f : DropOldest}

/-- The worker's place in its loop, its buffer and the job at hand agree. -/
def AtWork (maxAttempts : UInt8) (s : Delivery depth messageMax) : Prop :=
  match s.worker with
  | .pushing attempt => ∃ j n, s.job = some j ∧ j.Trying n ∧ n < allowed maxAttempts ∧
      attempt.toNat = n + 1 ∧ cString s.message = j.text
  | .backingOff attempt => ∃ j n, s.job = some j ∧ j.Trying n ∧ n < allowed maxAttempts ∧
      attempt.toNat = n ∧ cString s.message = j.text
  | _ => s.job = none

omit [NeZero depth] in
/-- The worker holds a message exactly while it has a job, which has only failed so far. -/
theorem AtWork.cases (h : s.AtWork maxAttempts) :
    s.job = none ∧ s.worker.held = 0 ∨
    ∃ j n, s.job = some j ∧ s.worker.held = 1 ∧ j.Trying n ∧ n < allowed maxAttempts := by
  simp only [AtWork] at h
  cases hworker : s.worker with
  | pushing attempt =>
    rw [hworker] at h
    obtain ⟨j, n, hjob, htrying, hlt, -⟩ := h
    exact Or.inr ⟨j, n, hjob, rfl, htrying, hlt⟩
  | backingOff attempt =>
    rw [hworker] at h
    obtain ⟨j, n, hjob, htrying, hlt, -⟩ := h
    exact Or.inr ⟨j, n, hjob, rfl, htrying, hlt⟩
  | absent =>
    rw [hworker] at h
    exact Or.inl ⟨h, rfl⟩
  | taking =>
    rw [hworker] at h
    exact Or.inl ⟨h, rfl⟩
  | sleeping =>
    rw [hworker] at h
    exact Or.inl ⟨h, rfl⟩

omit [NeZero depth] in
theorem AtWork.idle (h : s.AtWork maxAttempts) (hworker : s.worker.held = 0) : s.job = none := by
  rcases h.cases with ⟨hjob, -⟩ | ⟨j, n, -, hheld, -⟩
  · exact hjob
  · rw [hworker] at hheld
    cases hheld

/-- Every call is in one place: delivered, discarded from the queue, counted as
undeliverable, queued or held. -/
structure Conserved (maxAttempts : UInt8) (s : Delivery depth messageMax) (f : DropOldest) :
    Prop where
  lock : s.queueLock = true
  queue : s.pending.Refines f
  order : (s.taken ++ f.contents).Sublist s.kept
  atWork : s.AtWork maxAttempts
  finished : ∀ j ∈ s.jobs, j.Finished maxAttempts
  balance : ∃ dropped undeliverable, f.dropped = UInt32.ofNat dropped ∧
    s.undeliverable = UInt32.ofNat undeliverable ∧
    s.calls = (s.jobs.flatMap Job.successes).length + dropped + undeliverable +
      f.contents.length + s.worker.held

theorem conserved_begin (garbage : Vector UInt8 messageMax) :
    Conserved maxAttempts (gotifyBegin true garbage : Delivery depth messageMax) {} where
  lock := rfl
  queue := NotificationQueue.refines_empty
  order := List.Sublist.refl _
  atWork := rfl
  finished := by simp [gotifyBegin]
  balance := ⟨0, 0, rfl, rfl, rfl⟩

theorem ofNat_succ (n : Nat) : UInt32.ofNat (n + 1) = UInt32.ofNat n + 1 := UInt32.ofNat_add n 1

theorem conserved_queueGotify (hlength : 1 < messageMax) (h : Conserved maxAttempts s f)
    {message : CString} {acquired : Bool} (hstep : s.queueGotify message acquired = some t) :
    ∃ f', Conserved maxAttempts t f' := by
  obtain ⟨dropped, undeliverable, hdropped, hundeliverable, hcalls⟩ := h.balance
  rcases queueGotify_cases hstep with ⟨hlock, -⟩ | ⟨-, -, rfl⟩ | ⟨-, -, pending, kept, hpush, rfl⟩
  · rw [h.lock] at hlock
    cases hlock
  · refine ⟨f, h.lock, h.queue, h.order, h.atWork, h.finished,
      dropped, undeliverable + 1, hdropped, ?_, ?_⟩
    · rw [ofNat_succ, ← hundeliverable]
    · show s.calls + 1 = (s.jobs.flatMap Job.successes).length + dropped + (undeliverable + 1) +
        f.contents.length + s.worker.held
      omega
  · obtain ⟨q', hq, hq'⟩ := NotificationQueue.push_refines hlength h.queue (some message)
    obtain ⟨rfl, -⟩ := Prod.mk.inj (Option.some.inj (hq.symm.trans hpush))
    have hkept : ∀ contents : List (List UInt8), contents.Sublist f.contents →
        (s.taken ++ (contents ++ [message.text.take (messageMax - 1)])).Sublist
          ((s.accepted ++ [message]).map fun m => m.text.take (messageMax - 1)) := by
      intro contents hsub
      rw [← List.append_assoc, List.map_append]
      exact (((List.Sublist.refl _).append hsub).trans h.order).append (List.Sublist.refl _)
    simp only [DropOldest.push] at hq'
    by_cases hfull : f.contents.length = depth
    · rw [if_pos hfull] at hq'
      refine ⟨_, h.lock, hq', hkept _ (List.tail_sublist _), h.atWork, h.finished,
        dropped + 1, undeliverable, ?_, hundeliverable, ?_⟩
      · rw [ofNat_succ, ← hdropped]
      · -- the new message stands where the oldest one was
        have hpos := Nat.pos_of_neZero depth
        show s.calls + 1 = (s.jobs.flatMap Job.successes).length + (dropped + 1) + undeliverable +
          (f.contents.tail ++ [message.text.take (messageMax - 1)]).length + s.worker.held
        rw [List.length_append, List.length_tail, List.length_singleton]
        omega
    · rw [if_neg hfull] at hq'
      refine ⟨_, h.lock, hq', hkept _ (List.Sublist.refl _), h.atWork, h.finished,
        dropped, undeliverable, hdropped, hundeliverable, ?_⟩
      show s.calls + 1 = (s.jobs.flatMap Job.successes).length + dropped + undeliverable +
        (f.contents ++ [message.text.take (messageMax - 1)]).length + s.worker.held
      rw [List.length_append, List.length_singleton]
      omega

theorem conserved_takeNextMessage (h : Conserved maxAttempts s f)
    (hstep : s.takeNextMessage = some t) : ∃ f', Conserved maxAttempts t f' := by
  obtain ⟨dropped, undeliverable, hdropped, hundeliverable, hcalls⟩ := h.balance
  obtain ⟨hworker, hcases⟩ := takeNextMessage_cases hstep
  have hidle : s.job = none := h.atWork.idle (by rw [hworker]; rfl)
  rcases hcases with ⟨-, rfl⟩ | ⟨husable, pending, message, htaken, rfl⟩
  · refine ⟨f, h.lock, h.queue, h.order, hidle, h.finished, dropped, undeliverable, hdropped,
      hundeliverable, ?_⟩
    rw [hworker] at hcalls
    exact hcalls
  · have hwhole : (Out.whole s.message).pointer = some s.message := rfl
    obtain ⟨hcount, hsize⟩ := not_or.mp husable
    obtain ⟨q', buffer, text, rest, hcontents, hpop, hbuffer, htext, hq'⟩ :=
      NotificationQueue.pop_usable h.queue hwhole hcount hsize
    obtain ⟨rfl, hanswer⟩ := Prod.mk.inj (Option.some.inj (hpop.symm.trans htaken))
    obtain rfl := Option.some.inj (Prod.mk.inj hanswer).2
    have horder := h.order
    rw [taken, hidle, hcontents] at horder
    have hfits : text.length ≤ messageMax - 1 := by
      have hmem : text ∈ s.kept := horder.subset (by simp)
      obtain ⟨m, -, rfl⟩ := List.mem_map.mp hmem
      exact List.length_take_le _ _
    have htake : text.take ((Out.whole s.message).outSize - 1) = text :=
      List.take_of_length_le hfits
    rw [htake] at hbuffer htext
    have hmessage := (NotificationQueue.cString_overwritten hbuffer htext).1
    refine ⟨_, h.lock, hq', ?_, ?_, h.finished, dropped, undeliverable, hdropped,
      hundeliverable, ?_⟩
    · rw [hmessage]
      simpa [taken, kept] using horder
    · have hpos : 0 < allowed maxAttempts := Nat.lt_of_lt_of_le Nat.zero_lt_one (Nat.le_max_left _ _)
      exact ⟨_, 0, rfl, ⟨rfl, rfl⟩, hpos, rfl, rfl⟩
    · rw [hworker, hcontents] at hcalls
      exact hcalls

theorem conserved_wake (h : Conserved maxAttempts s f) (hstep : s.wake = some t) :
    Conserved maxAttempts t f := by
  obtain ⟨hworker, rfl⟩ := wake_cases hstep
  have hidle : s.job = none := h.atWork.idle (by rw [hworker]; rfl)
  have hbalance := h.balance
  rw [hworker] at hbalance
  exact ⟨h.lock, h.queue, h.order, hidle, h.finished, hbalance⟩

theorem conserved_retry (h : Conserved maxAttempts s f) (hstep : s.retry = some t) :
    Conserved maxAttempts t f := by
  obtain ⟨attempt, hworker, rfl⟩ := retry_cases hstep
  have hwork := h.atWork
  rw [AtWork, hworker] at hwork
  obtain ⟨j, n, hjob, htrying, hlt, hattempt, hmessage⟩ := hwork
  have hbalance := h.balance
  rw [hworker] at hbalance
  refine ⟨h.lock, h.queue, h.order, ⟨j, n, hjob, htrying, hlt, ?_, hmessage⟩, h.finished, hbalance⟩
  -- the limit is an 8-bit number, so the attempt counter does not wrap
  have hbound := maxAttempts.toNat_lt
  simp only [allowed] at hlt
  rw [UInt8.toNat_add]
  have hone : (1 : UInt8).toNat = 1 := rfl
  omega

/-- A job that ends moves to the finished ones, frees the worker and is counted once. -/
theorem conserved_end (h : Conserved maxAttempts s f) {j j' : Job} {attempt : UInt8}
    (hworker : s.worker = .pushing attempt) (hjob : s.job = some j)
    (hfinished : j'.Finished maxAttempts) (htext : j'.text = j.text) :
    Conserved maxAttempts { s with
      undeliverable := s.undeliverable + UInt32.ofNat j'.givenUp, worker := .taking,
      jobs := s.jobs ++ [j'], job := none } f := by
  obtain ⟨dropped, undeliverable, hdropped, hundeliverable, hcalls⟩ := h.balance
  have honce := hfinished.once
  refine ⟨h.lock, h.queue, ?_, rfl, ?_, dropped, undeliverable + j'.givenUp, hdropped, ?_, ?_⟩
  · have horder := h.order
    rw [taken, hjob] at horder
    simpa [taken, kept, htext] using horder
  · intro k hk
    rcases List.mem_append.mp hk with hold | hnew
    · exact h.finished k hold
    · rw [List.mem_singleton.mp hnew]
      exact hfinished
  · rw [UInt32.ofNat_add, ← hundeliverable]
  · rw [hworker] at hcalls
    show s.calls = ((s.jobs ++ [j']).flatMap Job.successes).length + dropped +
      (undeliverable + j'.givenUp) + f.contents.length + 0
    rw [List.flatMap_append, List.length_append, List.flatMap_singleton, hcalls]
    simp only [Worker.held]
    omega

/-- A failed attempt that is not the last one keeps the job. -/
theorem conserved_backOff (h : Conserved maxAttempts s f) {j j' : Job} {attempt : UInt8} {n : Nat}
    (hworker : s.worker = .pushing attempt) (hjob : s.job = some j) (htrying : j'.Trying n)
    (hlt : n < allowed maxAttempts) (hattempt : attempt.toNat = n)
    (hmessage : cString s.message = j'.text) (htext : j'.text = j.text) :
    Conserved maxAttempts { s with worker := .backingOff attempt, job := some j' } f := by
  have hbalance := h.balance
  rw [hworker] at hbalance
  refine ⟨h.lock, h.queue, ?_, ⟨j', n, rfl, htrying, hlt, hattempt, hmessage⟩, h.finished, hbalance⟩
  have horder := h.order
  rw [taken, hjob] at horder
  simpa [taken, kept, htext] using horder

theorem conserved_pushGotify (h : Conserved maxAttempts s f) {ok : Bool}
    (hstep : s.pushGotify maxAttempts ok = some t) : Conserved maxAttempts t f := by
  obtain ⟨attempt, job, hworker, hjob, hcases⟩ := pushGotify_cases hstep
  have hwork := h.atWork
  rw [AtWork, hworker] at hwork
  obtain ⟨j, n, hj, htrying, hlt, hattempt, hmessage⟩ := hwork
  obtain rfl : j = job := Option.some.inj (hj.symm.trans hjob)
  have hmore : ∀ ok, j.attempts ++ [(cString s.message, ok)] =
      List.replicate n (j.text, false) ++ [(j.text, ok)] := by
    intro ok
    rw [htrying.1, hmessage]
  have hrepeat : j.attempts ++ [(cString s.message, false)] =
      List.replicate (n + 1) (j.text, false) := by
    rw [hmore, List.replicate_succ']
  rcases hcases with ⟨rfl, rfl⟩ | ⟨rfl, hlast, rfl⟩ | ⟨rfl, hlast, rfl⟩
  · have hfinished : Job.Finished maxAttempts
        { j with attempts := j.attempts ++ [(cString s.message, true)] } :=
      Or.inl ⟨n, hlt, hmore true, htrying.2⟩
    have hend := conserved_end h hworker hjob hfinished rfl
    simp only [htrying.2, UInt32.reduceOfNat, UInt32.add_zero] at hend
    simp only [htrying.2]
    exact hend
  · have hall : n + 1 = allowed maxAttempts := by
      have hle := UInt8.le_iff_toNat_le.mp hlast
      simp only [allowed] at hlt ⊢
      omega
    have hfinished : Job.Finished maxAttempts
        { j with attempts := j.attempts ++ [(cString s.message, false)],
                 givenUp := j.givenUp + 1 } :=
      Or.inr ⟨hall ▸ hrepeat, congrArg (· + 1) htrying.2⟩
    have hend := conserved_end h hworker hjob hfinished rfl
    simp only [htrying.2, Nat.zero_add] at hend
    simp only [htrying.2]
    exact hend
  · have hbelow : n + 1 < allowed maxAttempts := by
      have hlt' := UInt8.lt_iff_toNat_lt.mp (UInt8.not_le.mp hlast)
      simp only [allowed]
      omega
    exact conserved_backOff h hworker hjob ⟨hrepeat, htrying.2⟩ hbelow hattempt hmessage rfl

theorem conserved_step (hlength : 1 < messageMax) (s : Delivery depth messageMax) (a : Action)
    (t : Delivery depth messageMax) (hstep : s.step maxAttempts a = some t)
    (h : ∃ f, Conserved maxAttempts s f) : ∃ f, Conserved maxAttempts t f := by
  obtain ⟨f, h⟩ := h
  cases a with
  | queueGotify message acquired => exact conserved_queueGotify hlength h hstep
  | takeNextMessage => exact conserved_takeNextMessage h hstep
  | wake => exact ⟨f, conserved_wake h hstep⟩
  | pushGotify ok => exact ⟨f, conserved_pushGotify h hstep⟩
  | retry => exact ⟨f, conserved_retry h hstep⟩

/-- What was delivered is what the finished jobs delivered. -/
theorem delivered_eq (h : Conserved maxAttempts s f) : s.delivered = s.jobs.flatMap Job.successes := by
  have hhand : s.job.toList.flatMap Job.successes = [] := by
    rcases h.atWork.cases with ⟨hjob, -⟩ | ⟨j, n, hjob, -, htrying, -⟩
    · simp [hjob]
    · simp [hjob, htrying.successes]
  simp only [delivered]
  rw [List.filterMap_flatMap]
  show (s.jobs ++ s.job.toList).flatMap Job.successes = _
  rw [List.flatMap_append, hhand, List.append_nil]

theorem delivered_sublist (h : Conserved maxAttempts s f) : s.delivered.Sublist s.taken := by
  have hjobs : ∀ jobs : List Job, (∀ j ∈ jobs, j.Finished maxAttempts) →
      (jobs.flatMap Job.successes).Sublist (jobs.map Job.text) := by
    intro jobs hall
    induction jobs with
    | nil => exact List.Sublist.refl _
    | cons j jobs ih =>
      have hhead := (hall j List.mem_cons_self).successes
      have htail := ih fun k hk => hall k (List.mem_cons_of_mem j hk)
      exact hhead.append htail
  rw [delivered_eq h, taken, List.map_append]
  exact (hjobs s.jobs h.finished).trans (List.sublist_append_left _ _)

/-- No copy goes wrong: callers can always queue, and the worker can always go on. -/
theorem never_stuck (hlength : 1 < messageMax) (h : Conserved maxAttempts s f) :
    (∀ message acquired, (s.queueGotify message acquired).isSome) ∧
    (s.takeNextMessage.isSome ∨ s.wake.isSome ∨ (∀ ok, (s.pushGotify maxAttempts ok).isSome) ∨
      s.retry.isSome ∨ s.worker = .absent) := by
  constructor
  · intro message acquired
    obtain ⟨q', hpush, -⟩ := NotificationQueue.push_refines hlength h.queue (some message)
    cases acquired <;> simp [queueGotify, h.lock, hpush]
  · have hwork := h.atWork
    simp only [AtWork] at hwork
    cases hworker : s.worker with
    | absent => simp
    | taking =>
      left
      obtain ⟨q', buffer, hpop, -⟩ := NotificationQueue.pop_refines h.queue (.whole s.message)
      simp only [takeNextMessage, hworker, hpop, Option.bind_eq_bind, Option.bind_some]
      split <;> rfl
    | sleeping => simp [wake, hworker]
    | pushing attempt =>
      rw [hworker] at hwork
      obtain ⟨j, n, hjob, -⟩ := hwork
      refine Or.inr (Or.inr (Or.inl fun ok => ?_))
      simp only [pushGotify, hworker, hjob]
      split_ifs <;> rfl
    | backingOff attempt => simp [retry, hworker]

/-- At every point of every interleaving each call is accounted for, the messages pushed and
those still queued are in the order of acceptance and each there once, and each message
taken is tried until its first success or its last allowed failure, which is counted. -/
theorem pushes_conserved (hlength : 1 < messageMax) (maxAttempts : UInt8)
    (garbage : Vector UInt8 messageMax) (actions : List Action) (s : Delivery depth messageMax)
    (h : Guarded.exec (step maxAttempts) (gotifyBegin true garbage) actions = some s) :
    UInt32.ofNat s.calls = UInt32.ofNat s.delivered.length + s.pending.dropped + s.undeliverable +
      UInt32.ofNat s.pending.size + UInt32.ofNat s.worker.held ∧
    s.delivered.Sublist s.taken ∧
    (s.taken ++ s.pending.live.map cString).Sublist s.kept ∧
    (∀ j ∈ s.jobs, j.Finished maxAttempts) ∧
    s.job.toList.length = s.worker.held ∧
    ∀ j ∈ s.job, ∃ n < allowed maxAttempts, j.Trying n := by
  obtain ⟨f, hs⟩ := Guarded.exec_preserves (fun s => ∃ f, Conserved maxAttempts s f)
    (conserved_step hlength) h ⟨{}, conserved_begin garbage⟩
  refine ⟨?_, delivered_sublist hs, hs.queue.contents ▸ hs.order, hs.finished, ?_, ?_⟩
  · obtain ⟨dropped, undeliverable, hdropped, hundeliverable, hcalls⟩ := hs.balance
    have hsize : s.pending.size = f.contents.length := hs.queue.count
    rw [delivered_eq hs, hs.queue.dropped, hdropped, hundeliverable, hsize, hcalls]
    simp only [UInt32.ofNat_add]
  · rcases hs.atWork.cases with ⟨hjob, hheld⟩ | ⟨j, n, hjob, hheld, -⟩
    · rw [hjob, hheld]
      rfl
    · rw [hjob, hheld]
      rfl
  · rcases hs.atWork.cases with ⟨hjob, -⟩ | ⟨j, n, hjob, -, htrying, hlt⟩
    · simp [hjob]
    · rw [hjob]
      intro j hj
      cases hj
      exact ⟨n, hlt, htrying⟩

/-- The first message is taken before the second call, the third call fails to lock, and the
server is back at the second attempt. -/
def recoveredDelivery : List Action :=
  [.queueGotify ⟨[65, 66, 0], by decide⟩ true, .takeNextMessage, .pushGotify false,
    .queueGotify ⟨[67, 0], by decide⟩ true, .queueGotify ⟨[0], by decide⟩ false, .retry,
    .pushGotify true]

theorem recovered_delivery_conserved :
    ∃ s : Delivery Config.gotifyQueueDepth Config.gotifyMessageMax,
      Guarded.exec (step Config.gotifyMaxAttempts) (gotifyBegin true (.replicate _ 7))
        recoveredDelivery = some s ∧
      s.calls = 3 ∧ s.delivered = [[65, 66]] ∧ s.undeliverable = 1 ∧
      UInt32.ofNat s.calls = UInt32.ofNat s.delivered.length + s.pending.dropped +
        s.undeliverable + UInt32.ofNat s.pending.size + UInt32.ofNat s.worker.held := by
  have : NeZero Config.gotifyQueueDepth := ⟨by decide⟩
  obtain ⟨s, hrun⟩ : ∃ s : Delivery Config.gotifyQueueDepth Config.gotifyMessageMax,
      Guarded.exec (step Config.gotifyMaxAttempts) (gotifyBegin true (.replicate _ 7))
        recoveredDelivery = some s := ⟨_, rfl⟩
  have hbalance := (pushes_conserved (by decide) Config.gotifyMaxAttempts _ recoveredDelivery s hrun).1
  obtain rfl := Option.some.inj hrun
  exact ⟨_, rfl, rfl, rfl, rfl, hbalance⟩

end Delivery

end RoomWatchdog.Net
