import Realm.Worker.Refinement

/-!
# The worker gets its work done

Whatever is under way is finished in a bounded number of steps: every step of the worker, and
every step in which the event loop goes on with what it has begun or takes a result, leaves
less work, and there is such a step until nothing is under way.
-/

namespace Realm

open List

namespace LoopThread

/-- What the event loop has yet to do. -/
def work : LoopThread → ℕ
  | starting => 22
  | reading => 1
  | committing jobs => 21 * jobs.length + 1
  | answering => 1
  | sealing _ => 21
  | serving | failed _ | ended => 0

end LoopThread

namespace WorkerThread

/-- What the worker has yet to do with what it has in hand. -/
def work : WorkerThread → ℕ
  | spawning _ => 18
  | handing => 17
  | requesting => 16
  | notifyingRequest => 13
  | awaiting => 10
  | writing _ => 9
  | sending _ => 8
  | notifying _ => 4
  | receiving | stopped | aborted => 0

end WorkerThread

namespace WorkerSystem

variable {s : WorkerSystem} {result : WorkerResult} {rest : List WorkerResult}

/-- The work under way.  A message outweighs all that comes of it. -/
def work (s : WorkerSystem) : ℕ :=
  s.loop.work + 20 * s.shared.messages.length + s.thread.work + s.shared.results.length +
    2 * s.shared.eventFd + s.handle.pendingResultNotifications

/-- Every committed job has its result and every request its answer, and all results were taken. -/
def Settled (s : WorkerSystem) : Prop :=
  s.sent.countP WorkerResult.isProcess = s.committed.length ∧
    s.sent.count .snapshotRequested = s.answered ∧ s.shared.snapshotReply = [] ∧
    s.shared.results = []

theorem settled_of_idle (hs : s.Sound) (hloop : s.loop.tally.unsent = 0 ∧ s.loop.tally.answers = 0)
    (hresults : s.shared.results = []) (hmessages : s.shared.messages = [])
    (hthread : s.thread = .receiving ∨ s.thread = .stopped) : s.Settled := by
  have hb := hs.balanced
  have hidle : s.thread.tally.launches = 0 ∧ s.thread.tally.asks = 0 := by
    obtain h | h := hthread <;> rw [h] <;> exact ⟨rfl, rfl⟩
  have hjobs := hb.jobs
  have hanswers := hb.answers
  have hrequest := hb.request
  simp only [unanswered, hloop, hmessages, hresults, hidle, countP_nil, count_nil]
    at hjobs hanswers hrequest
  exact ⟨by omega, by omega, length_eq_zero_iff.1 (by omega), hresults⟩

theorem work_serviceResult (h : s.loop = .serving) (hr : s.shared.results = result :: rest)
    (hpos : 0 < s.handle.pendingResultNotifications) (now : ℕ) :
    ((s.received rest).serviceResult now result).work < s.work := by
  have hreceived : (s.received rest).work + 2 = s.work := by
    simp only [work, received, hr, length_cons]
    omega
  have hloop : (s.received rest).loop.work = 0 := by
    rw [show (s.received rest).loop = s.loop from rfl, h]
    rfl
  unfold serviceResult
  split
  case h_1 | h_2 | h_5 | h_6 =>
    simp only [work, LoopThread.work] at hreceived hloop ⊢
    omega
  case h_3 | h_4 =>
    split <;> simp only [work, LoopThread.work] at hreceived hloop ⊢ <;> omega

section Steps

variable [SnapshotJson]

/-- The steps that take up no new work. -/
inductive Serves (fails : WriteCall → Prop) (s : WorkerSystem) : WorkerSystem → Prop where
  | worker {s' : WorkerSystem} (h : ThreadStep fails s s') : Serves fails s s'
  | resume {s' : WorkerSystem} (hbegun : s.loop ≠ .reading ∧ s.loop ≠ .serving)
      (h : LoopStep s s') : Serves fails s s'
  | drain (h : s.loop = .reading ∨ s.loop = .serving)
      (hzero : s.handle.pendingResultNotifications = 0) (hpos : 0 < s.shared.eventFd) :
      Serves fails s s.drainEventfd
  | load (h : s.loop = .reading) (hpos : 0 < s.handle.pendingResultNotifications) :
      Serves fails s (s.settle (s.tryRecv.map fun received =>
        received.2.loadStartupSnapshot received.1))
  | service (h : s.loop = .serving) (hpos : 0 < s.handle.pendingResultNotifications) (now : ℕ) :
      Serves fails s (s.settle (s.tryRecv.map fun received =>
        received.2.serviceResult now received.1))

variable {fails : WriteCall → Prop} {s s' : WorkerSystem}

theorem work_thread (hs : s.Sound) (h : ThreadStep fails s s') : s'.work < s.work := by
  cases h with
  | read h hm | process h hm | available h hm | sealed h hm =>
    simp only [work, takeMessage, h, hm, WorkerThread.work, length_cons]
    omega
  | spawn h | spawnFailed h | write h =>
    simp only [work, h, WorkerThread.work]
    omega
  | hand h =>
    rw [if_pos (hs.hand_children h)]
    simp only [work, h, WorkerThread.work]
    omega
  | request h | send h =>
    simp only [work, sendResult, h, WorkerThread.work, length_append, length_singleton]
    omega
  | notifyRequest h =>
    simp only [work, notify, h, WorkerThread.work]
    omega
  | reply h | replyEmpty h =>
    simp only [work, h, WorkerThread.work]
    omega
  | @notify sealing h =>
    cases sealing <;>
      simp only [work, notify, h, WorkerThread.work, if_true, Bool.false_eq_true,
        if_false] <;>
      omega

theorem work_resume (h : s.Proceeds s') (hbegun : s.loop ≠ .reading ∧ s.loop ≠ .serving) :
    s'.work < s.work := by
  cases h with
  | start h | send h | sealing h =>
    simp only [work, h, LoopThread.work, length_append, length_cons, length_nil]
    omega
  | committed h | answer h =>
    simp only [work, h, LoopThread.work]
    omega
  | drain h => exact absurd h (not_or.2 hbegun)
  | loaded h | unloaded h => exact absurd h hbegun.1
  | full h | reserve h | cancel h | commit h | observe h | exhausted h | notDue h | submit h
  | unchanged h | terminal h | requested h | processed h | completed h | mismatched h | final h
  | fenced h => exact absurd h hbegun.2

theorem work_loadStartupSnapshot (hr : s.shared.results = result :: rest)
    (hpos : 0 < s.handle.pendingResultNotifications) :
    ((s.received rest).loadStartupSnapshot result).work < s.work := by
  have hreceived : (s.received rest).work + 2 = s.work := by
    simp only [work, received, hr, length_cons]
    omega
  unfold loadStartupSnapshot
  split
  · split <;> simp only [work, LoopThread.work] at hreceived ⊢ <;> omega
  · simp only [work, LoopThread.work] at hreceived ⊢
    omega

theorem Serves.work_lt (hs : s.Sound) (h : Serves fails s s') : s'.work < s.work := by
  cases h with
  | worker h => exact work_thread hs h
  | resume hbegun h => exact work_resume (hs.balanced.proceeds h hs.early hs.idle) hbegun
  | drain =>
    simp only [work, drainEventfd]
    omega
  | load h hpos =>
    obtain ⟨result, rest, hr⟩ := hs.balanced.exists_results hpos
    rw [tryRecv_of_results hr]
    exact work_loadStartupSnapshot hr hpos
  | service h hpos now =>
    obtain ⟨result, rest, hr⟩ := hs.balanced.exists_results hpos
    rw [tryRecv_of_results hr]
    exact work_serviceResult h hr hpos now

theorem exists_threadStep (hs : s.Sound)
    (hresults : s.thread.tally.notifies = 0 → s.shared.results = [])
    (hanswers : s.loop.tally.answers = 0) (hstopped : s.thread ≠ .stopped)
    (hmessages : s.thread = .receiving → s.shared.messages ≠ []) : ∃ s', ThreadStep fails s s' := by
  have hroom (h : s.thread.tally.notifies = 0) : s.shared.results.length < maxWorkerResults := by
    rw [hresults h]
    decide
  cases h : s.thread with
  | receiving =>
    obtain ⟨message, rest, hm⟩ := exists_cons_of_ne_nil (hmessages h)
    cases message with
    | readSnapshot => exact ⟨_, .read h hm (.inl rfl)⟩
    | process => exact ⟨_, .process h hm⟩
    | snapshotAvailable => exact ⟨_, .available h hm⟩
    | sealed => exact ⟨_, .sealed h hm⟩
  | stopped => exact absurd h hstopped
  | aborted => exact absurd h hs.alive
  | spawning => exact ⟨_, .spawn h⟩
  | handing => exact ⟨_, .hand h⟩
  | requesting => exact ⟨_, .request h (hroom (by rw [h]; rfl))⟩
  | notifyingRequest => exact ⟨_, .notifyRequest h⟩
  | awaiting =>
    have hrequest := hs.balanced.request
    simp only [asked, h, hresults (by rw [h]; rfl), hanswers, WorkerThread.tally,
      count_nil] at hrequest
    obtain ⟨reply, rest, hr⟩ := exists_cons_of_length_pos
      (show 0 < s.shared.snapshotReply.length by omega)
    cases reply with
    | none => exact ⟨_, .replyEmpty h hr⟩
    | some => exact ⟨_, .reply h hr⟩
  | writing job =>
    have hanswered (d : SnapshotDir) (c : WriteCall) (_ : True) :
        ∃ answer d', (SnapshotDir.machine fails).Step d c answer d' ∧ True :=
      ⟨.ok (), d.exec c, .inl ⟨rfl, rfl⟩, trivial⟩
    obtain ⟨result, dir, hwrite, _⟩ := Machine.exists_returns hanswered
      (writeSnapshotAtomically job.snapshot) (s := s.dir) trivial
    exact ⟨_, .write h hwrite⟩
  | sending result =>
    refine ⟨_, .send h (hroom ?_)⟩
    rw [h]
    cases result <;> rfl
  | notifying => exact ⟨_, .notify h⟩

theorem exists_serves (hs : s.Sound) (hended : s.loop ≠ .ended) (hsettled : ¬s.Settled) :
    ∃ s', Serves fails s s' := by
  by_cases hbegun : s.loop ≠ .reading ∧ s.loop ≠ .serving
  · -- the event loop goes on with what it has begun
    cases h : s.loop with
    | starting => exact ⟨_, .resume hbegun (.start h)⟩
    | reading => exact absurd h hbegun.1
    | serving => exact absurd h hbegun.2
    | committing jobs =>
      cases jobs with
      | nil => exact ⟨_, .resume hbegun (.committed h)⟩
      | cons => exact ⟨_, .resume hbegun (.send h)⟩
    | answering => exact ⟨_, .resume hbegun (.answer h)⟩
    | sealing => exact ⟨_, .resume hbegun (.sealing h)⟩
    | failed error => exact absurd h (hs.served error)
    | ended => exact absurd h hended
  · have hloop : s.loop = .reading ∨ s.loop = .serving := by
      rwa [not_and_or, not_not, not_not] at hbegun
    have htally : s.loop.tally.unsent = 0 ∧ s.loop.tally.answers = 0 := by
      obtain h | h := hloop <;> rw [h] <;> exact ⟨rfl, rfl⟩
    by_cases hpos : 0 < s.handle.pendingResultNotifications
    · obtain h | h := hloop
      · exact ⟨_, .load h hpos⟩
      · exact ⟨_, .service h hpos 0⟩
    by_cases hevent : 0 < s.shared.eventFd
    · exact ⟨_, .drain hloop (Nat.eq_zero_of_not_pos hpos) hevent⟩
    -- every result notified was taken, so the worker has room
    have hresults (h : s.thread.tally.notifies = 0) : s.shared.results = [] := by
      have hnotified := hs.balanced.notified
      exact length_eq_zero_iff.1 (by omega)
    have hidle (h : s.thread = .receiving ∨ s.thread = .stopped) : s.shared.messages ≠ [] := by
      intro hmessages
      refine hsettled (settled_of_idle hs htally (hresults ?_) hmessages h)
      obtain h | h := h <;> rw [h] <;> rfl
    have hstep : ∃ s', ThreadStep fails s s' := exists_threadStep hs hresults htally.2
      (fun h => hidle (.inr h) (hs.emptied (by rw [h]; rfl))) fun h => hidle (.inl h)
    exact hstep.imp fun s' h => .worker h

/-- Over every interleaving of the three threads: no send of the event loop and none to the
reaper fails; what the eventfd counts is queued; every committed job has had its result or is
yet to be answered, and every request has had its answer or is about to; the fence is the last
result; the counter covers the unspawned jobs and the unreaped children, at most 256 together.
What is under way gets done: a step that takes up no new work leaves less of it, and there is
one until all is settled or the daemon ends. -/
theorem worker_accounts {dir : SnapshotDir} (h : Reachable fails dir s) :
    (∀ error, s.loop ≠ .failed error) ∧ s.thread ≠ .aborted ∧
    s.shared.eventFd ≤ s.shared.results.length ∧
    s.committed.length = s.sent.countP WorkerResult.isProcess + s.unanswered ∧
    (s.sent.count .snapshotRequested =
      s.answered + s.shared.results.count .snapshotRequested + s.loop.tally.answers ∧
      none ∉ s.shared.snapshotReply) ∧
    .fence ∉ s.sent.dropLast ∧
    s.unspawned + s.unreaped ≤ s.shared.ownedChildren ∧ s.unspawned + s.unreaped ≤ 256 ∧
    (∀ s', Serves fails s s' → s'.work < s.work) ∧
    (s.loop = .ended ∨ s.Settled ∨ ∃ s', Serves fails s s') := by
  have hs := Sound.of_reachable h
  have hb := hs.balanced
  have hnotified := hb.notified
  have hchildren := hb.children
  have hcapacity := hb.capacity
  refine ⟨hs.served, hs.alive, by omega, by rw [hb.jobs]; omega, ⟨hb.answers, ?_⟩, hs.fence,
    by omega, ?_, fun s' => Serves.work_lt hs, ?_⟩
  · intro hmem
    exact countP_eq_zero.1 hb.replies none hmem rfl
  · rw [maxWorkerJobs] at hcapacity
    omega
  · by_cases hended : s.loop = .ended
    · exact .inl hended
    by_cases hsettled : s.Settled
    · exact .inr (.inl hsettled)
    · exact .inr (.inr (exists_serves hs hended hsettled))

end Steps

/-- A job committed and not yet sent. -/
theorem worker_accounts_committed :
    ∃ (_ : SnapshotJson) (s : WorkerSystem), Reachable (fun _ => False) ⟨some [1], none⟩ s ∧
      s.committed.length = 1 ∧ ∃ s', Serves (fun _ => False) s s' := by
  let _ := SnapshotLoad.spacedJson
  have hserved : Reachable (fun _ => False) ⟨some [1], none⟩ _ := reachable_written
  have hjobs : [ProcessJob.fixedConsumer .launcher].length ≤ 1 := le_rfl
  have hcommitted := (hserved.step (.loop (.reserve rfl 1))).step (.loop (.commit rfl rfl hjobs))
  obtain hended | hsettled | hserves :=
    (worker_accounts hcommitted).2.2.2.2.2.2.2.2.2
  · cases hended
  · cases hsettled.1
  · exact ⟨_, _, hcommitted, rfl, hserves⟩

end WorkerSystem

end Realm
