import Realm.Worker.Accounts

/-!
# No call of the event loop fails

From the accounts, every send of the event loop finds its channel open and with room, and every
notification its result.  So each of its steps does what the call is for, and the accounts stay
balanced over every run of the three threads.
-/

namespace Realm

open List Option LoopThread WorkerResult WorkerSystem

namespace WorkerSystem

variable {result : WorkerResult}

def submitted (s : WorkerSystem) (job : SnapshotJob) : WorkerSystem :=
  { s with
    shared.messages := s.shared.messages ++
      if s.handle.pendingSnapshot.isNone then [.snapshotAvailable] else []
    handle.pendingSnapshot := some job }

def received (s : WorkerSystem) (rest : List WorkerResult) : WorkerSystem :=
  { s with
    shared.results := rest
    handle.pendingResultNotifications := s.handle.pendingResultNotifications - 1 }

theorem messages_submitted (s : WorkerSystem) (job : SnapshotJob) :
    (s.submitted job).shared.messages = s.shared.messages ∨
      ∃ message, (s.submitted job).shared.messages = s.shared.messages ++ [message] := by
  cases hslot : s.handle.pendingSnapshot with
  | none => exact .inr ⟨.snapshotAvailable, by simp [submitted, hslot]⟩
  | some => exact .inl (by simp [submitted, hslot])

theorem tryRecv_of_results {s : WorkerSystem} {rest : List WorkerResult}
    (hr : s.shared.results = result :: rest) : s.tryRecv = .ok (result, s.received rest) := by
  rw [tryRecv, hr]
  rfl

section Proceeds

variable [SnapshotJson]

/-- A step of the event loop in which every send finds its channel open and with room, and
every notification its result. -/
inductive Proceeds (s : WorkerSystem) : WorkerSystem → Prop where
  | start (h : s.loop = .starting) : Proceeds s { s with
      shared.messages := s.shared.messages ++ [.readSnapshot]
      loop := .reading }
  | full (h : s.loop = .serving) : Proceeds s s
  | reserve {count : ℕ} (h : s.loop = .serving)
      (hcount : s.shared.ownedChildren + s.handle.reservedProcess + count ≤ maxWorkerJobs) :
      Proceeds s { s with handle.reservedProcess := s.handle.reservedProcess + count }
  | cancel {count : ℕ} (h : s.loop = .serving) (hcount : count ≤ s.handle.reservedProcess) :
      Proceeds s (s.cancel count)
  | commit {jobs : List ProcessJob} (h : s.loop = .serving) (hopen : s.handle.sealedAt = none)
      (hjobs : jobs.length ≤ s.handle.reservedProcess) : Proceeds s (s.commit jobs)
  | send {job : ProcessJob} {rest : List ProcessJob} (h : s.loop = .committing (job :: rest)) :
      Proceeds s { s with
        shared.messages := s.shared.messages ++ [.process job]
        handle.outstandingProcess := s.handle.outstandingProcess + 1
        loop := .committing rest }
  | committed (h : s.loop = .committing []) : Proceeds s { s with loop := .serving }
  | observe (h : s.loop = .serving) (hopen : s.handle.sealedAt = none)
      (snapshot : SessionSnapshotV1) (now : ℕ) : Proceeds s { s with
        coordinator := (s.coordinator.observe (some snapshot) now).2
        observed := some snapshot }
  | exhausted {now : ℕ} (h : s.loop = .serving) (hopen : s.handle.sealedAt = none)
      (htake : s.coordinator.takeDue now = none) : Proceeds s { s with loop := .ended }
  | notDue {now : ℕ} {c : PersistenceCoordinator} (h : s.loop = .serving)
      (hopen : s.handle.sealedAt = none) (htake : s.coordinator.takeDue now = some (none, c)) :
      Proceeds s { s with coordinator := c }
  | submit {now : ℕ} {request : PersistRequest} {c : PersistenceCoordinator}
      (h : s.loop = .serving) (hopen : s.handle.sealedAt = none)
      (htake : s.coordinator.takeDue now = some (some request, c)) :
      Proceeds s { s.submitted ⟨some request.sequence, request.snapshot⟩ with coordinator := c }
  | unchanged {now : ℕ} (h : s.loop = .serving) (hopen : s.handle.sealedAt = none)
      (hnone : s.coordinator.shutdownSnapshot = none) :
      Proceeds s { s with loop := .sealing now }
  | terminal {now : ℕ} {snapshot : SessionSnapshotV1} (h : s.loop = .serving)
      (hopen : s.handle.sealedAt = none)
      (hsome : s.coordinator.shutdownSnapshot = some snapshot) :
      Proceeds s { s.submitted ⟨none, snapshot⟩ with loop := .sealing now }
  | sealing {now : ℕ} (h : s.loop = .sealing now) (hopen : s.handle.sealedAt = none) :
      Proceeds s { s with
        shared.messages := s.shared.messages ++ [.sealed]
        handle.sealedAt := some now
        loop := .serving }
  | drain (h : s.loop = .reading ∨ s.loop = .serving)
      (hzero : s.handle.pendingResultNotifications = 0) : Proceeds s s.drainEventfd
  | loaded {read : SnapshotRead} {rest : List WorkerResult} {load : SnapshotLoad}
      (h : s.loop = .reading)
      (hpos : 0 < s.handle.pendingResultNotifications)
      (hr : s.shared.results = .snapshotRead read :: rest)
      (hread : classifySnapshotRead read = .ok load) :
      Proceeds s { s.received rest with coordinator := .new load.snapshot, loop := .serving }
  | unloaded {result : WorkerResult} {rest : List WorkerResult} (h : s.loop = .reading)
      (hpos : 0 < s.handle.pendingResultNotifications) (hr : s.shared.results = result :: rest)
      (hresult : result.isProcess = false ∧ result ≠ .snapshotRequested ∧ result ≠ .fence) :
      Proceeds s { s.received rest with loop := .ended }
  | requested {rest : List WorkerResult} (h : s.loop = .serving)
      (hpos : 0 < s.handle.pendingResultNotifications)
      (hr : s.shared.results = .snapshotRequested :: rest) :
      Proceeds s { s.received rest with loop := .answering }
  | processed {result : Except String Unit} {rest : List WorkerResult} (h : s.loop = .serving)
      (hpos : 0 < s.handle.pendingResultNotifications)
      (hr : s.shared.results = .process result :: rest) :
      Proceeds s { s.received rest with
        handle.outstandingProcess := s.handle.outstandingProcess - 1
        handle.pendingResultNotifications := s.handle.pendingResultNotifications - 1 }
  | completed {sequence now : ℕ} {result : Except String Unit} {rest : List WorkerResult}
      {c : PersistenceCoordinator} (h : s.loop = .serving)
      (hpos : 0 < s.handle.pendingResultNotifications)
      (hr : s.shared.results = .snapshotWritten (some sequence) result :: rest)
      (hc : s.coordinator.complete sequence (completionOf result) now = .ok c) :
      Proceeds s { s.received rest with coordinator := c }
  | mismatched {sequence now : ℕ} {result : Except String Unit} {rest : List WorkerResult}
      {error : PersistCompletionError} (h : s.loop = .serving)
      (hpos : 0 < s.handle.pendingResultNotifications)
      (hr : s.shared.results = .snapshotWritten (some sequence) result :: rest)
      (hc : s.coordinator.complete sequence (completionOf result) now = .error error) :
      Proceeds s { s.received rest with loop := .ended }
  | final {result : Except String Unit} {rest : List WorkerResult} (h : s.loop = .serving)
      (hpos : 0 < s.handle.pendingResultNotifications)
      (hr : s.shared.results = .snapshotWritten none result :: rest) :
      Proceeds s (s.received rest)
  | fenced {rest : List WorkerResult} (h : s.loop = .serving)
      (hpos : 0 < s.handle.pendingResultNotifications)
      (hr : s.shared.results = .fence :: rest) :
      Proceeds s { s.received rest with handle.fenceAcknowledged := true }
  | answer {job : SnapshotJob} (h : s.loop = .answering)
      (hslot : s.handle.pendingSnapshot = some job) (hreply : s.shared.snapshotReply = []) :
      Proceeds s { s with
        shared.snapshotReply := [some job]
        handle.pendingSnapshot := none
        answered := s.answered + 1
        loop := .serving }

end Proceeds

namespace Balanced

variable {s s' : WorkerSystem} {rest : List WorkerResult}

theorem receives (h : s.Balanced) (hopen : s.handle.sealedAt = none)
    (hreads : s.loop.tally.reads = 0) :
    s.thread ≠ .stopped ∧ s.shared.messages.length < maxWorkerJobs + 2 := by
  have hsealed := h.sealed
  rw [hopen] at hsealed
  simp only [isSome_none, Bool.toNat_false, Nat.add_eq_zero_iff] at hsealed
  refine ⟨fun hstopped => ?_, h.room hsealed.1 hreads⟩
  rw [hstopped] at hsealed
  exact absurd hsealed.2 one_ne_zero

theorem submitJob_eq_ok (hb : s.Balanced) (hopen : s.handle.sealedAt = none)
    (hreads : s.loop.tally.reads = 0) (job : SnapshotJob) :
    s.submitJob job = .ok (s.submitted job) := by
  rw [submitJob, if_neg (by simp [hopen]), submitted]
  cases s.handle.pendingSnapshot with
  | none => simp [trySend, hb.receives hopen hreads, bind, Except.bind, pure, Except.pure]
  | some => simp [bind, Except.bind, pure, Except.pure]

theorem submitted (hb : s.Balanced) (job : SnapshotJob) : (s.submitted job).Balanced := by
  obtain ⟨loop, ⟨slot, outstanding, reserved, sealedAt, fence, pending⟩, coordinator,
    ⟨messages, reply, results, eventFd, children, owned⟩, thread, live, reaped, dir, observed,
    committed, sent, answered⟩ := s
  cases slot <;>
    simp only [submitted, balanced_iff, unspawned, unreaped, asked, unanswered,
      isNone_none, isNone_some, isSome_none, isSome_some,
      Bool.toNat_true, Bool.toNat_false, append_nil, countP_append, count_append,
      countP_singleton, count_singleton, WorkerMessage.isProcess, beq_iff_eq,
      reduceCtorEq, if_true, if_false] at hb ⊢ <;>
    omega

theorem exists_results (hb : s.Balanced) (hpos : 0 < s.handle.pendingResultNotifications) :
    ∃ result rest, s.shared.results = result :: rest := by
  have hnotified := hb.notified
  exact exists_cons_of_length_pos (by omega)

theorem answerSnapshotRequest_eq_ok (hb : s.Balanced) (h : s.loop = .answering) :
    ∃ job, s.handle.pendingSnapshot = some job ∧ s.shared.snapshotReply = [] ∧
      s.answerSnapshotRequest = .ok { s with
      shared.snapshotReply := [some job]
      handle.pendingSnapshot := none
      answered := s.answered + 1
      loop := .serving } := by
  have hslot := hb.slot
  have hrequest := hb.request
  have hasks := s.thread.asks_le
  simp only [asked, h, tally] at hslot hrequest
  have hreply : s.shared.snapshotReply = [] := length_eq_zero_iff.1 (by omega)
  obtain ⟨job, hjob⟩ : ∃ job, s.handle.pendingSnapshot = some job := by
    cases hp : s.handle.pendingSnapshot with
    | none =>
      simp only [hp, isSome_none, Bool.toNat_false] at hslot
      omega
    | some job => exact ⟨job, rfl⟩
  have hreceives : s.thread ≠ .stopped := by
    intro hstopped
    simp only [hstopped, WorkerThread.tally] at hrequest
    omega
  refine ⟨job, hjob, hreply, ?_⟩
  rw [answerSnapshotRequest, if_pos ⟨hreceives, by simp [hreply]⟩, hreply, hjob]
  rfl

theorem outstanding_pos (hb : s.Balanced) (h : s.loop = .serving) {result : Except String Unit}
    (hr : s.shared.results = .process result :: rest) :
    s.handle.outstandingProcess ≠ 0 := by
  have hout := hb.outstanding
  simp only [unanswered, h, hr, tally, countP_cons, isProcess, if_true] at hout
  omega

variable [SnapshotJson]

theorem proceeds_serviceResult (hb : s.Balanced) (h : s.loop = .serving)
    (hr : s.shared.results = result :: rest) (hpos : 0 < s.handle.pendingResultNotifications)
    (now : ℕ) : s.Proceeds ((s.received rest).serviceResult now result) := by
  cases result with
  | snapshotRead =>
    have hreading := hb.reading
    simp only [h, hr, tally, countP_cons, isRead, if_true]
      at hreading
    omega
  | snapshotRequested => exact .requested h hpos hr
  | process =>
    have hout : (s.received rest).handle.outstandingProcess ≠ 0 := hb.outstanding_pos h hr
    rw [serviceResult, if_neg hout]
    exact .processed h hpos hr
  | snapshotWritten sequence =>
    cases sequence with
    | none => exact .final h hpos hr
    | some =>
      simp only [serviceResult]
      split
      · exact .completed h hpos hr ‹_›
      · exact .mismatched h hpos hr ‹_›
  | fence => exact .fenced h hpos hr

theorem proceeds_loadStartupSnapshot (hb : s.Balanced) (h : s.loop = .reading)
    (hr : s.shared.results = result :: rest) (hpos : 0 < s.handle.pendingResultNotifications)
    (hopen : s.handle.sealedAt = none)
    (hidle : s.handle.outstandingProcess = 0 ∧ s.handle.pendingSnapshot = none) :
    s.Proceeds ((s.received rest).loadStartupSnapshot result) := by
  obtain ⟨hout, hslot⟩ := hidle
  cases result with
  | snapshotRead =>
    simp only [loadStartupSnapshot]
    split
    · exact .loaded h hpos hr ‹_›
    · exact .unloaded h hpos hr ⟨rfl, by simp, by simp⟩
  | snapshotRequested =>
    have hasked := hb.slot
    simp only [asked, hslot, hr, isSome_none, Bool.toNat_false, count_cons,
      beq_self_eq_true, if_true] at hasked
    omega
  | process =>
    have houtstanding := hb.outstanding
    simp only [unanswered, h, hr, hout, tally, countP_cons, isProcess, if_true] at houtstanding
    omega
  | snapshotWritten => exact .unloaded h hpos hr ⟨rfl, by simp, by simp⟩
  | fence =>
    have hsealed := hb.sealed
    have hfence := hb.fence
    have hacknowledged := hb.acknowledged
    have hle := s.thread.fences_le_seals
    simp only [hopen, hr, isSome_none, Bool.toNat_false, count_cons,
      beq_self_eq_true, if_true] at hsealed hacknowledged
    omega

theorem proceeds (hb : s.Balanced) (h : LoopStep s s')
    (hearly : s.loop.early → s.handle.sealedAt = none)
    (hidle : s.loop.starts → s.handle.outstandingProcess = 0 ∧ s.handle.pendingSnapshot = none) :
    s.Proceeds s' := by
  cases h with
  | start h =>
    have hopen := hearly (by rw [h]; rfl)
    rw [requestSnapshotRead, if_neg (by simp [hopen]), trySend,
      if_pos (hb.receives hopen (by rw [h]; rfl))]
    exact .start h
  | reserve h =>
    unfold reserveProcessJobs
    split
    · rename_i hadmits
      simp only [admits, Bool.and_eq_true, decide_eq_true_eq] at hadmits
      exact .reserve h hadmits.2
    · exact .full h
  | cancel h hcount => exact .cancel h hcount
  | commit h hopen hjobs => exact .commit h hopen hjobs
  | send h =>
    have hopen := hearly (by rw [h]; rfl)
    rw [sendJob, trySend, if_pos (hb.receives hopen (by rw [h]; rfl))]
    exact .send h
  | committed h => exact .committed h
  | observe h hopen snapshot now => exact .observe h hopen snapshot now
  | submitDue h hopen =>
    unfold submitDueSnapshot
    split
    · exact .exhausted h hopen ‹_›
    · exact .notDue h hopen ‹_›
    · rename_i c htake
      have hc : ({ s with coordinator := c } : WorkerSystem).Balanced := { hb with }
      rw [submitSnapshot, hc.submitJob_eq_ok hopen (by dsimp only; rw [h]; rfl)]
      exact .submit h hopen htake
  | terminal h hopen =>
    unfold beginTerminalWorker
    split
    · exact .unchanged h hopen ‹_›
    · rw [submitShutdownSnapshot, hb.submitJob_eq_ok hopen (by rw [h]; rfl)]
      exact .terminal h hopen ‹_›
  | sealing h =>
    have hopen := hearly (by rw [h]; rfl)
    rw [sealWorker, trySend, if_pos (hb.receives hopen (by rw [h]; rfl))]
    exact .sealing h hopen
  | drain h hzero => exact .drain h hzero
  | load h hpos =>
    obtain ⟨result, rest, hr⟩ := hb.exists_results hpos
    rw [tryRecv_of_results hr]
    exact hb.proceeds_loadStartupSnapshot h hr hpos (hearly (by rw [h]; rfl))
      (hidle (by rw [h]; rfl))
  | service h hpos now =>
    obtain ⟨result, rest, hr⟩ := hb.exists_results hpos
    rw [tryRecv_of_results hr]
    exact hb.proceeds_serviceResult h hr hpos now
  | answer h =>
    obtain ⟨job, hslot, hreply, hanswer⟩ := hb.answerSnapshotRequest_eq_ok h
    rw [hanswer]
    exact .answer h hslot hreply

theorem loop (hb : s.Balanced) (h : s.Proceeds s') : s'.Balanced := by
  cases h with
  | start h | send h =>
    simp only [balanced_iff, unspawned, unreaped, asked, unanswered, h, tally,
      length_cons, countP_append, count_append, countP_singleton,
      count_singleton, WorkerMessage.isProcess, beq_iff_eq, reduceCtorEq, if_true, if_false]
      at hb ⊢
    omega
  | full => exact hb
  | reserve => exact { hb with capacity := by dsimp only; omega }
  | cancel =>
    exact { hb with capacity := (Nat.add_le_add_left (Nat.sub_le _ _) _).trans hb.capacity }
  | commit h =>
    simp only [WorkerSystem.commit, balanced_iff, unspawned, unreaped, asked, unanswered, h,
      tally, length_append] at hb ⊢
    omega
  | observe | notDue => exact { hb with }
  | committed h | exhausted h | unchanged h =>
    simp only [balanced_iff, unspawned, unreaped, asked, unanswered, h, tally, length_nil] at hb ⊢
    omega
  | submit => exact { hb.submitted _ with }
  | terminal h =>
    rename_i snapshot _ _
    have hsubmitted := hb.submitted ⟨none, snapshot⟩
    simp only [WorkerSystem.submitted, balanced_iff, unspawned, unreaped, asked, unanswered, h,
      tally] at hsubmitted ⊢
    omega
  | sealing h hopen =>
    simp only [balanced_iff, unspawned, unreaped, asked, unanswered, h, hopen,
      tally, isSome_none, isSome_some, Bool.toNat_true,
      Bool.toNat_false, countP_append, count_append, countP_singleton,
      count_singleton, WorkerMessage.isProcess, beq_iff_eq, reduceCtorEq, if_true, if_false]
      at hb ⊢
    omega
  | drain =>
    exact { hb with notified := by have := hb.notified; dsimp only [drainEventfd]; omega }
  | loaded h hpos hr | requested h hpos hr | processed h hpos hr | completed h hpos hr
  | mismatched h hpos hr | final h hpos hr =>
    simp only [received, balanced_iff, unspawned, unreaped, asked, unanswered, h, hr,
      tally, countP_cons, count_cons, length_cons,
      isProcess, isRead, beq_iff_eq, reduceCtorEq, if_true, if_false]
      at hb ⊢
    omega
  | fenced h hpos hr =>
    have hfences := s.thread.fences_le
    simp only [received, balanced_iff, unspawned, unreaped, asked, unanswered, h, hr,
      tally, countP_cons, count_cons, length_cons,
      isProcess, isRead, beq_iff_eq, reduceCtorEq, if_true, if_false, Bool.toNat_true] at hb ⊢
    omega
  | unloaded h hpos hr hresult =>
    simp only [received, balanced_iff, unspawned, unreaped, asked, unanswered, h, hr,
      hresult.1, hresult.2.1, hresult.2.2, tally, countP_cons, count_cons,
      length_cons, beq_iff_eq, reduceCtorEq, if_false] at hb ⊢
    omega
  | answer h hslot =>
    have hasks := s.thread.asks_le
    simp only [balanced_iff, unspawned, unreaped, asked, unanswered, h, hslot, tally,
      isSome_some, isSome_none, Bool.toNat_true, Bool.toNat_false,
      length_singleton, countP_singleton, isNone_some, reduceCtorEq, if_false, true_and] at hb ⊢
    omega

end Balanced

/-! ### Every reachable state -/

/-- The accounts, the order of the channels and what the threads cannot have come to.  The seal
is the last message and the fence the last result. -/
structure Sound (s : WorkerSystem) : Prop where
  balanced : s.Balanced
  early : s.loop.early → s.handle.sealedAt = none
  idle : s.loop.starts → s.handle.outstandingProcess = 0 ∧ s.handle.pendingSnapshot = none
  served : ∀ error, s.loop ≠ .failed error
  alive : s.thread ≠ .aborted
  own : s.thread ≠ .sending .snapshotRequested
  last : .sealed ∉ s.shared.messages.dropLast
  emptied : s.thread.tally.seals = 1 → s.shared.messages = []
  fence : .fence ∉ s.sent.dropLast
  suffix : s.shared.results <:+ s.sent

namespace Sound

variable {s s' : WorkerSystem} {fails : WriteCall → Prop}

theorem start (dir : SnapshotDir) : (start dir).Sound where
  balanced := .start dir
  early _ := rfl
  idle _ := ⟨rfl, rfl⟩
  served := nofun
  alive := nofun
  own := nofun
  last := not_mem_nil
  emptied := nofun
  fence := not_mem_nil
  suffix := suffix_rfl

theorem reaper (hs : s.Sound) (h : ReaperStep s s') : s'.Sound := by
  have hbalanced := hs.balanced.reaper h
  cases h with
  | adopt | reap | release => exact { hs with balanced := hbalanced }

theorem unsealed (hs : s.Sound) (hopen : s.handle.sealedAt = none) :
    .sealed ∉ s.shared.messages ∧ s.thread.tally.seals ≠ 1 := by
  have hsealed := hs.balanced.sealed
  rw [hopen] at hsealed
  simp only [isSome_none, Bool.toNat_false, Nat.add_eq_zero_iff] at hsealed
  exact ⟨count_eq_zero.1 hsealed.1, by omega⟩

/-- A step of the event loop leaves the worker and its results, and sends a message only while
the worker is open. -/
theorem of_loop (hs : s.Sound) (hbalanced : s'.Balanced)
    (hworker : s'.thread = s.thread ∧ s'.sent = s.sent)
    (hresults : s'.shared.results <:+ s.shared.results)
    (hmessages : s'.shared.messages = s.shared.messages ∨
      s.handle.sealedAt = none ∧ ∃ message, s'.shared.messages = s.shared.messages ++ [message])
    (hearly : s'.loop.early → s'.handle.sealedAt = none)
    (hidle : s'.loop.starts → s.loop.starts ∧ s'.handle = s.handle)
    (hserved : ∀ error, s'.loop ≠ .failed error) : s'.Sound where
  balanced := hbalanced
  early := hearly
  idle h := (hidle h).2 ▸ hs.idle (hidle h).1
  served := hserved
  alive := hworker.1 ▸ hs.alive
  own := hworker.1 ▸ hs.own
  last := by
    obtain heq | ⟨hopen, message, heq⟩ := hmessages
    · exact heq ▸ hs.last
    · rw [heq, dropLast_concat]
      exact (hs.unsealed hopen).1
  emptied hone := by
    rw [hworker.1] at hone
    obtain heq | ⟨hopen, _⟩ := hmessages
    · exact heq.trans (hs.emptied hone)
    · exact absurd hone (hs.unsealed hopen).2
  fence := hworker.2 ▸ hs.fence
  suffix := hworker.2 ▸ hresults.trans hs.suffix

theorem last_of_cons {message : WorkerMessage} {rest : List WorkerMessage}
    (hs : s.Sound) (hm : s.shared.messages = message :: rest) : .sealed ∉ rest.dropLast := by
  intro hmem
  refine hs.last ?_
  rw [hm, dropLast_cons_of_ne_nil (by rintro rfl; simp at hmem)]
  exact mem_cons_of_mem _ hmem

theorem eq_nil_of_sealed {rest : List WorkerMessage} (hs : s.Sound)
    (hm : s.shared.messages = .sealed :: rest) : rest = [] := by
  by_contra hne
  refine hs.last ?_
  rw [hm, dropLast_cons_of_ne_nil hne]
  exact mem_cons_self

theorem fence_concat (hs : s.Sound) (hfences : s.thread.tally.fences = 0) (result : WorkerResult) :
    .fence ∉ (s.sent ++ [result]).dropLast := by
  rw [dropLast_concat, ← count_eq_zero, hs.balanced.fence, hfences]

theorem suffix_concat (hs : s.Sound) (result : WorkerResult) :
    s.shared.results ++ [result] <:+ s.sent ++ [result] := by
  obtain ⟨taken, htaken⟩ := hs.suffix
  exact ⟨taken, by rw [← htaken, append_assoc]⟩

theorem hand_children (hs : s.Sound) (h : s.thread = .handing) :
    s.shared.children < maxWorkerJobs := by
  have hchildren := hs.balanced.children
  have hcapacity := hs.balanced.capacity
  simp only [unspawned, unreaped, h, WorkerThread.tally] at hchildren
  omega

variable [SnapshotJson]

theorem loop (hs : s.Sound) (h : LoopStep s s') : s'.Sound := by
  have hproceeds := hs.balanced.proceeds h hs.early hs.idle
  have hbalanced := hs.balanced.loop hproceeds
  clear h
  cases hproceeds with
  | full => exact hs
  | start h =>
    have hopen := hs.early (by rw [h]; rfl)
    exact hs.of_loop hbalanced ⟨rfl, rfl⟩ suffix_rfl (.inr ⟨hopen, _, rfl⟩) (fun _ => hopen)
      (fun _ => ⟨by rw [h]; rfl, rfl⟩) nofun
  | send h =>
    have hopen := hs.early (by rw [h]; rfl)
    exact hs.of_loop hbalanced ⟨rfl, rfl⟩ suffix_rfl (.inr ⟨hopen, _, rfl⟩)
      (fun _ => hopen) nofun nofun
  | reserve h | cancel h | observe h | notDue h =>
    exact hs.of_loop hbalanced ⟨rfl, rfl⟩ suffix_rfl (.inl rfl) hs.early
      (fun hstarts => by simp [cancel, h, starts] at hstarts) hs.served
  | processed h hpos hr | completed h hpos hr | final h hpos hr | fenced h hpos hr =>
    exact hs.of_loop hbalanced ⟨rfl, rfl⟩ (hr ▸ suffix_cons _ _) (.inl rfl) hs.early
      (fun hstarts => by simp [received, h, starts] at hstarts) hs.served
  | commit h hopen =>
    exact hs.of_loop hbalanced ⟨rfl, rfl⟩ suffix_rfl (.inl rfl) (fun _ => hopen) nofun nofun
  | drain => exact { hs with balanced := hbalanced }
  | loaded h hpos hr | mismatched h hpos hr | unloaded h hpos hr | requested h hpos hr =>
    exact hs.of_loop hbalanced ⟨rfl, rfl⟩ (hr ▸ suffix_cons _ _) (.inl rfl) nofun nofun nofun
  | committed h | exhausted h | answer h =>
    exact hs.of_loop hbalanced ⟨rfl, rfl⟩ suffix_rfl (.inl rfl) nofun nofun nofun
  | unchanged h hopen =>
    exact hs.of_loop hbalanced ⟨rfl, rfl⟩ suffix_rfl (.inl rfl) (fun _ => hopen) nofun nofun
  | terminal h hopen =>
    rename_i snapshot _
    exact hs.of_loop hbalanced ⟨rfl, rfl⟩ suffix_rfl
      ((s.messages_submitted ⟨none, snapshot⟩).imp_right (⟨hopen, ·⟩)) (fun _ => hopen) nofun nofun
  | submit h hopen =>
    rename_i request _ _
    exact hs.of_loop hbalanced ⟨rfl, rfl⟩ suffix_rfl
      ((s.messages_submitted ⟨some request.sequence, request.snapshot⟩).imp_right (⟨hopen, ·⟩))
      (fun _ => hopen) (fun hstarts => by simp [submitted, h, starts] at hstarts)
      hs.served
  | sealing h hopen =>
    exact hs.of_loop hbalanced ⟨rfl, rfl⟩ suffix_rfl (.inr ⟨hopen, _, rfl⟩) nofun nofun nofun

theorem thread (hs : s.Sound) (h : ThreadStep fails s s') :
    s'.Sound := by
  have halive : s'.thread ≠ .aborted := by
    cases h with
    | hand h =>
      rw [if_pos (hs.hand_children h)]
      nofun
    | notify h =>
      rename_i sealing
      cases sealing <;> nofun
    | read | process | available | sealed | spawn | spawnFailed | request | notifyRequest | reply
    | replyEmpty | write | send => nofun
  have hbalanced := hs.balanced.thread h hs.own halive
  cases h with
  | read h hm | process h hm | available h hm =>
    exact { hs with
      balanced := hbalanced
      alive := halive
      own := nofun
      last := hs.last_of_cons hm
      emptied := nofun }
  | sealed h hm =>
    obtain rfl := hs.eq_nil_of_sealed hm
    exact { hs with
      balanced := hbalanced
      alive := halive
      own := nofun
      last := not_mem_nil
      emptied := fun _ => rfl }
  | spawn h | spawnFailed h | notifyRequest h | reply h | replyEmpty h | write h =>
    exact { hs with
      balanced := hbalanced
      alive := halive
      own := nofun
      emptied := nofun }
  | hand h =>
    rw [if_pos (hs.hand_children h)] at hbalanced halive ⊢
    exact { hs with
      balanced := hbalanced
      alive := halive
      own := nofun
      emptied := nofun }
  | request h =>
    exact { hs with
      balanced := hbalanced
      alive := halive
      own := nofun
      emptied := nofun
      fence := hs.fence_concat (by rw [h]; rfl) _
      suffix := hs.suffix_concat _ }
  | send h =>
    exact { hs with
      balanced := hbalanced
      alive := halive
      own := nofun
      emptied := fun hone => hs.emptied (by rwa [h, WorkerThread.seals_sending])
      fence := hs.fence_concat (by rw [h, WorkerThread.fences_sending]) _
      suffix := hs.suffix_concat _ }
  | notify h =>
    exact { hs with
      balanced := hbalanced
      alive := halive
      own := by split <;> nofun
      emptied := fun hone => hs.emptied (by rwa [h, WorkerThread.seals_notifying]) }

theorem step (hs : s.Sound) (h : Step fails s s') : s'.Sound := by
  cases h with
  | loop h => exact hs.loop h
  | thread h => exact hs.thread h
  | reaper h => exact hs.reaper h

theorem of_reachable {dir : SnapshotDir} (h : Reachable fails dir s) : s.Sound := by
  induction h with
  | start => exact .start dir
  | step _ hstep ih => exact ih.step hstep

end Sound

end WorkerSystem

end Realm
