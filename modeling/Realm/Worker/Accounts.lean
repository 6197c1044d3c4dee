import Realm.Worker.Threads

/-!
# The accounts of the worker

Every job, request, result and child is in one place at a time.  The places are counted, and
each step moves what it moves from one count to another, so the totals stay what they are.
From them follow the bounds on the channels.
-/

namespace Realm

open List WorkerThread WorkerResult WorkerSystem

/-- What the event loop has in hand: the jobs of a commit still to be sent, a request received
and not answered, the snapshot file being read at startup, possibly until the end. -/
structure LoopTally where
  unsent : ℕ := 0
  answers : ℕ := 0
  reads : ℕ := 0

def LoopThread.tally : LoopThread → LoopTally
  | starting | serving | sealing _ | failed _ => {}
  | reading | ended => { reads := 1 }
  | committing jobs => { unsent := jobs.length }
  | answering => { answers := 1 }

def LoopThread.starts : LoopThread → Bool
  | starting | reading => true
  | serving | committing _ | answering | sealing _ | failed _ | ended => false

/-- Whether the event loop is in a place it only gets to while the worker is open. -/
def LoopThread.early : LoopThread → Bool
  | starting | reading | committing _ | sealing _ => true
  | serving | answering | failed _ | ended => false

/-- What the worker thread has in hand: a job not yet spawned, a child not yet handed over, a
job whose result is not yet sent, a request not yet sent, a request under way, a result sent
and not yet notified, the snapshot file just read, the seal, and the seal with its fence sent. -/
structure ThreadTally where
  spawns : ℕ := 0
  hands : ℕ := 0
  launches : ℕ := 0
  requests : ℕ := 0
  asks : ℕ := 0
  notifies : ℕ := 0
  reads : ℕ := 0
  seals : ℕ := 0
  fences : ℕ := 0

def WorkerThread.tally : WorkerThread → ThreadTally
  | receiving | writing _ | aborted => {}
  | spawning _ => { spawns := 1, launches := 1 }
  | handing => { hands := 1, launches := 1 }
  | requesting => { requests := 1, asks := 1 }
  | notifyingRequest => { asks := 1, notifies := 1 }
  | awaiting => { asks := 1 }
  | sending (.process _) => { launches := 1 }
  | sending (.snapshotRead _) => { reads := 1 }
  | sending .fence => { seals := 1 }
  | sending .snapshotRequested | sending (.snapshotWritten _ _) => {}
  | notifying false => { notifies := 1 }
  | notifying true => { notifies := 1, seals := 1, fences := 1 }
  | stopped => { seals := 1, fences := 1 }

theorem WorkerThread.asks_le (thread : WorkerThread) : thread.tally.asks ≤ 1 := by
  unfold tally
  split <;> decide

theorem WorkerThread.fences_le (thread : WorkerThread) : thread.tally.fences ≤ 1 := by
  unfold tally
  split <;> decide

theorem WorkerThread.fences_le_seals (thread : WorkerThread) :
    thread.tally.fences ≤ thread.tally.seals := by
  unfold tally
  split <;> decide

theorem WorkerThread.of_fences {thread : WorkerThread} (h : thread.tally.fences = 1) :
    thread = notifying true ∨ thread = stopped := by
  cases thread with
  | stopped => exact .inr rfl
  | notifying sealing =>
    cases sealing with
    | true => exact .inl rfl
    | false => cases h
  | sending result => cases result <;> cases h
  | receiving | spawning | handing | requesting | notifyingRequest | awaiting | writing
  | aborted => cases h

theorem WorkerThread.fences_sending (result : WorkerResult) :
    (sending result).tally.fences = 0 := by
  cases result <;> rfl

theorem WorkerThread.seals_sending (result : WorkerResult) :
    (sending result).tally.seals = (notifying (result = .fence)).tally.seals := by
  cases result <;> rfl

theorem WorkerThread.seals_notifying (sealing : Bool) :
    (notifying sealing).tally.seals = (if sealing then stopped else receiving).tally.seals := by
  cases sealing <;> rfl

namespace WorkerMessage

def isProcess : WorkerMessage → Bool
  | process _ => true
  | _ => false

end WorkerMessage

namespace WorkerResult

def isProcess : WorkerResult → Bool
  | process _ => true
  | _ => false

def isRead : WorkerResult → Bool
  | snapshotRead _ => true
  | _ => false

end WorkerResult

namespace WorkerSystem

def unspawned (s : WorkerSystem) : ℕ :=
  s.loop.tally.unsent + s.shared.messages.countP WorkerMessage.isProcess + s.thread.tally.spawns

def unreaped (s : WorkerSystem) : ℕ := s.thread.tally.hands + s.shared.children + s.live

/-- The requests for a snapshot that wait for their answer. -/
def asked (s : WorkerSystem) : ℕ :=
  s.thread.tally.requests + s.shared.results.count .snapshotRequested + s.loop.tally.answers

def unanswered (s : WorkerSystem) : ℕ :=
  s.loop.tally.unsent + s.shared.messages.countP WorkerMessage.isProcess + s.thread.tally.launches

/-- The accounts. -/
@[mk_iff]
structure Balanced (s : WorkerSystem) : Prop where
  children : s.shared.ownedChildren = s.unspawned + s.unreaped + s.reaped
  capacity : s.shared.ownedChildren + s.handle.reservedProcess ≤ maxWorkerJobs
  slot : s.handle.pendingSnapshot.isSome.toNat =
    s.shared.messages.count .snapshotAvailable + s.asked
  request : s.asked + s.shared.snapshotReply.length = s.thread.tally.asks
  replies : s.shared.snapshotReply.countP Option.isNone = 0
  notified : s.shared.eventFd + s.handle.pendingResultNotifications + s.thread.tally.notifies =
    s.shared.results.length
  jobs : s.committed.length = s.unanswered + s.sent.countP WorkerResult.isProcess
  outstanding : s.handle.outstandingProcess + s.loop.tally.unsent =
    s.unanswered + s.shared.results.countP WorkerResult.isProcess
  answers : s.sent.count .snapshotRequested =
    s.answered + s.shared.results.count .snapshotRequested + s.loop.tally.answers
  reading : s.shared.messages.count .readSnapshot + s.thread.tally.reads +
    s.shared.results.countP WorkerResult.isRead ≤ s.loop.tally.reads
  sealed : s.shared.messages.count .sealed + s.thread.tally.seals = s.handle.sealedAt.isSome.toNat
  fence : s.sent.count .fence = s.thread.tally.fences
  acknowledged : s.shared.results.count .fence + s.handle.fenceAcknowledged.toNat =
    s.sent.count .fence

theorem length_messages (messages : List WorkerMessage) :
    messages.length = messages.countP WorkerMessage.isProcess + messages.count .snapshotAvailable +
      messages.count .readSnapshot + messages.count .sealed := by
  induction messages with
  | nil => rfl
  | cons m =>
    cases m <;> simp [countP_cons, WorkerMessage.isProcess] <;> omega

namespace Balanced

variable {s s' : WorkerSystem}

theorem start (dir : SnapshotDir) : (start dir).Balanced := by
  simp [balanced_iff, WorkerSystem.start, unspawned, unreaped, asked, unanswered, LoopThread.tally,
    tally]

theorem reaper (hb : s.Balanced) (h : ReaperStep s s') : s'.Balanced := by
  cases h with
  | adopt | reap | release =>
    simp only [balanced_iff, unspawned, unreaped, asked, unanswered] at hb ⊢
    omega

theorem room (h : s.Balanced) (hsealed : s.shared.messages.count .sealed = 0)
    (hreads : s.loop.tally.reads = 0) : s.shared.messages.length < maxWorkerJobs + 2 := by
  have hlength := length_messages s.shared.messages
  have hsome := Bool.toNat_le s.handle.pendingSnapshot.isSome
  simp only [balanced_iff, unspawned, unreaped, asked, unanswered] at h
  omega

section Thread

variable [SnapshotJson] {fails : WriteCall → Prop}

theorem thread (hb : s.Balanced) (h : ThreadStep fails s s')
    (hown : s.thread ≠ .sending .snapshotRequested) (hsound : s'.thread ≠ .aborted) :
    s'.Balanced := by
  obtain ⟨loop, handle, coordinator, ⟨messages, reply, results, eventFd, children, owned⟩, thread,
    live, reaped, dir, observed, committed, sent, answered⟩ := s
  have hreplies := hb.replies
  simp only [balanced_iff, unspawned, unreaped, asked, unanswered] at hb ⊢
  cases h with
  | read h hm | process h hm | available h hm | sealed h hm =>
    obtain ⟨rfl, rfl⟩ : thread = _ ∧ messages = _ := ⟨h, hm⟩
    simp only [takeMessage, tally, countP_cons, count_cons,
      WorkerMessage.isProcess, beq_iff_eq, reduceCtorEq, if_true, if_false] at hb ⊢
    omega
  | spawn h | spawnFailed h | notifyRequest h =>
    obtain rfl : thread = _ := h
    simp only [notify, tally] at hb ⊢
    omega
  | hand h =>
    obtain rfl : thread = _ := h
    split
    · simp only [tally] at hb ⊢
      omega
    · rw [if_neg ‹_›] at hsound
      exact absurd rfl hsound
  | request h =>
    obtain rfl : thread = _ := h
    simp only [sendResult, tally, countP_append, count_append,
      countP_singleton, count_singleton, length_append, length_singleton,
      isProcess, isRead, beq_iff_eq, reduceCtorEq, if_true, if_false]
      at hb ⊢
    omega
  | reply h hr =>
    obtain ⟨rfl, rfl⟩ : thread = _ ∧ reply = _ := ⟨h, hr⟩
    simp only [tally, countP_cons, length_cons, Option.isNone_some, reduceCtorEq, if_false] at hb ⊢
    omega
  | replyEmpty h hr =>
    obtain rfl : reply = _ := hr
    simp at hreplies
  | write h =>
    obtain rfl : thread = _ := h
    simp only [tally] at hb ⊢
    omega
  | send h hroom =>
    obtain rfl : thread = _ := h
    rename_i result
    cases result with
    | snapshotRequested => exact absurd rfl hown
    | snapshotRead | process | snapshotWritten | fence =>
      simp only [sendResult, tally, countP_append, count_append,
        countP_singleton, count_singleton, length_append,
        length_singleton, isProcess, isRead, beq_iff_eq,
        reduceCtorEq, decide_true, decide_false, if_true, if_false] at hb ⊢
      omega
  | notify h =>
    obtain rfl : thread = _ := h
    rename_i sealing
    cases sealing <;>
      simp only [notify, tally, reduceCtorEq, if_true, if_false]
        at hb ⊢ <;>
      omega

end Thread

end Balanced

end WorkerSystem

end Realm
