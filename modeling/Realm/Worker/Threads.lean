import Realm.Worker.Persistence
import Realm.Worker.Write

/-!
# The worker and its threads

The event loop hands file and process work to a worker thread and takes its results; a
third thread reaps the children the worker spawned.  They share four bounded channels, a
counter of children and an eventfd.  A step is one operation on what they share, so every
interleaving of the three is a run.

The event loop never waits: a send that finds its channel full fails the daemon.  The worker
waits for room in the result channel, and for the snapshot it asked for.
-/

namespace Realm

open Text

def maxWorkerJobs : ℕ := 256

def maxWorkerResults : ℕ := 256

def maxSnapshotBytes : ℕ := 65535

inductive FixedConsumer where
  | terminal
  | launcher
  deriving DecidableEq

inductive ProcessJob where
  | spawn (argv : List String)
  | fixedConsumer (consumer : FixedConsumer)
  deriving DecidableEq

/-- A snapshot to write; the one written at shutdown has no sequence. -/
structure SnapshotJob where
  sequence : Option ℕ
  snapshot : SessionSnapshotV1
  deriving DecidableEq

inductive WorkerMessage where
  | readSnapshot
  | process (job : ProcessJob)
  | snapshotAvailable
  | sealed
  deriving DecidableEq

/-- What reading the snapshot file gives: there may be none, or the read may fail. -/
inductive SnapshotRead where
  | bytes (read : Bytes)
  | notFound
  | failed (message : String)
  deriving DecidableEq

/-- Outcome of classifying what was read of the snapshot file. -/
inductive SnapshotLoad where
  | fresh
  | recovered (snapshot : SessionSnapshotV1)
  | rejected (error : String)

namespace SnapshotLoad

/-- The snapshot a session starts from. -/
def snapshot : SnapshotLoad → Option SessionSnapshotV1
  | recovered snapshot => some snapshot
  | _ => none

def ofJson [SnapshotJson] (bytes : Bytes) : SnapshotLoad :=
  match SessionSnapshotV1.fromJson bytes with
  | .ok snapshot => recovered snapshot
  | .error error => rejected error

end SnapshotLoad

def classifySnapshotRead [SnapshotJson] : SnapshotRead → Except String SnapshotLoad
  | .notFound => .ok .fresh
  | .failed message => .error message
  | .bytes read => .ok (.ofJson read)

inductive WorkerResult where
  | snapshotRead (read : SnapshotRead)
  | snapshotRequested
  | process (result : Except String Unit)
  | snapshotWritten (sequence : Option ℕ) (result : Except String Unit)
  | fence
  deriving DecidableEq

inductive WorkerError where
  | disconnected
  | sealed
  deriving DecidableEq

/-- The event loop: it starts with the snapshot file and then serves; a commit sends its jobs
one at a time, a request is answered once it was received, and the seal follows the last
snapshot. -/
inductive LoopThread where
  | starting
  | reading
  | serving
  | committing (unsent : List ProcessJob)
  | answering
  | sealing (now : ℕ)
  | failed (error : WorkerError)
  | ended
  deriving DecidableEq

/-- The worker thread, by what it does next. -/
inductive WorkerThread where
  | receiving
  | spawning (job : ProcessJob)
  | handing
  | requesting
  | notifyingRequest
  | awaiting
  | writing (job : SnapshotJob)
  | sending (result : WorkerResult)
  | notifying (sealing : Bool)
  | stopped
  | aborted
  deriving DecidableEq

/-- The handle of the worker in the event loop. -/
structure Worker where
  pendingSnapshot : Option SnapshotJob
  outstandingProcess : ℕ
  reservedProcess : ℕ
  sealedAt : Option ℕ
  fenceAcknowledged : Bool
  pendingResultNotifications : ℕ

/-- What the threads share.  Of a child only its presence matters. -/
structure Channels where
  messages : List WorkerMessage
  snapshotReply : List (Option SnapshotJob)
  results : List WorkerResult
  eventFd : ℕ
  children : ℕ
  ownedChildren : ℕ

/-- The three threads, what they share and the directory of the snapshot.  The reaper holds
`live` children, and `reaped` ones it has waited for and not yet taken off the counter.  The
last four fields are the history: the snapshot observed last, the jobs committed, the results
sent and the requests answered. -/
structure WorkerSystem where
  loop : LoopThread
  handle : Worker
  coordinator : PersistenceCoordinator
  shared : Channels
  thread : WorkerThread
  live : ℕ
  reaped : ℕ
  dir : SnapshotDir
  observed : Option SessionSnapshotV1
  committed : List ProcessJob
  sent : List WorkerResult
  answered : ℕ

namespace WorkerSystem

def start (dir : SnapshotDir) : WorkerSystem where
  loop := .starting
  handle := ⟨none, 0, 0, none, false, 0⟩
  coordinator := .new none
  shared := ⟨[], [], [], 0, 0, 0⟩
  thread := .receiving
  live := 0
  reaped := 0
  dir := dir
  observed := none
  committed := []
  sent := []
  answered := 0

/-! ## The event loop -/

def trySend (s : WorkerSystem) (message : WorkerMessage) : Except WorkerError WorkerSystem :=
  if s.thread ≠ .stopped ∧ s.shared.messages.length < maxWorkerJobs + 2 then
    .ok { s with shared.messages := s.shared.messages ++ [message] }
  else .error .disconnected

def requestSnapshotRead (s : WorkerSystem) : Except WorkerError WorkerSystem :=
  if s.handle.sealedAt.isSome then .error .sealed else s.trySend .readSnapshot

def admits (s : WorkerSystem) (count : ℕ) : Bool :=
  s.handle.sealedAt.isNone &&
    s.shared.ownedChildren + s.handle.reservedProcess + count ≤ maxWorkerJobs

def reserveProcessJobs (s : WorkerSystem) (count : ℕ) : WorkerSystem :=
  if s.admits count then
    { s with handle.reservedProcess := s.handle.reservedProcess + count }
  else s

def cancel (s : WorkerSystem) (count : ℕ) : WorkerSystem :=
  { s with handle.reservedProcess := s.handle.reservedProcess - count }

/-- The first half of a commit: the jobs count as children before they are sent. -/
def commit (s : WorkerSystem) (jobs : List ProcessJob) : WorkerSystem :=
  { s with
    handle.reservedProcess := s.handle.reservedProcess - jobs.length
    shared.ownedChildren := s.shared.ownedChildren + jobs.length
    committed := s.committed ++ jobs
    loop := .committing jobs }

def sendJob (s : WorkerSystem) (job : ProcessJob) (rest : List ProcessJob) :
    Except WorkerError WorkerSystem := do
  let s ← s.trySend (.process job)
  return { s with
    handle.outstandingProcess := s.handle.outstandingProcess + 1
    loop := .committing rest }

def submitJob (s : WorkerSystem) (job : SnapshotJob) : Except WorkerError WorkerSystem := do
  if s.handle.sealedAt.isSome then .error .sealed
  else do
    let s ← if s.handle.pendingSnapshot.isNone then s.trySend .snapshotAvailable else .ok s
    return { s with handle.pendingSnapshot := some job }

def submitSnapshot (s : WorkerSystem) (sequence : ℕ) (snapshot : SessionSnapshotV1) :
    Except WorkerError WorkerSystem := s.submitJob ⟨some sequence, snapshot⟩

def submitShutdownSnapshot (s : WorkerSystem) (snapshot : SessionSnapshotV1) :
    Except WorkerError WorkerSystem := s.submitJob ⟨none, snapshot⟩

def answerSnapshotRequest (s : WorkerSystem) : Except WorkerError WorkerSystem :=
  if s.thread ≠ .stopped ∧ s.shared.snapshotReply.length < 1 then
    .ok { s with
      shared.snapshotReply := s.shared.snapshotReply ++ [s.handle.pendingSnapshot]
      handle.pendingSnapshot := none
      answered := s.answered + 1
      loop := .serving }
  else .error .disconnected

def sealWorker (s : WorkerSystem) (now : ℕ) : Except WorkerError WorkerSystem :=
  ({ s with handle.sealedAt := some now } : WorkerSystem).trySend .sealed

/-- A failed call of the event loop ends the daemon. -/
def settle (s : WorkerSystem) : Except WorkerError WorkerSystem → WorkerSystem
  | .ok s' => s'
  | .error error => { s with loop := .failed error }

/-- Take the due snapshot to the worker; the daemon ends when the sequences are used up. -/
def submitDueSnapshot (s : WorkerSystem) (now : ℕ) : WorkerSystem :=
  match s.coordinator.takeDue now with
  | none => { s with loop := .ended }
  | some (none, c) => { s with coordinator := c }
  | some (some request, c) =>
    s.settle (({ s with coordinator := c } : WorkerSystem).submitSnapshot request.sequence
      request.snapshot)

/-- The first half of the end of the worker: its last snapshot. -/
def beginTerminalWorker (s : WorkerSystem) (now : ℕ) : WorkerSystem :=
  match s.coordinator.shutdownSnapshot with
  | none => { s with loop := .sealing now }
  | some snapshot =>
    s.settle ((s.submitShutdownSnapshot snapshot).map fun s => { s with loop := .sealing now })

def drainEventfd (s : WorkerSystem) : WorkerSystem :=
  { s with
    handle.pendingResultNotifications := s.shared.eventFd
    shared.eventFd := 0 }

/-- The result the startup waits for; a file that cannot be read ends the daemon. -/
def loadStartupSnapshot [SnapshotJson] (s : WorkerSystem) : WorkerResult → WorkerSystem
  | .snapshotRead read =>
    match classifySnapshotRead read with
    | .ok load => { s with coordinator := .new load.snapshot, loop := .serving }
    | .error _ => { s with loop := .ended }
  | _ => { s with loop := .ended }

def completionOf : Except String Unit → PersistCompletion
  | .ok () => .succeeded
  | .error _ => .failed

def serviceResult (s : WorkerSystem) (now : ℕ) : WorkerResult → WorkerSystem
  | .snapshotRead _ => { s with loop := .ended }
  | .snapshotRequested => { s with loop := .answering }
  | .process _ =>
    if s.handle.outstandingProcess = 0 then { s with loop := .ended }
    else { s with handle.outstandingProcess := s.handle.outstandingProcess - 1 }
  | .snapshotWritten (some sequence) result =>
    match s.coordinator.complete sequence (completionOf result) now with
    | .ok c => { s with coordinator := c }
    | .error _ => { s with loop := .ended }
  | .snapshotWritten none _ => s
  | .fence => { s with handle.fenceAcknowledged := true }

/-- Take the next result off the channel; a notification without a result is an error. -/
def tryRecv (s : WorkerSystem) : Except WorkerError (WorkerResult × WorkerSystem) :=
  match s.shared.results with
  | [] => .error .disconnected
  | result :: results => .ok (result, { s with
      shared.results := results
      handle.pendingResultNotifications := s.handle.pendingResultNotifications - 1 })

/-! ## Steps -/

def readSnapshotBounded (dir : SnapshotDir) : SnapshotRead :=
  match dir.file with
  | some bytes => .bytes (bytes.take (maxSnapshotBytes + 1))
  | none => .notFound

def sendResult (s : WorkerSystem) (result : WorkerResult) (thread : WorkerThread) : WorkerSystem :=
  { s with
    shared.results := s.shared.results ++ [result]
    sent := s.sent ++ [result]
    thread := thread }

def notify (s : WorkerSystem) (thread : WorkerThread) : WorkerSystem :=
  { s with shared.eventFd := s.shared.eventFd + 1, thread := thread }

def takeMessage (s : WorkerSystem) (rest : List WorkerMessage) (thread : WorkerThread) :
    WorkerSystem :=
  { s with shared.messages := rest, thread := thread }

section Steps

variable [SnapshotJson]

/-- The steps of the event loop.  A session that has left its live phase emits no snapshot, so
nothing is observed after the seal. -/
inductive LoopStep (s : WorkerSystem) : WorkerSystem → Prop where
  | start (h : s.loop = .starting) :
      LoopStep s (s.settle (s.requestSnapshotRead.map fun s => { s with loop := .reading }))
  | reserve (h : s.loop = .serving) (count : ℕ) : LoopStep s (s.reserveProcessJobs count)
  | cancel (h : s.loop = .serving) {count : ℕ} (hcount : count ≤ s.handle.reservedProcess) :
      LoopStep s (s.cancel count)
  | commit (h : s.loop = .serving) (hopen : s.handle.sealedAt = none) {jobs : List ProcessJob}
      (hjobs : jobs.length ≤ s.handle.reservedProcess) : LoopStep s (s.commit jobs)
  | send {job : ProcessJob} {rest : List ProcessJob} (h : s.loop = .committing (job :: rest)) :
      LoopStep s (settle { s with
        shared.ownedChildren := s.shared.ownedChildren - (rest.length + 1) } (s.sendJob job rest))
  | committed (h : s.loop = .committing []) : LoopStep s { s with loop := .serving }
  | observe (h : s.loop = .serving) (hopen : s.handle.sealedAt = none)
      (snapshot : SessionSnapshotV1) (now : ℕ) : LoopStep s { s with
        coordinator := (s.coordinator.observe (some snapshot) now).2
        observed := some snapshot }
  | submitDue (h : s.loop = .serving) (hopen : s.handle.sealedAt = none) (now : ℕ) :
      LoopStep s (s.submitDueSnapshot now)
  | terminal (h : s.loop = .serving) (hopen : s.handle.sealedAt = none) (now : ℕ) :
      LoopStep s (s.beginTerminalWorker now)
  | sealing {now : ℕ} (h : s.loop = .sealing now) :
      LoopStep s (s.settle ((s.sealWorker now).map fun s => { s with loop := .serving }))
  | drain (h : s.loop = .reading ∨ s.loop = .serving)
      (hzero : s.handle.pendingResultNotifications = 0) : LoopStep s s.drainEventfd
  | load (h : s.loop = .reading) (hpos : 0 < s.handle.pendingResultNotifications) :
      LoopStep s (s.settle (s.tryRecv.map fun received =>
        received.2.loadStartupSnapshot received.1))
  | service (h : s.loop = .serving) (hpos : 0 < s.handle.pendingResultNotifications) (now : ℕ) :
      LoopStep s (s.settle (s.tryRecv.map fun received =>
        received.2.serviceResult now received.1))
  | answer (h : s.loop = .answering) : LoopStep s (s.settle s.answerSnapshotRequest)

/-- The steps of the worker thread.  A read, a spawn and a write go as the system lets them. -/
inductive ThreadStep (fails : WriteCall → Prop) (s : WorkerSystem) : WorkerSystem → Prop where
  | read {rest : List WorkerMessage} (h : s.thread = .receiving)
      (hm : s.shared.messages = .readSnapshot :: rest) {read : SnapshotRead}
      (hread : read = readSnapshotBounded s.dir ∨ ∃ message, read = .failed message) :
      ThreadStep fails s (s.takeMessage rest (.sending (.snapshotRead read)))
  | process {job : ProcessJob} {rest : List WorkerMessage} (h : s.thread = .receiving)
      (hm : s.shared.messages = .process job :: rest) :
      ThreadStep fails s (s.takeMessage rest (.spawning job))
  | available {rest : List WorkerMessage} (h : s.thread = .receiving)
      (hm : s.shared.messages = .snapshotAvailable :: rest) :
      ThreadStep fails s (s.takeMessage rest .requesting)
  | sealed {rest : List WorkerMessage} (h : s.thread = .receiving)
      (hm : s.shared.messages = .sealed :: rest) :
      ThreadStep fails s (s.takeMessage rest (.sending .fence))
  | spawn {job : ProcessJob} (h : s.thread = .spawning job) :
      ThreadStep fails s { s with thread := .handing }
  | spawnFailed {job : ProcessJob} (h : s.thread = .spawning job) (error : String) :
      ThreadStep fails s { s with
        shared.ownedChildren := s.shared.ownedChildren - 1
        thread := .sending (.process (.error error)) }
  | hand (h : s.thread = .handing) : ThreadStep fails s
      (if s.shared.children < maxWorkerJobs then
        { s with
          shared.children := s.shared.children + 1
          thread := .sending (.process (.ok ())) }
      else { s with thread := .aborted })
  | request (h : s.thread = .requesting) (hroom : s.shared.results.length < maxWorkerResults) :
      ThreadStep fails s (s.sendResult .snapshotRequested .notifyingRequest)
  | notifyRequest (h : s.thread = .notifyingRequest) : ThreadStep fails s (s.notify .awaiting)
  | reply {job : SnapshotJob} {rest : List (Option SnapshotJob)} (h : s.thread = .awaiting)
      (hr : s.shared.snapshotReply = some job :: rest) :
      ThreadStep fails s { s with shared.snapshotReply := rest, thread := .writing job }
  | replyEmpty {rest : List (Option SnapshotJob)} (h : s.thread = .awaiting)
      (hr : s.shared.snapshotReply = none :: rest) :
      ThreadStep fails s { s with shared.snapshotReply := rest, thread := .receiving }
  | write {job : SnapshotJob} {result : Except String Unit} {dir : SnapshotDir}
      (h : s.thread = .writing job) (hwrite : (SnapshotDir.machine fails).Returns
        (writeSnapshotAtomically job.snapshot) s.dir result dir) :
      ThreadStep fails s { s with
        dir := dir, thread := .sending (.snapshotWritten job.sequence result) }
  | send {result : WorkerResult} (h : s.thread = .sending result)
      (hroom : s.shared.results.length < maxWorkerResults) :
      ThreadStep fails s (s.sendResult result (.notifying (result = .fence)))
  | notify {sealing : Bool} (h : s.thread = .notifying sealing) :
      ThreadStep fails s (s.notify (if sealing then .stopped else .receiving))

/-- The steps of the reaper: it takes a child over, waits for one that has exited, and takes
it off the counter. -/
inductive ReaperStep (s : WorkerSystem) : WorkerSystem → Prop where
  | adopt (h : 0 < s.shared.children) : ReaperStep s { s with
      shared.children := s.shared.children - 1, live := s.live + 1 }
  | reap (h : 0 < s.live) : ReaperStep s { s with live := s.live - 1, reaped := s.reaped + 1 }
  | release (h : 0 < s.reaped) : ReaperStep s { s with
      reaped := s.reaped - 1, shared.ownedChildren := s.shared.ownedChildren - 1 }

/-- One step of one of the threads. -/
inductive Step (fails : WriteCall → Prop) (s s' : WorkerSystem) : Prop where
  | loop (h : LoopStep s s')
  | thread (h : ThreadStep fails s s')
  | reaper (h : ReaperStep s s')

/-- The states of a daemon started beside this directory. -/
inductive Reachable (fails : WriteCall → Prop) (dir : SnapshotDir) : WorkerSystem → Prop where
  | start : Reachable fails dir (start dir)
  | step {s s' : WorkerSystem} (h : Reachable fails dir s) (hstep : Step fails s s') :
      Reachable fails dir s'

end Steps

end WorkerSystem

end Realm
