import Realm.Worker.Pipeline
import Realm.Worker.Proceeds

/-!
# The threads carry the snapshots to the file

A snapshot on its way is in the slot of the event loop, in the reply to the worker, in the
hands of the worker or among the results.  With these places for its stages every run of the
threads is a run of the pipeline, so what the pipeline keeps holds of the threads.
-/

namespace Realm

open Text List Bool WorkerResult LoopThread PersistenceCoordinator WorkerSystem SnapshotLoad

namespace WorkerThread

/-- The snapshot in the hands of the worker. -/
def stages : WorkerThread → List Stage
  | writing job => [.waiting job]
  | sending (.snapshotWritten sequence result) => [.written sequence result]
  | _ => []

end WorkerThread

namespace WorkerResult

def stage : WorkerResult → Option Stage
  | snapshotWritten sequence result => some (.written sequence result)
  | _ => none

def isFailedWrite : WorkerResult → Bool
  | snapshotWritten _ result => result ≠ .ok ()
  | _ => false

end WorkerResult

/-- Whether the worker holds the result of a failed write. -/
def WorkerThread.fails : WorkerThread → Bool
  | sending result => result.isFailedWrite
  | _ => false

/-- Whether the last snapshot has been put and the seal is next. -/
def LoopThread.closes : LoopThread → Bool
  | sealing _ => true
  | _ => false

namespace WorkerSystem

/-- The snapshots on their way, the oldest first. -/
def stages (s : WorkerSystem) : List Stage :=
  s.shared.results.filterMap WorkerResult.stage ++ s.thread.stages ++
    s.shared.snapshotReply.filterMap (·.map .waiting) ++
    s.handle.pendingSnapshot.toList.map .waiting

def pipeline (s : WorkerSystem) : Pipeline where
  coordinator := s.coordinator
  stages := s.stages
  dir := s.dir
  observed := s.observed
  started := !s.loop.starts
  closed := s.loop.closes || s.handle.sealedAt.isSome
  failed := s.thread.fails || s.sent.any WorkerResult.isFailedWrite

/-- What was read at startup is what is in the file. -/
def Reads (s : WorkerSystem) : Prop :=
  s.loop = .reading → ∀ read,
    s.thread = .sending (.snapshotRead read) ∨ .snapshotRead read ∈ s.shared.results →
      read = readSnapshotBounded s.dir ∨ ∃ message, read = .failed message

variable {s s' : WorkerSystem}

theorem put_submitted (s : WorkerSystem) (job : SnapshotJob) :
    Put job s.stages (s.submitted job).stages := by
  cases hslot : s.handle.pendingSnapshot with
  | none =>
    have hstages : (s.submitted job).stages = s.stages ++ [.waiting job] := by
      simp [stages, submitted, hslot]
    rw [hstages]
    exact .append _
  | some old =>
    have hold : s.stages = (s.shared.results.filterMap stage ++ s.thread.stages ++
        s.shared.snapshotReply.filterMap (·.map .waiting)) ++ [.waiting old] := by
      simp [stages, hslot]
    have hnew : (s.submitted job).stages =
        (s.shared.results.filterMap stage ++ s.thread.stages ++
          s.shared.snapshotReply.filterMap (·.map .waiting)) ++ [.waiting job] := by
      simp [stages, submitted]
    rw [hold, hnew]
    exact .replace _ _

theorem stages_received {result : WorkerResult} {rest : List WorkerResult}
    (hr : s.shared.results = result :: rest) :
    s.stages = result.stage.toList ++ (s.received rest).stages := by
  have hstage : (result :: rest).filterMap stage =
      result.stage.toList ++ rest.filterMap stage := by
    rw [filterMap_cons]
    cases result.stage <;> rfl
  simp [stages, received, hr, hstage]

def quiet (c : PersistenceCoordinator) (dir : SnapshotDir) (observed : Option SessionSnapshotV1)
    (sent : List WorkerResult) (answered : ℕ) : WorkerSystem where
  loop := .serving
  handle := ⟨none, 0, 0, none, false, 0⟩
  coordinator := c
  shared := ⟨[], [], [], 0, 0, 0⟩
  thread := .receiving
  live := 0
  reaped := 0
  dir := dir
  observed := observed
  committed := []
  sent := sent
  answered := answered

section Steps

variable [SnapshotJson] {fails : WriteCall → Prop} {origin : SnapshotDir}

theorem pipeline_loop (h : s.Proceeds s') (hreads : s.Reads)
    (hfresh : s.loop = .reading → s.stages = []) :
    s'.pipeline = s.pipeline ∨ Pipeline.Step fails s.pipeline s'.pipeline := by
  have hlive (h : s.loop = .serving) : s.pipeline.started = true := by
    simp [pipeline, h, starts]
  have hunclosed (h : s.loop = .serving) (hopen : s.handle.sealedAt = none) :
      s.pipeline.closed = false := by
    simp [pipeline, h, hopen, closes]
  cases h with
  | full | reserve | cancel | drain => exact .inl rfl
  | start h | send h | committed h | exhausted h | sealing h | commit h =>
    left
    simp [pipeline, stages, commit, h, starts, closes]
  | observe h hopen snapshot now => exact .inr (.observe (hlive h) (hunclosed h hopen) snapshot now)
  | notDue h hopen htake =>
    left
    generalize hrequest : (none : Option PersistRequest) = request at htake
    cases takes_of_takeDue htake with
    | idle => rfl
    | issues => cases hrequest
  | submit h hopen htake =>
    exact .inr (.issue (hlive h) (hunclosed h hopen) htake (s.put_submitted _))
  | unchanged h hopen hnone =>
    right
    have hstep : Pipeline.Step fails s.pipeline _ := .close (hlive h) (hunclosed h hopen) hnone
    simpa [pipeline, stages, h, starts, closes] using hstep
  | terminal h hopen hsome =>
    right
    rename_i snapshot
    have hstep : Pipeline.Step fails s.pipeline _ :=
      .closeWith (hlive h) (hunclosed h hopen) hsome (s.put_submitted ⟨none, snapshot⟩)
    simpa [pipeline, stages, submitted, h, starts, closes] using hstep
  | loaded h hpos hr hread =>
    right
    rename_i read rest load
    have hbounded : read = readSnapshotBounded s.dir := by
      obtain hbounded | ⟨message, rfl⟩ := hreads h read (.inr (hr ▸ mem_cons_self))
      · exact hbounded
      · cases hread
    have hstep : Pipeline.Step fails s.pipeline _ :=
      .recover (by simp [pipeline, h, starts]) (hbounded ▸ hread)
    have hstage : s.shared.results.filterMap stage =
        rest.filterMap stage := by
      rw [hr]
      rfl
    simpa [pipeline, stages, received, hstage, h, starts, closes] using
      hstep
  | unloaded h hpos hr hresult =>
    right
    rename_i result rest
    have hstep : Pipeline.Step fails s.pipeline _ :=
      .abandon (by simp [pipeline, h, starts])
    have hstage : s.shared.results.filterMap stage =
        rest.filterMap stage := by
      have hnil := hfresh h
      simp only [stages, hr, append_eq_nil_iff] at hnil
      have hnone := filterMap_eq_nil_iff.1 hnil.1.1.1
      rw [hr, hnil.1.1.1, filterMap_eq_nil_iff.2]
      exact fun result hmem => hnone result (mem_cons_of_mem _ hmem)
    simpa [pipeline, stages, received, hstage, h, starts, closes] using
      hstep
  | requested h hpos hr | processed h hpos hr | fenced h hpos hr =>
    left
    rename_i rest
    have hstage : s.shared.results.filterMap stage =
        rest.filterMap stage := by
      rw [hr]
      rfl
    simp [pipeline, stages, received, hstage, h, starts, closes]
  | completed h hpos hr hc => exact .inr (.complete (stages_received hr) hc)
  | mismatched h hpos hr hc =>
    right
    have hstep : Pipeline.Step fails s.pipeline _ := .mismatch (stages_received hr) hc
    simpa [pipeline, stages, received, h, starts, closes] using hstep
  | final h hpos hr => exact .inr (.final (stages_received hr))
  | answer h hslot hreply =>
    left
    simp [pipeline, stages, h, hslot, hreply, starts, closes]

theorem pipeline_thread (hs : s.Sound) (h : ThreadStep fails s s') :
    s'.pipeline = s.pipeline ∨ Pipeline.Step fails s.pipeline s'.pipeline := by
  cases h with
  | read h | process h | available h | sealed h | spawn h | spawnFailed h | notifyRequest h =>
    left
    simp [pipeline, stages, takeMessage, notify, h, WorkerThread.stages,
      WorkerThread.fails, isFailedWrite]
  | hand h =>
    left
    rw [if_pos (hs.hand_children h)]
    simp [pipeline, stages, h, WorkerThread.stages, WorkerThread.fails, isFailedWrite]
  | request h =>
    left
    simp [pipeline, stages, sendResult, h, WorkerThread.stages, WorkerThread.fails,
      stage, isFailedWrite]
  | reply h hr | replyEmpty h hr =>
    left
    simp [pipeline, stages, h, hr, WorkerThread.stages, WorkerThread.fails]
  | write h hwrite =>
    right
    rename_i job result dir
    have hwrote := (meets_writeSnapshotAtomically fails job.snapshot s.dir).returns hwrite
    have hstages : s.stages = s.shared.results.filterMap stage ++ .waiting job ::
        (s.shared.snapshotReply.filterMap (·.map .waiting) ++
          s.handle.pendingSnapshot.toList.map .waiting) := by
      simp [stages, h, WorkerThread.stages]
    have hdone (job : SnapshotJob) :
        .waiting job ∉ s.shared.results.filterMap stage := by
      rw [mem_filterMap]
      rintro ⟨result, -, hstage⟩
      cases result <;> cases hstage
    have hstep : Pipeline.Step fails s.pipeline _ := .write hstages hdone hwrote
    simpa [pipeline, stages, h, WorkerThread.stages, WorkerThread.fails,
      isFailedWrite, Bool.or_comm] using hstep
  | @send result h hroom =>
    left
    cases result <;>
    simp [pipeline, stages, sendResult, h, WorkerThread.stages, WorkerThread.fails,
      stage, isFailedWrite, Bool.or_comm]
  | @notify sealing h =>
    left
    cases sealing <;>
    simp [pipeline, stages, notify, h, WorkerThread.stages, WorkerThread.fails]

/-! ## Every reachable state -/

/-- The threads are sound, what was read is in the file, and the pipeline is kept. -/
structure Carries (fails : WriteCall → Prop) (origin : SnapshotDir) (s : WorkerSystem) : Prop where
  sound : s.Sound
  reads : s.Reads
  kept : s.pipeline.Kept fails origin

namespace Carries

theorem start (fails : WriteCall → Prop) (dir : SnapshotDir) :
    (WorkerSystem.start dir).Carries fails dir where
  sound := .start dir
  reads := nofun
  kept := ⟨fun _ => ⟨rfl, rfl, rfl, rfl⟩, nofun, ⟨[], [], rfl, .free rfl fun _ => .inl nofun,
    .none nofun⟩, nofun⟩

theorem stages_eq_nil (hs : s.Carries fails origin) (h : s.loop.starts) : s.stages = [] :=
  hs.kept.stages_of_fresh (by simp [pipeline, h])

theorem reads_loop (hs : s.Carries fails origin) (h : s.Proceeds s') : s'.Reads := by
  cases h with
  | full | drain => exact hs.reads
  | start h =>
    -- nothing was read before
    intro _ read hread
    have hreading := hs.sound.balanced.reading
    simp only [h, tally, Nat.le_zero, Nat.add_eq_zero_iff] at hreading
    obtain hthread | hmem := hread
    · rw [show s.thread = _ from hthread] at hreading
      exact absurd hreading.1.2 one_ne_zero
    · exact absurd rfl (countP_eq_zero.1 hreading.2 _ hmem)
  | reserve h | cancel h | observe h | notDue h | submit h | processed h | completed h | final h
  | fenced h =>
    intro hreading
    cases h.symm.trans hreading
  | commit | send | committed | exhausted | unchanged | terminal | sealing | loaded | unloaded
  | requested | mismatched | answer =>
    intro hreading
    cases hreading

theorem reads_thread (hs : s.Carries fails origin) (h : ThreadStep fails s s') : s'.Reads := by
  intro hreading read hread
  cases h with
  | read h hm hbounded =>
    obtain hthread | hmem := hread
    · cases hthread
      exact hbounded
    · exact hs.reads hreading read (.inr hmem)
  | write h =>
    have hnil := hs.stages_eq_nil (by rw [show s.loop = _ from hreading]; rfl)
    simp [stages, h, WorkerThread.stages] at hnil
  | send h =>
    obtain hthread | hmem := hread
    · cases hthread
    · obtain hmem | hmem := mem_append.1 hmem
      · exact hs.reads hreading read (.inr hmem)
      · obtain rfl := mem_singleton.1 hmem
        exact hs.reads hreading read (.inl h)
  | request =>
    obtain hthread | hmem := hread
    · cases hthread
    · obtain hmem | hmem := mem_append.1 hmem
      · exact hs.reads hreading read (.inr hmem)
      · cases mem_singleton.1 hmem
  | hand h =>
    rw [if_pos (hs.sound.hand_children h)] at hreading hread ⊢
    exact hs.reads hreading read (.inr (hread.resolve_left nofun))
  | @notify sealing h =>
    refine hs.reads hreading read (.inr (hread.resolve_left ?_))
    cases sealing <;> nofun
  | process | available | sealed | spawn | spawnFailed | notifyRequest | reply | replyEmpty =>
    exact hs.reads hreading read (.inr (hread.resolve_left nofun))

theorem pipeline_step (hs : s.Carries fails origin) (h : Step fails s s') :
    s'.pipeline = s.pipeline ∨ Pipeline.Step fails s.pipeline s'.pipeline := by
  cases h with
  | loop h =>
    refine pipeline_loop (hs.sound.balanced.proceeds h hs.sound.early hs.sound.idle) hs.reads ?_
    exact fun h => hs.stages_eq_nil (by rw [h]; rfl)
  | thread h => exact pipeline_thread hs.sound h
  | reaper h =>
    cases h with
    | adopt | reap | release => exact .inl rfl

theorem step (hs : s.Carries fails origin) (h : Step fails s s') : s'.Carries fails origin where
  sound := hs.sound.step h
  reads := by
    cases h with
    | loop h => exact hs.reads_loop (hs.sound.balanced.proceeds h hs.sound.early hs.sound.idle)
    | thread h => exact hs.reads_thread h
    | reaper h =>
      cases h with
      | adopt | reap | release => exact hs.reads
  kept := by
    obtain heq | hstep := hs.pipeline_step h
    · exact heq ▸ hs.kept
    · exact hs.kept.step hstep

theorem of_reachable {dir : SnapshotDir} (h : Reachable fails dir s) : s.Carries fails dir := by
  induction h with
  | start => exact .start fails dir
  | step _ hstep ih => exact ih.step hstep

theorem of_acknowledged (hs : s.Carries fails origin) (hack : s.handle.fenceAcknowledged = true) :
    s.pipeline.closed = true ∧ s.stages = [] ∧ s.thread.fails = false := by
  have hb := hs.sound.balanced
  have hfences := s.thread.fences_le
  have hacknowledged := hb.acknowledged
  have hfence := hb.fence
  rw [hack, toNat_true] at hacknowledged
  have hcount : s.shared.results.count .fence = 0 ∧ s.thread.tally.fences = 1 := by omega
  have hresults : s.shared.results = [] := by
    by_contra hne
    -- the last of the results would be the fence
    have hmem : .fence ∈ s.sent := count_pos_iff.1 (by omega)
    have hsent := ne_nil_of_mem hmem
    have hlast : s.sent.getLast hsent = .fence := by
      rw [← dropLast_append_getLast hsent, mem_append] at hmem
      exact (mem_singleton.1 (hmem.resolve_left hs.sound.fence)).symm
    refine count_eq_zero.1 hcount.1 ?_
    rw [← hlast, ← hs.sound.suffix.getLast hne]
    exact getLast_mem hne
  have hthread := WorkerThread.of_fences hcount.2
  have hmessages : s.shared.messages = [] := by
    refine hs.sound.emptied ?_
    obtain h | h := hthread <;> rw [h] <;> rfl
  have hidle : s.thread.tally.asks = 0 ∧ s.thread.tally.requests = 0 ∧ s.thread.stages = [] ∧
      s.thread.fails = false ∧ s.thread.tally.seals = 1 := by
    obtain h | h := hthread <;> rw [h] <;> exact ⟨rfl, rfl, rfl, rfl, rfl⟩
  have hslot := hb.slot
  have hrequest := hb.request
  have hsealed := hb.sealed
  simp only [asked, hmessages, hresults, hidle, count_nil] at hslot hrequest hsealed
  have hreply : s.shared.snapshotReply = [] := length_eq_zero_iff.1 (by omega)
  have hnone : s.handle.pendingSnapshot = none := by
    rw [← Option.not_isSome_iff_eq_none]
    intro hsome
    rw [hsome, toNat_true] at hslot
    omega
  have hsome : s.handle.sealedAt.isSome = true := by
    cases h : s.handle.sealedAt.isSome with
    | true => rfl
    | false =>
      rw [h, toNat_false] at hsealed
      omega
  refine ⟨by simp [pipeline, hsome], ?_, hidle.2.2.2.1⟩
  simp [stages, hresults, hreply, hnone, hidle]

end Carries

/-! ## A quiet worker -/

section Quiet

variable {dir₀ dir dir' : SnapshotDir} {c c₁ c₂ : PersistenceCoordinator}
  {observed : Option SessionSnapshotV1} {sent : List WorkerResult} {answered : ℕ}

theorem Reachable.quiet_startup {load : SnapshotLoad} (h : startup dir = .ok load) :
    Reachable fails dir
      (quiet (.new load.snapshot) dir none [.snapshotRead (readSnapshotBounded dir)] 0) := by
  have hroom : 0 < maxWorkerResults := by decide
  have hasked := (Reachable.start : Reachable fails dir _).step (.loop (.start rfl))
  have hread := hasked.step (.thread (.read rfl rfl (.inl rfl)))
  have hsent := hread.step (.thread (.send rfl hroom))
  have hnotified := hsent.step (.thread (.notify rfl))
  have hdrained := hnotified.step (.loop (.drain (.inl rfl) rfl))
  have hloaded : Reachable fails dir (loadStartupSnapshot
      { quiet (.new none) dir none [.snapshotRead (readSnapshotBounded dir)] 0 with
        loop := .reading } (.snapshotRead (readSnapshotBounded dir))) :=
    hdrained.step (.loop (.load rfl one_pos))
  rw [startup] at h
  rw [loadStartupSnapshot, h] at hloaded
  exact hloaded

theorem Reachable.quiet_observe (h : Reachable fails dir₀ (quiet c dir observed sent answered))
    (snapshot : SessionSnapshotV1) (now : ℕ) : Reachable fails dir₀
      (quiet (c.observe (some snapshot) now).2 dir (some snapshot) sent answered) :=
  h.step (.loop (.observe rfl rfl snapshot now))

/-- The recovered snapshot is observed again, and nothing is written. -/
theorem Reachable.quiet_recovered {snapshot : SessionSnapshotV1}
    (h : startup dir = .ok (.recovered snapshot)) : Reachable fails dir
      (quiet (.new (some snapshot)) dir (some snapshot)
        [.snapshotRead (readSnapshotBounded dir)] 0) := by
  have hobserve : ((new (some snapshot)).observe (some snapshot) 0).2 =
      .new (some snapshot) := by
    simp [observe, new]
  exact hobserve ▸ (Reachable.quiet_startup h).quiet_observe snapshot 0

theorem Reachable.quiet_write {request : PersistRequest} {now now' : ℕ}
    {result : Except String Unit} (h : Reachable fails dir₀ (quiet c dir observed sent answered))
    (htake : c.takeDue now = some (some request, c₁))
    (hwrite : (SnapshotDir.machine fails).Returns (writeSnapshotAtomically request.snapshot) dir
      result dir') (hc : c₁.complete request.sequence (completionOf result) now' = .ok c₂) :
    Reachable fails dir₀ (quiet c₂ dir' observed
      (sent ++ [.snapshotRequested] ++ [.snapshotWritten (some request.sequence) result])
      (answered + 1)) := by
  have hroom : 0 < maxWorkerResults := by decide
  have hsubmitted := h.step (.loop (.submitDue rfl rfl now))
  rw [submitDueSnapshot, show (quiet c dir observed sent answered).coordinator = c from rfl,
    htake] at hsubmitted
  have htaken := hsubmitted.step (.thread (.available rfl rfl))
  have hasked := (htaken.step (.thread (.request rfl hroom))).step (.thread (.notifyRequest rfl))
  have hreceived := (hasked.step (.loop (.drain (.inr rfl) rfl))).step
    (.loop (.service rfl one_pos now))
  have hanswered := (hreceived.step (.loop (.answer rfl))).step (.thread (.reply rfl rfl))
  have hwritten := hanswered.step (.thread (.write rfl hwrite))
  have hsent := (hwritten.step (.thread (.send rfl hroom))).step (.thread (.notify rfl))
  have hserved : Reachable fails dir₀ (serviceResult
      (quiet c₁ dir' observed
        (sent ++ [.snapshotRequested] ++ [.snapshotWritten (some request.sequence) result])
        (answered + 1)) now' (.snapshotWritten (some request.sequence) result)) :=
    (hsent.step (.loop (.drain (.inr rfl) rfl))).step (.loop (.service rfl one_pos now'))
  rw [serviceResult, show (quiet c₁ dir' observed _ _).coordinator = c₁ from rfl, hc] at hserved
  exact hserved

theorem Reachable.quiet_end (h : Reachable fails dir₀ (quiet c dir observed sent answered))
    (hnone : c.shutdownSnapshot = none) (now : ℕ) :
    ∃ s, Reachable fails dir₀ s ∧ s.handle.fenceAcknowledged = true ∧ s.dir = dir ∧
      s.observed = observed ∧ s.sent = sent ++ [.fence] := by
  have hroom : 0 < maxWorkerResults := by decide
  have hsealing := h.step (.loop (.terminal rfl rfl now))
  rw [beginTerminalWorker, show (quiet c dir observed sent answered).coordinator = c from rfl,
    hnone] at hsealing
  have hsealed := hsealing.step (.loop (.sealing rfl))
  have hsent := ((hsealed.step (.thread (.sealed rfl rfl))).step (.thread (.send rfl hroom))).step
    (.thread (.notify rfl))
  have hserved := (hsent.step (.loop (.drain (.inr rfl) rfl))).step
    (.loop (.service rfl one_pos now))
  exact ⟨_, hserved, rfl, rfl, rfl, rfl⟩

end Quiet

/-! ## The file -/

/-- Unless opening or syncing the directory fails after a rename, the file is the encoding of
the snapshot observed last whenever no request is in flight and nothing is left for the
shutdown, exactly if it is the encoding of the snapshot recovered from it. -/
theorem file_holds_observed {dir : SnapshotDir}
    (hsynced : ¬fails .openParent ∧ ¬fails .syncParent) :
    (∀ s snapshot, Reachable fails dir s → s.coordinator.inFlight = none →
      s.coordinator.shutdownSnapshot = none → s.observed = some snapshot →
        s.dir.Encodes snapshot) ↔
    ∀ snapshot, startup dir = .ok (.recovered snapshot) → dir.Encodes snapshot := by
  constructor
  · intro h snapshot hrecovered
    exact h _ snapshot (.quiet_recovered hrecovered) rfl rfl rfl
  · intro hcanonical s snapshot h hfree hnone hobserved
    obtain hencodes | ⟨hfile, hrecovered⟩ :=
      (Carries.of_reachable h).kept.holds (.inl hsynced) hfree hnone hobserved
    · exact hencodes
    · obtain ⟨bytes, hbytes, hdir⟩ := hcanonical snapshot hrecovered
      exact ⟨bytes, hbytes, hfile.trans hdir⟩

end Steps

open PersistenceRun

theorem startup_watermark :
    @startup spacedJson ⟨some [1], none⟩ = .ok (.recovered (watermark 1)) := by
  let _ := spacedJson
  exact (startup_eq_recovered rfl).2 (by decide +kernel)

theorem takeDue_watermark : ((PersistenceCoordinator.new (some (watermark 1))).observe
    (some (watermark 2)) 0).2.takeDue 250 =
      some (some ⟨1, watermark 2⟩, ⟨some (watermark 1), none, some ⟨1, watermark 2⟩, 2⟩) := by
  decide +kernel

/-- The file holds A and B is written; the directory is not synced, so the write counts as failed
and B waits again.  When A is back nothing waits any more, and the file holds B. -/
theorem file_holds_observed_unsynced :
    ∃ (_ : SnapshotJson) (fails : WriteCall → Prop) (dir : SnapshotDir) (s : WorkerSystem)
      (snapshot : SessionSnapshotV1), Reachable fails dir s ∧ s.coordinator.inFlight = none ∧
        s.coordinator.shutdownSnapshot = none ∧ s.observed = some snapshot ∧
        ¬s.dir.Encodes snapshot := by
  let _ := spacedJson
  have hwrite : (SnapshotDir.machine (· = .syncParent)).Returns
      (writeSnapshotAtomically (watermark 2)) ⟨some [1], none⟩ (.error "sync")
      ⟨some [2], none⟩ :=
    returns_writeSnapshotAtomically (by decide +kernel)
      ⟨_, _, .inr ⟨rfl, ⟨_, rfl⟩, rfl⟩, rfl, rfl⟩
  have hcomplete : complete
      ⟨some (watermark 1), none, some ⟨1, watermark 2⟩, 2⟩ 1 (completionOf (.error "sync")) 260 =
        .ok ⟨some (watermark 1), some ⟨watermark 2, 510⟩, none, 2⟩ := by
    decide +kernel
  have hwritten := ((Reachable.quiet_startup startup_watermark).quiet_observe
    (watermark 2) 0).quiet_write takeDue_watermark hwrite hcomplete
  refine ⟨_, _, _, _, watermark 1, hwritten.quiet_observe (watermark 1) 270, ?_, ?_, rfl, ?_⟩
  · decide +kernel
  · decide +kernel
  · rintro ⟨bytes, hbytes, hfile⟩
    cases hfile
    revert hbytes
    decide +kernel

theorem reachable_written : @Reachable spacedJson (fun _ => False) ⟨some [1], none⟩
    (quiet ⟨some (watermark 2), none, none, 2⟩ ⟨some [2], none⟩ (some (watermark 2))
      [.snapshotRead (.bytes [1]), .snapshotRequested, .snapshotWritten (some 1) (.ok ())] 1) := by
  let _ := spacedJson
  have hwrite : (SnapshotDir.machine fun _ => False).Returns
      (writeSnapshotAtomically (watermark 2)) ⟨some [1], none⟩ (.ok ()) ⟨some [2], none⟩ :=
    returns_writeSnapshotAtomically (by decide +kernel) ⟨_, _, .inl ⟨rfl, rfl⟩, rfl, rfl⟩
  have hcomplete : complete
      ⟨some (watermark 1), none, some ⟨1, watermark 2⟩, 2⟩ 1 (completionOf (.ok ())) 260 =
        .ok ⟨some (watermark 2), none, none, 2⟩ := by
    decide +kernel
  exact ((Reachable.quiet_startup startup_watermark).quiet_observe (watermark 2)
    0).quiet_write takeDue_watermark hwrite hcomplete

theorem file_holds_observed_written :
    ∃ (_ : SnapshotJson) (s : WorkerSystem), Reachable (fun _ => False) ⟨some [1], none⟩ s ∧
      s.observed = some (watermark 2) ∧ s.dir.Encodes (watermark 2) := by
  let _ := spacedJson
  refine ⟨_, _, reachable_written, rfl,
    (file_holds_observed ⟨id, id⟩).2 ?_ _ _ reachable_written rfl rfl rfl⟩
  intro snapshot h
  cases startup_watermark.symm.trans h
  exact ⟨[1], by decide +kernel, rfl⟩

section Steps

variable [SnapshotJson] {fails : WriteCall → Prop} {origin : SnapshotDir}

/-- Once the fence is acknowledged and every write has succeeded, the file holds the snapshot
observed last, whatever was in flight, queued or waiting when the worker was sealed: it is the
encoding, or the file of the start that the snapshot was recovered from.  No later step writes
it again. -/
theorem file_holds_last {dir : SnapshotDir} (h : Reachable fails dir s)
    (hack : s.handle.fenceAcknowledged = true)
    (hwrites : ∀ sequence result, .snapshotWritten sequence result ∈ s.sent → result = .ok ()) :
    (∀ snapshot, s.observed = some snapshot → s.dir.Holds dir snapshot) ∧
      ∀ s', Relation.ReflTransGen (Step fails) s s' →
        s'.dir = s.dir ∧ s'.observed = s.observed := by
  have hs := Carries.of_reachable h
  obtain ⟨hclosed, hnil, hthread⟩ := hs.of_acknowledged hack
  have hfailed : s.pipeline.failed = false := by
    simp only [pipeline, hthread, Bool.false_or, any_eq_false]
    intro result hmem
    cases result with
    | snapshotWritten sequence result =>
      simp [WorkerResult.isFailedWrite, hwrites sequence result hmem]
    | snapshotRead | snapshotRequested | process | fence => nofun
  refine ⟨fun snapshot hobserved => hs.kept.landed_holds hclosed hnil hfailed hobserved, ?_⟩
  intro s' hrun
  -- the pipeline stands still
  have hstill : s'.Carries fails dir ∧ s'.pipeline = s.pipeline := by
    induction hrun with
    | refl => exact ⟨hs, rfl⟩
    | tail _ hstep ih =>
      obtain ⟨hcarries, heq⟩ := ih
      refine ⟨hcarries.step hstep, ?_⟩
      obtain heq' | hmoves := hcarries.pipeline_step hstep
      · exact heq'.trans heq
      · exact absurd (heq ▸ hmoves) (hs.kept.not_step hclosed hnil)
  exact ⟨congrArg Pipeline.dir hstill.2, congrArg Pipeline.observed hstill.2⟩

end Steps

theorem file_holds_last_written :
    ∃ (_ : SnapshotJson) (s : WorkerSystem), Reachable (fun _ => False) ⟨some [1], none⟩ s ∧
      s.handle.fenceAcknowledged = true ∧ s.dir.Holds ⟨some [1], none⟩ (watermark 2) := by
  let _ := spacedJson
  obtain ⟨s, hs, hack, -, hobserved, hsent⟩ := reachable_written.quiet_end rfl 300
  refine ⟨_, s, hs, hack, (file_holds_last hs hack ?_).1 _ hobserved⟩
  rw [hsent]
  simp

/-- The file holds A with a blank behind it.  A is recovered, and as it is observed last nothing
is written: the file is not the encoding of A. -/
theorem file_holds_last_respelled :
    ∃ (_ : SnapshotJson) (s : WorkerSystem), Reachable (fun _ => False) ⟨some [1, 32], none⟩ s ∧
      s.handle.fenceAcknowledged = true ∧
      (∀ sequence result, .snapshotWritten sequence result ∉ s.sent) ∧
      s.observed = some (watermark 1) ∧ ¬s.dir.Encodes (watermark 1) := by
  let _ := spacedJson
  have hrecovered : startup ⟨some [1, 32], none⟩ = .ok (.recovered (watermark 1)) :=
    (startup_eq_recovered rfl).2 (by decide +kernel)
  obtain ⟨s, hs, hack, hdir, hobserved, hsent⟩ :=
    (Reachable.quiet_recovered hrecovered).quiet_end rfl 300
  refine ⟨_, s, hs, hack, ?_, hobserved, ?_⟩
  · rw [hsent]
    simp
  · rintro ⟨bytes, hbytes, hfile⟩
    rw [hdir] at hfile
    cases hfile
    revert hbytes
    decide +kernel

end WorkerSystem

end Realm
