import Realm.Worker.Startup

/-!
# The way of a snapshot to the file

What the threads are for, without the threads: the coordinator issues snapshots, a snapshot
waits until it is written, and its result waits until the coordinator takes it.  At the end
one more snapshot is put behind the one that is on its way, or in the place of one whose write
has not begun.
-/

namespace Realm

open Text PersistenceCoordinator List Option SnapshotDir SnapshotLoad

variable {job : SnapshotJob}

/-- A snapshot on its way. -/
inductive Stage where
  | waiting (job : SnapshotJob)
  | written (sequence : Option ℕ) (result : Except String Unit)
  deriving DecidableEq

/-- A snapshot is put behind the others, or takes the place of the last one. -/
inductive Put (job : SnapshotJob) : List Stage → List Stage → Prop where
  | append (stages : List Stage) : Put job stages (stages ++ [.waiting job])
  | replace (stages : List Stage) (old : SnapshotJob) :
      Put job (stages ++ [.waiting old]) (stages ++ [.waiting job])

theorem Put.of_nil {stages : List Stage} (h : Put job [] stages) : stages = [.waiting job] := by
  generalize hl : ([] : List Stage) = l at h
  cases h with
  | append => rw [← hl, nil_append]
  | replace => exact absurd hl.symm (concat_ne_nil _ _)

/-- The coordinator, the snapshots on their way, the oldest first, and the directory.  The
pipeline is closed once the last snapshot has been put. -/
structure Pipeline where
  coordinator : PersistenceCoordinator
  stages : List Stage
  dir : SnapshotDir
  observed : Option SessionSnapshotV1
  started : Bool
  closed : Bool
  failed : Bool

section Json

variable [SnapshotJson] {snapshot : SessionSnapshotV1} {d origin : SnapshotDir}

/-- The file is the encoding of the snapshot. -/
def SnapshotDir.Encodes (d : SnapshotDir) (snapshot : SessionSnapshotV1) : Prop :=
  ∃ bytes, snapshot.toJson = .ok bytes ∧ d.file = some bytes

/-- The file is the encoding of the snapshot, or it is still the one of the start and the
snapshot was recovered from it. -/
def SnapshotDir.Holds (d origin : SnapshotDir) (snapshot : SessionSnapshotV1) : Prop :=
  d.Encodes snapshot ∨ d.file = origin.file ∧ startup origin = .ok (.recovered snapshot)

theorem SnapshotDir.Holds.congr {d' : SnapshotDir} (h : d.Holds origin snapshot)
    (hfile : d'.file = d.file) : d'.Holds origin snapshot := by
  obtain ⟨bytes, hbytes, hd⟩ | ⟨hd, hrecovered⟩ := h
  · exact .inl ⟨bytes, hbytes, hfile.trans hd⟩
  · exact .inr ⟨hfile.trans hd, hrecovered⟩

theorem SnapshotDir.holds_of_toJson {bytes : Bytes} (hbytes : snapshot.toJson = .ok bytes)
    (h : d.file = some bytes) : d.Holds origin snapshot :=
  .inl ⟨bytes, hbytes, h⟩

namespace Pipeline

variable {now sequence : ℕ} {done rest stages : List Stage} {result : Except String Unit}

/-- The steps. -/
inductive Step (fails : WriteCall → Prop) (p : Pipeline) : Pipeline → Prop where
  | recover {load : SnapshotLoad} (hfresh : p.started = false)
      (hread : startup p.dir = .ok load) :
      Step fails p { p with coordinator := .new load.snapshot, started := true }
  | abandon (hfresh : p.started = false) : Step fails p { p with started := true }
  | observe (hstarted : p.started = true) (hopen : p.closed = false)
      (snapshot : SessionSnapshotV1) (now : ℕ) : Step fails p { p with
        coordinator := (p.coordinator.observe (some snapshot) now).2
        observed := some snapshot }
  | issue {now : ℕ} {request : PersistRequest} {c : PersistenceCoordinator}
      {stages : List Stage} (hstarted : p.started = true) (hopen : p.closed = false)
      (htake : p.coordinator.takeDue now = some (some request, c))
      (hput : Put ⟨some request.sequence, request.snapshot⟩ p.stages stages) :
      Step fails p { p with coordinator := c, stages := stages }
  | close (hstarted : p.started = true) (hopen : p.closed = false)
      (hnone : p.coordinator.shutdownSnapshot = none) : Step fails p { p with closed := true }
  | closeWith {snapshot : SessionSnapshotV1} {stages : List Stage} (hstarted : p.started = true)
      (hopen : p.closed = false) (hsome : p.coordinator.shutdownSnapshot = some snapshot)
      (hput : Put ⟨none, snapshot⟩ p.stages stages) :
      Step fails p { p with stages := stages, closed := true }
  | write {done rest : List Stage} {job : SnapshotJob} {result : Except String Unit}
      {dir : SnapshotDir} (hstages : p.stages = done ++ .waiting job :: rest)
      (hdone : ∀ job, .waiting job ∉ done) (hwrote : Wrote fails job.snapshot p.dir result dir) :
      Step fails p { p with
        stages := done ++ .written job.sequence result :: rest
        dir := dir
        failed := p.failed || decide (result ≠ .ok ()) }
  | complete {sequence now : ℕ} {result : Except String Unit} {rest : List Stage}
      {c : PersistenceCoordinator} (hstages : p.stages = .written (some sequence) result :: rest)
      (hc : p.coordinator.complete sequence (WorkerSystem.completionOf result) now = .ok c) :
      Step fails p { p with coordinator := c, stages := rest }
  | mismatch {sequence now : ℕ} {result : Except String Unit} {rest : List Stage}
      {error : PersistCompletionError}
      (hstages : p.stages = .written (some sequence) result :: rest)
      (hc : p.coordinator.complete sequence (WorkerSystem.completionOf result) now =
        .error error) : Step fails p { p with stages := rest }
  | final {result : Except String Unit} {rest : List Stage}
      (hstages : p.stages = .written none result :: rest) :
      Step fails p { p with stages := rest }

/-! ## What is on its way -/

/-- Where the request in flight is, and what the file is good for.  It is lost once the last
snapshot has taken its place. -/
inductive Numbered (good : Option SessionSnapshotV1 → Prop) (c : PersistenceCoordinator)
    (closed : Bool) : List Stage → Prop where
  | free (hfree : c.inFlight = none) (hgood : good c.persisted) : Numbered good c closed []
  | waiting {r : PersistRequest} (hr : c.inFlight = some r) (hgood : good c.persisted) :
      Numbered good c closed [.waiting ⟨some r.sequence, r.snapshot⟩]
  | saved {r : PersistRequest} (hr : c.inFlight = some r) (hgood : good (some r.snapshot)) :
      Numbered good c closed [.written (some r.sequence) (.ok ())]
  | kept {r : PersistRequest} {e : String} (hr : c.inFlight = some r) (hgood : good c.persisted) :
      Numbered good c closed [.written (some r.sequence) (.error e)]
  | lost {r : PersistRequest} (hr : c.inFlight = some r) (hclosed : closed = true) :
      Numbered good c closed []

/-- Where the last snapshot is; it is behind the request in flight. -/
inductive Final (c : PersistenceCoordinator) (closed : Bool) (old : List Stage) :
    List Stage → Prop where
  | none (hopen : closed = true → ∀ job, .waiting job ∉ old) : Final c closed old []
  | waiting {w : SessionSnapshotV1} (hclosed : closed = true) (hw : c.current = some w) :
      Final c closed old [.waiting ⟨none, w⟩]
  | written {result : Except String Unit} (hclosed : closed = true)
      (hold : ∀ job, .waiting job ∉ old) : Final c closed old [.written none result]

/-- The file holds this snapshot, if it is one, or it holds the last one; this is known unless
a write failed after its rename. -/
def Good (fails : WriteCall → Prop) (origin : SnapshotDir) (p : Pipeline)
    (snapshot : Option SessionSnapshotV1) : Prop :=
  (¬fails .openParent ∧ ¬fails .syncParent) ∨ p.failed = false →
    (∀ s, snapshot = some s → p.dir.Holds origin s) ∨
      p.closed = true ∧ ∃ w, p.coordinator.current = some w ∧ p.dir.Holds origin w

/-- What every run from the directory `origin` keeps. -/
structure Kept (fails : WriteCall → Prop) (origin : SnapshotDir) (p : Pipeline) : Prop where
  fresh : p.started = false → p.coordinator = .new none ∧ p.observed = none ∧
    p.closed = false ∧ p.dir.file = origin.file
  current : ∀ s, p.observed = some s → p.coordinator.current = some s
  stages : ∃ old new, p.stages = old ++ new ∧
    Numbered (p.Good fails origin) p.coordinator p.closed old ∧ Final p.coordinator p.closed old new
  landed : p.closed = true → p.failed = false →
    (∃ w, .waiting ⟨none, w⟩ ∈ p.stages) ∨
      ∀ w, p.coordinator.current = some w → p.dir.Holds origin w

variable {good good' : Option SessionSnapshotV1 → Prop} {c c' : PersistenceCoordinator}
  {closed closed' : Bool} {old new : List Stage} {fails : WriteCall → Prop} {p p' : Pipeline}
  {s : SessionSnapshotV1}

omit [SnapshotJson] in
theorem Numbered.mono (h : Numbered good c closed old) (hflight : c'.inFlight = c.inFlight)
    (hpersisted : c'.persisted = c.persisted) (hclosed : closed = true → closed' = true)
    (hgood : ∀ s, good s → good' s) : Numbered good' c' closed' old := by
  cases h with
  | free hfree h => exact .free (hflight.trans hfree) (hgood _ (hpersisted ▸ h))
  | waiting hr h => exact .waiting (hflight.trans hr) (hgood _ (hpersisted ▸ h))
  | saved hr h => exact .saved (hflight.trans hr) (hgood _ h)
  | kept hr h => exact .kept (hflight.trans hr) (hgood _ (hpersisted ▸ h))
  | lost hr h => exact .lost (hflight.trans hr) (hclosed h)

omit [SnapshotJson] in
theorem Final.eq_nil (h : Final c false old new) : new = [] := by
  cases h with
  | none => rfl
  | waiting hclosed | written hclosed => cases hclosed

omit [SnapshotJson] in
theorem Numbered.of_free (h : Numbered good c false old) (hfree : c.inFlight = none) :
    old = [] ∧ good c.persisted := by
  cases h with
  | free _ h => exact ⟨rfl, h⟩
  | waiting hr | saved hr | kept hr | lost hr => cases hfree.symm.trans hr

/-! ## Steps -/

theorem Kept.of_open (hp : p.Kept fails origin) (hopen : p.closed = false) :
    Numbered (p.Good fails origin) p.coordinator false p.stages := by
  obtain ⟨old, new, hstages, hold, hnew⟩ := hp.stages
  rw [hopen] at hold hnew
  rw [hstages, hnew.eq_nil, append_nil]
  exact hold

theorem Kept.stages_of_fresh (hp : p.Kept fails origin) (hfresh : p.started = false) :
    p.stages = [] := by
  obtain ⟨hnew, -, hopen, -⟩ := hp.fresh hfresh
  refine ((hp.of_open hopen).of_free ?_).1
  rw [hnew]
  rfl

/-- While the pipeline is open the file can only be good for what it holds. -/
theorem Good.of_open {snapshot : Option SessionSnapshotV1} (h : p.Good fails origin snapshot)
    (hopen : p.closed = false) (hfailed : p'.failed = p.failed) (hdir : p'.dir = p.dir) :
    p'.Good fails origin snapshot := by
  intro hclean
  rw [hfailed] at hclean
  obtain h | ⟨hclosed, -⟩ := h hclean
  · left
    rwa [hdir]
  · cases hopen.symm.trans hclosed

theorem Kept.recover {load : SnapshotLoad} (hp : p.Kept fails origin)
    (hfresh : p.started = false) (hread : startup p.dir = .ok load) :
    ({ p with coordinator := .new load.snapshot, started := true } : Pipeline).Kept fails
      origin := by
  obtain ⟨hnew, hobserved, hopen, hfile⟩ := hp.fresh hfresh
  refine ⟨nofun, ?_, ⟨[], [], hp.stages_of_fresh hfresh, .free rfl fun _ => .inl ?_, .none nofun⟩,
    ?_⟩
  · intro snapshot hsome
    cases hobserved.symm.trans hsome
  · intro snapshot hs
    obtain rfl := snapshot_eq_some.1 hs
    exact .inr ⟨hfile, (startup_congr hfile).symm.trans hread⟩
  · intro hclosed
    cases hopen.symm.trans hclosed

theorem Kept.observe (hp : p.Kept fails origin) (hstarted : p.started = true)
    (hopen : p.closed = false) (snapshot : SessionSnapshotV1) (now : ℕ) : ({ p with
      coordinator := (p.coordinator.observe (some snapshot) now).2
      observed := some snapshot } : Pipeline).Kept fails origin := by
  refine ⟨?_, ?_, ⟨p.stages, [], (append_nil _).symm, ?_, .none ?_⟩, ?_⟩
  · intro hfresh
    cases hstarted.symm.trans hfresh
  · rintro s ⟨⟩
    exact current_observe _ _ _
  · exact (hp.of_open hopen).mono (inFlight_observe _ _ _).1 (persisted_observe _ _ _) nofun
      fun s h => h.of_open hopen rfl rfl
  all_goals
    intro hclosed
    cases hopen.symm.trans hclosed

theorem Kept.issue {request : PersistRequest} (hp : p.Kept fails origin)
    (hstarted : p.started = true) (hopen : p.closed = false)
    (htake : p.coordinator.takeDue now = some (some request, c))
    (hput : Put ⟨some request.sequence, request.snapshot⟩ p.stages stages) :
    ({ p with coordinator := c, stages := stages } : Pipeline).Kept fails origin := by
  have hcurrent := current_takeDue htake
  cases takes_of_takeDue htake with
  | issues hfree =>
    obtain ⟨hnil, hgood⟩ := (hp.of_open hopen).of_free hfree
    rw [hnil] at hput
    obtain rfl := hput.of_nil
    refine ⟨?_, ?_, ⟨_, [], (append_nil _).symm, .waiting rfl ?_, .none ?_⟩, ?_⟩
    · intro hfresh
      cases hstarted.symm.trans hfresh
    · intro s hs
      exact hcurrent.trans (hp.current s hs)
    · exact hgood.of_open hopen rfl rfl
    all_goals
      intro hclosed
      cases hopen.symm.trans hclosed

theorem Kept.close (hp : p.Kept fails origin) (hstarted : p.started = true)
    (hopen : p.closed = false) (hnone : p.coordinator.shutdownSnapshot = none) :
    ({ p with closed := true } : Pipeline).Kept fails origin := by
  have hfree : p.coordinator.inFlight = none := by
    rw [shutdownSnapshot, or_eq_none_iff, map_eq_none_iff] at hnone
    exact map_eq_none_iff.1 hnone.2
  obtain ⟨hnil, hgood⟩ := (hp.of_open hopen).of_free hfree
  refine ⟨?_, hp.current, ⟨[], [], hnil, .free hfree ?_, .none ?_⟩, ?_⟩
  · intro hfresh
    cases hstarted.symm.trans hfresh
  · exact hgood.of_open hopen rfl rfl
  · exact fun _ _ => not_mem_nil
  · intro _ hfailed
    right
    intro w hw
    obtain h | ⟨hclosed, -⟩ := hgood (.inr hfailed)
    · exact h w (by rwa [PersistenceCoordinator.current, hnone, none_or] at hw)
    · cases hopen.symm.trans hclosed

theorem Kept.closeWith {snapshot : SessionSnapshotV1} (hp : p.Kept fails origin)
    (hstarted : p.started = true) (hopen : p.closed = false)
    (hsome : p.coordinator.shutdownSnapshot = some snapshot)
    (hput : Put ⟨none, snapshot⟩ p.stages stages) :
    ({ p with stages := stages, closed := true } : Pipeline).Kept fails origin := by
  have hcurrent : p.coordinator.current = some snapshot := by
    rw [PersistenceCoordinator.current, hsome, some_or]
  have hold := hp.of_open hopen
  have hgood : ∀ s, p.Good fails origin s →
      ({ p with stages := stages, closed := true } : Pipeline).Good fails origin s :=
    fun s h => h.of_open hopen rfl rfl
  have hstages : ∃ old, stages = old ++ [.waiting ⟨none, snapshot⟩] ∧
      Numbered (({ p with stages := stages, closed := true } : Pipeline).Good fails origin)
        p.coordinator true old := by
    generalize hl : p.stages = l at hput hold
    cases hput with
    | append => exact ⟨_, rfl, hold.mono rfl rfl (fun _ => rfl) hgood⟩
    | replace l job =>
      refine ⟨l, rfl, ?_⟩
      generalize hl' : l ++ [Stage.waiting job] = l' at hold
      cases hold with
      | free | lost => simp at hl'
      | saved hr | kept hr => simp [append_eq_singleton_iff] at hl'
      | waiting hr =>
        obtain rfl : l = [] := by simpa [append_eq_singleton_iff] using congrArg List.length hl'
        exact .lost hr rfl
  obtain ⟨old, rfl, hnumbered⟩ := hstages
  refine ⟨?_, hp.current, ⟨old, _, rfl, hnumbered, .waiting rfl hcurrent⟩, fun _ _ => .inl ?_⟩
  · intro hfresh
    cases hstarted.symm.trans hfresh
  · exact ⟨snapshot, mem_append_right _ (mem_singleton_self _)⟩

omit [SnapshotJson] in
theorem waiting_cases (hold : Numbered good c closed old) (hnew : Final c closed old new)
    (hstages : old ++ new = done ++ .waiting job :: rest) (hdone : ∀ job, .waiting job ∉ done) :
    (∃ r, c.inFlight = some r ∧ job = ⟨some r.sequence, r.snapshot⟩ ∧
      old = [.waiting job] ∧ done = [] ∧ rest = new ∧ good c.persisted) ∨
    ∃ w, closed = true ∧ c.current = some w ∧ job = ⟨none, w⟩ ∧ new = [.waiting job] ∧
      done = old ∧ rest = [] ∧ ∀ job, .waiting job ∉ old := by
  have hlast : (∀ job, .waiting job ∉ old) → ∃ w, closed = true ∧ c.current = some w ∧
      job = ⟨none, w⟩ ∧ new = [.waiting job] ∧ done = old ∧ rest = [] ∧
        ∀ job, .waiting job ∉ old := by
    intro hwritten
    have hmem : Stage.waiting job ∈ new := by
      have hmem : Stage.waiting job ∈ old ++ new :=
        hstages ▸ mem_append_right _ mem_cons_self
      exact (mem_append.1 hmem).resolve_left (hwritten job)
    cases hnew with
    | none => cases hmem
    | written => simp at hmem
    | waiting hclosed hw =>
      obtain rfl : job = _ := by simpa using hmem
      obtain ⟨rest', rfl, hrest⟩ | ⟨rest', rfl, hrest⟩ := append_eq_append_iff.1 hstages
      · obtain ⟨rfl, hrest⟩ | ⟨-, h⟩ := singleton_eq_append_iff.1 hrest
        · obtain ⟨-, rfl⟩ := cons.inj hrest
          exact ⟨_, hclosed, hw, rfl, rfl, append_nil _, rfl, hwritten⟩
        · cases h
      · cases rest' with
        | nil =>
          obtain ⟨-, rfl⟩ := cons.inj hrest
          exact ⟨_, hclosed, hw, rfl, rfl, (append_nil _).symm, rfl, hwritten⟩
        | cons =>
          obtain ⟨rfl, -⟩ := cons.inj hrest
          exact absurd (mem_append_right _ mem_cons_self) (hwritten _)
  cases hold with
  | free | saved | kept | lost => exact .inr (hlast (by simp))
  | waiting hr hgood =>
    left
    cases done with
    | nil =>
      obtain ⟨⟨rfl⟩, rfl⟩ := cons.inj hstages
      exact ⟨_, hr, rfl, rfl, rfl, rfl, hgood⟩
    | cons =>
      obtain ⟨rfl, -⟩ := cons.inj hstages
      exact absurd mem_cons_self (hdone _)

theorem Good.keep {snapshot : Option SessionSnapshotV1} (h : p.Good fails origin snapshot)
    (hcoordinator : p'.coordinator = p.coordinator) (hclosed : p'.closed = p.closed)
    (hfailed : p'.failed = true) (hfile : p'.dir.file = p.dir.file) :
    p'.Good fails origin snapshot := by
  intro hclean
  rw [hfailed] at hclean
  obtain h | ⟨hc, w, hw, h⟩ := h (.inl (hclean.resolve_right nofun))
  · exact .inl fun s hs => (h s hs).congr hfile
  · exact .inr ⟨hclosed.trans hc, w, hcoordinator ▸ hw, h.congr hfile⟩

theorem Kept.write {dir : SnapshotDir} (hp : p.Kept fails origin)
    (hstages : p.stages = done ++ .waiting job :: rest) (hdone : ∀ job, .waiting job ∉ done)
    (hwrote : Wrote fails job.snapshot p.dir result dir) : ({ p with
      stages := done ++ .written job.sequence result :: rest
      dir := dir
      failed := p.failed || decide (result ≠ .ok ()) } : Pipeline).Kept fails origin := by
  have hunfresh {q : Prop} (hfresh : p.started = false) : q := by
    have hnil := hp.stages_of_fresh hfresh
    rw [hstages] at hnil
    exact absurd hnil (append_ne_nil_of_right_ne_nil _ (cons_ne_nil _ _))
  obtain ⟨old, new, hsplit, hold, hnew⟩ := hp.stages
  obtain ⟨r, hr, rfl, rfl, rfl, rfl, hgood⟩ | ⟨w, hclosed, hw, rfl, rfl, rfl, rfl, hwritten⟩ :=
    waiting_cases hold hnew (hsplit.symm.trans hstages) hdone
  · refine ⟨hunfresh, hp.current, ⟨[.written (some r.sequence) result], rest, rfl, ?_, ?_⟩, ?_⟩
    · cases hwrote with
      | replaced hbytes hfile =>
        refine .saved hr fun _ => .inl ?_
        rintro s ⟨⟩
        exact holds_of_toJson hbytes hfile
      | kept hfile => exact .kept hr (hgood.keep rfl rfl (by simp) hfile)
      | unsynced hbytes hfile hfails =>
        refine .kept hr fun hclean => ?_
        obtain ⟨hopens, hsyncs⟩ | hfailed := hclean
        · exact absurd hfails (not_or.2 ⟨hopens, hsyncs⟩)
        · simp at hfailed
    · cases hnew with
      | none => exact .none fun _ _ => by simp
      | waiting hclosed hw => exact .waiting hclosed hw
      | written hclosed => exact .written hclosed fun _ => by simp
    · intro hclosed _
      -- the last snapshot is behind this one
      cases hnew with
      | none hopen => exact absurd (mem_singleton_self _) (hopen hclosed _)
      | waiting => exact .inl ⟨_, mem_cons_of_mem _ mem_cons_self⟩
      | written _ hold => exact absurd (mem_singleton_self _) (hold _)
  · refine ⟨hunfresh, hp.current,
      ⟨done, [.written none result], rfl, ?_, .written hclosed hwritten⟩, ?_⟩
    · refine hold.mono rfl rfl id fun s hgood => ?_
      cases hwrote with
      | replaced hbytes hfile | unsynced hbytes hfile =>
        exact fun _ => .inr ⟨hclosed, w, hw, holds_of_toJson hbytes hfile⟩
      | kept hfile => exact hgood.keep rfl rfl (by simp) hfile
    · intro _ hfailed
      right
      cases hwrote with
      | replaced hbytes hfile =>
        intro w' hw'
        cases hw.symm.trans hw'
        exact holds_of_toJson hbytes hfile
      | kept | unsynced => simp at hfailed

omit [SnapshotJson] in
theorem written_cases (hold : Numbered good c closed old) (hnew : Final c closed old new)
    (hstages : old ++ new = .written (some sequence) result :: rest) :
    ∃ r, c.inFlight = some r ∧ r.sequence = sequence ∧ rest = new ∧
      good (if WorkerSystem.completionOf result = .succeeded then some r.snapshot
        else c.persisted) := by
  cases hold with
  | free | lost => cases hnew <;> cases hstages
  | waiting => cases hstages
  | saved hr hgood | kept hr hgood =>
    cases hstages
    exact ⟨_, hr, rfl, rfl, hgood⟩

theorem Kept.complete
    (hp : p.Kept fails origin) (hstages : p.stages = .written (some sequence) result :: rest)
    (hc : p.coordinator.complete sequence (WorkerSystem.completionOf result) now = .ok c) :
    ({ p with coordinator := c, stages := rest } : Pipeline).Kept fails origin := by
  obtain ⟨old, new, hsplit, hold, hnew⟩ := hp.stages
  obtain ⟨r, hr, rfl, rfl, hgood⟩ := written_cases hold hnew (hsplit.symm.trans hstages)
  have hcurrent := current_complete hc
  obtain ⟨completed, hr', -, hcompletes⟩ := completes_of_complete hc
  cases hr.symm.trans hr'
  have hpersisted := hcompletes.persisted
  refine ⟨?_, ?_, ⟨[], rest, rfl, .free hcompletes.inFlight.1 ?_, ?_⟩, ?_⟩
  · intro hfresh
    rw [(hp.fresh hfresh).1] at hr
    cases hr
  · intro s hs
    exact hcurrent.trans (hp.current s hs)
  · rw [hpersisted]
    intro hclean
    dsimp only at hclean ⊢
    rw [hcurrent]
    exact hgood hclean
  · cases hnew with
    | none => exact .none fun _ _ => not_mem_nil
    | waiting hclosed hw => exact .waiting hclosed (hcurrent.trans hw)
    | written hclosed => exact .written hclosed fun _ => not_mem_nil
  · intro hclosed hfailed
    dsimp only
    rw [hcurrent]
    refine (hp.landed hclosed hfailed).imp_left ?_
    rintro ⟨w, hmem⟩
    rw [hstages] at hmem
    exact ⟨w, by simpa using hmem⟩

theorem Kept.not_mismatch {error : PersistCompletionError} (hp : p.Kept fails origin)
    (hstages : p.stages = .written (some sequence) result :: rest) :
    p.coordinator.complete sequence (WorkerSystem.completionOf result) now ≠ .error error := by
  obtain ⟨old, new, hsplit, hold, hnew⟩ := hp.stages
  obtain ⟨r, hr, rfl, -, -⟩ := written_cases hold hnew (hsplit.symm.trans hstages)
  rw [PersistenceCoordinator.complete, hr]
  dsimp only
  rw [if_neg (not_not.2 rfl)]
  split <;> nofun

theorem Kept.final (hp : p.Kept fails origin) (hstages : p.stages = .written none result :: rest) :
    ({ p with stages := rest } : Pipeline).Kept fails origin := by
  obtain ⟨old, new, hsplit, hold, hnew⟩ := hp.stages
  rw [hsplit] at hstages
  obtain ⟨rfl, rfl, rfl⟩ : old = [] ∧ new = [.written none result] ∧ rest = [] := by
    cases hold with
    | waiting | saved | kept => cases hstages
    | free | lost =>
      cases hnew with
      | none | waiting => cases hstages
      | written =>
        cases hstages
        exact ⟨rfl, rfl, rfl⟩
  refine ⟨hp.fresh, hp.current, ⟨[], [], rfl, hold, .none fun _ _ => not_mem_nil⟩, ?_⟩
  intro hclosed hfailed
  refine (hp.landed hclosed hfailed).imp_left ?_
  rintro ⟨w, hmem⟩
  rw [hsplit] at hmem
  simp at hmem

theorem Kept.step (hp : p.Kept fails origin) (h : Step fails p p') : p'.Kept fails origin := by
  cases h with
  | recover hfresh hread => exact hp.recover hfresh hread
  | abandon =>
    exact { hp with
      fresh := nofun
      stages := hp.stages }
  | observe hstarted hopen snapshot now => exact hp.observe hstarted hopen snapshot now
  | issue hstarted hopen htake hput => exact hp.issue hstarted hopen htake hput
  | close hstarted hopen hnone => exact hp.close hstarted hopen hnone
  | closeWith hstarted hopen hsome hput => exact hp.closeWith hstarted hopen hsome hput
  | write hstages hdone hwrote => exact hp.write hstages hdone hwrote
  | complete hstages hc => exact hp.complete hstages hc
  | mismatch hstages hc => exact absurd hc (hp.not_mismatch hstages)
  | final hstages => exact hp.final hstages

theorem Kept.not_step (hp : p.Kept fails origin) (hclosed : p.closed = true)
    (hnil : p.stages = []) : ¬Step fails p p' := by
  intro h
  cases h with
  | recover hfresh | abandon hfresh =>
    exact absurd ((hp.fresh hfresh).2.2.1.symm.trans hclosed) nofun
  | observe _ hopen | issue _ hopen | close _ hopen | closeWith _ hopen =>
    cases hopen.symm.trans hclosed
  | write hstages =>
    exact append_ne_nil_of_right_ne_nil _ (cons_ne_nil _ _) (hstages.symm.trans hnil)
  | complete hstages | mismatch hstages | final hstages =>
    exact cons_ne_nil _ _ (hstages.symm.trans hnil)

/-! ## What it says of the file -/

theorem Kept.holds (hp : p.Kept fails origin)
    (hclean : (¬fails .openParent ∧ ¬fails .syncParent) ∨ p.failed = false)
    (hfree : p.coordinator.inFlight = none) (hnone : p.coordinator.shutdownSnapshot = none)
    (hs : p.observed = some s) : p.dir.Holds origin s := by
  have hcurrent := hp.current s hs
  obtain ⟨old, new, -, hold, -⟩ := hp.stages
  cases hold with
  | waiting hr | saved hr | kept hr | lost hr => cases hfree.symm.trans hr
  | free _ hgood =>
    obtain h | ⟨-, w, hw, h⟩ := hgood hclean
    · rw [PersistenceCoordinator.current, hnone, none_or] at hcurrent
      exact h s hcurrent
    · cases hw.symm.trans hcurrent
      exact h

theorem Kept.landed_holds (hp : p.Kept fails origin) (hclosed : p.closed = true)
    (hnil : p.stages = []) (hfailed : p.failed = false) (hs : p.observed = some s) :
    p.dir.Holds origin s := by
  obtain ⟨w, hmem⟩ | h := hp.landed hclosed hfailed
  · rw [hnil] at hmem
    cases hmem
  · exact h s (hp.current s hs)

end Pipeline

end Json

end Realm
