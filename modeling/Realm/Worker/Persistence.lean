import Realm.Session.Snapshot

/-!
# The persistence coordinator

The event loop keeps at most one snapshot waiting and one being written.  A snapshot that
is observed while an older one is written waits for the result of that write, and a value
that is known to be on disk is not written again.
-/

namespace Realm

open List

/-- Milliseconds from the first dirty observation to the request. -/
def snapshotDelay : ℕ := 250

inductive PersistCompletion where
  | succeeded
  | failed
  deriving DecidableEq

structure PersistRequest where
  sequence : ℕ
  snapshot : SessionSnapshotV1
  deriving DecidableEq

structure DirtySnapshot where
  snapshot : SessionSnapshotV1
  deadline : ℕ
  deriving DecidableEq

structure PersistCompletionError where
  expected : Option ℕ
  actual : ℕ
  deriving DecidableEq

structure PersistenceCoordinator where
  persisted : Option SessionSnapshotV1
  dirty : Option DirtySnapshot
  inFlight : Option PersistRequest
  nextSequence : ℕ
  deriving DecidableEq

namespace PersistenceCoordinator

def new (persisted : Option SessionSnapshotV1) : PersistenceCoordinator where
  persisted := persisted
  dirty := none
  inFlight := none
  nextSequence := 1

/-- Observe a snapshot and keep it if it is not known; the answer says whether the waiting
snapshot changed. -/
def observe (c : PersistenceCoordinator) (snapshot : Option SessionSnapshotV1) (now : ℕ) :
    Bool × PersistenceCoordinator :=
  match snapshot with
  | none => (false, c)
  | some snapshot =>
    if c.dirty.any (·.snapshot = snapshot) then (false, c)
    else if c.inFlight.isNone && c.persisted.any (· = snapshot) then
      (c.dirty.isSome, { c with dirty := none })
    else
      match c.dirty with
      | some dirty => (true, { c with dirty := some { dirty with snapshot := snapshot } })
      | none =>
        if c.inFlight.any (·.snapshot = snapshot) then (false, c)
        else (true, { c with dirty := some ⟨snapshot, now + snapshotDelay⟩ })

def deadline (c : PersistenceCoordinator) : Option ℕ :=
  if c.inFlight.isSome then none else c.dirty.map (·.deadline)

/-- Yield the waiting snapshot when it is due.  Sequences are 64 bits wide and the daemon
stops (no answer) when they are used up. -/
def takeDue (c : PersistenceCoordinator) (now : ℕ) :
    Option (Option PersistRequest × PersistenceCoordinator) :=
  if c.inFlight.isSome then some (none, c)
  else
    match c.dirty with
    | none => some (none, c)
    | some dirty =>
      if now < dirty.deadline then some (none, c)
      else if c.nextSequence + 1 < 2 ^ 64 then
        let request : PersistRequest := ⟨c.nextSequence, dirty.snapshot⟩
        some (some request, { c with
          dirty := none, inFlight := some request, nextSequence := c.nextSequence + 1 })
      else none

/-- What waits after a write of `completed` failed. -/
def dirtyAfterFailure (c : PersistenceCoordinator) (completed : SessionSnapshotV1) (now : ℕ) :
    Option DirtySnapshot :=
  match c.dirty with
  | none => some ⟨completed, now + snapshotDelay⟩
  | some dirty =>
    if c.persisted.any (· = dirty.snapshot) then none
    else if dirty.snapshot = completed then some { dirty with deadline := now + snapshotDelay }
    else some dirty

def complete (c : PersistenceCoordinator) (sequence : ℕ) (completion : PersistCompletion)
    (now : ℕ) : Except PersistCompletionError PersistenceCoordinator :=
  match c.inFlight with
  | none => .error ⟨none, sequence⟩
  | some completed =>
    if completed.sequence ≠ sequence then .error ⟨some completed.sequence, sequence⟩
    else
      match completion with
      | .succeeded => .ok { c with
          inFlight := none
          dirty := if c.dirty.any (·.snapshot = completed.snapshot) then none else c.dirty
          persisted := some completed.snapshot }
      | .failed => .ok { c with
          inFlight := none
          dirty := c.dirtyAfterFailure completed.snapshot now }

def shutdownSnapshot (c : PersistenceCoordinator) : Option SessionSnapshotV1 :=
  (c.dirty.map (·.snapshot)).or (c.inFlight.map (·.snapshot))

/-- The snapshot the coordinator stands for: the waiting one, else the one being written,
else the one on disk. -/
def current (c : PersistenceCoordinator) : Option SessionSnapshotV1 :=
  c.shutdownSnapshot.or c.persisted

/-! ## What one call does -/

/-- The outcomes of an observation. -/
inductive Observes (snapshot : SessionSnapshotV1) (now : ℕ) (c : PersistenceCoordinator) :
    PersistenceCoordinator → Prop where
  | waiting {d : DirtySnapshot} (hd : c.dirty = some d) (h : d.snapshot = snapshot) :
      Observes snapshot now c c
  | onDisk (hfree : c.inFlight = none) (h : c.persisted = some snapshot) :
      Observes snapshot now c { c with dirty := none }
  | replaces {d : DirtySnapshot} (hd : c.dirty = some d) :
      Observes snapshot now c { c with dirty := some { d with snapshot := snapshot } }
  | writing {request : PersistRequest} (hd : c.dirty = none) (hr : c.inFlight = some request)
      (h : request.snapshot = snapshot) : Observes snapshot now c c
  | starts (hd : c.dirty = none) :
      Observes snapshot now c { c with dirty := some ⟨snapshot, now + snapshotDelay⟩ }

/-- The outcomes of a completion that is accepted. -/
inductive Completes (completed : PersistRequest) (now : ℕ) (c : PersistenceCoordinator) :
    PersistCompletion → PersistenceCoordinator → Prop where
  | wrote (hd : ∀ d, c.dirty = some d → d.snapshot ≠ completed.snapshot) :
      Completes completed now c .succeeded
        { c with inFlight := none, persisted := some completed.snapshot }
  | wroteWaiting {d : DirtySnapshot} (hd : c.dirty = some d) (h : d.snapshot = completed.snapshot) :
      Completes completed now c .succeeded
        { c with inFlight := none, dirty := none, persisted := some completed.snapshot }
  | retries (hd : c.dirty = none) : Completes completed now c .failed
      { c with inFlight := none, dirty := some ⟨completed.snapshot, now + snapshotDelay⟩ }
  | reverts {d : DirtySnapshot} (hd : c.dirty = some d) (h : c.persisted = some d.snapshot) :
      Completes completed now c .failed { c with inFlight := none, dirty := none }
  | defers {d : DirtySnapshot} (hd : c.dirty = some d) (deadline : ℕ) :
      Completes completed now c .failed
        { c with inFlight := none, dirty := some { d with deadline := deadline } }

variable {c c' : PersistenceCoordinator} {snapshot : SessionSnapshotV1} {now sequence : ℕ}
  {completion : PersistCompletion} {request : Option PersistRequest} {completed : PersistRequest}
  {d : DirtySnapshot}

theorem observes_observe (c : PersistenceCoordinator) (snapshot : SessionSnapshotV1) (now : ℕ) :
    Observes snapshot now c (c.observe (some snapshot) now).2 := by
  unfold observe
  cases hd : c.dirty with
  | none =>
    simp only [Option.any_none, Bool.false_eq_true, if_false]
    split_ifs with hdisk hwriting
    · simp only [Bool.and_eq_true, Option.isNone_iff_eq_none, Option.any_eq_true,
        decide_eq_true_eq] at hdisk
      obtain ⟨hfree, p, hp, rfl⟩ := hdisk
      exact .onDisk hfree hp
    · simp only [Option.any_eq_true, decide_eq_true_eq] at hwriting
      obtain ⟨request, hr, h⟩ := hwriting
      exact .writing hd hr h
    · exact .starts hd
  | some =>
    simp only [Option.any_some, decide_eq_true_eq]
    split_ifs with hsame hdisk
    · exact .waiting hd hsame
    · simp only [Bool.and_eq_true, Option.isNone_iff_eq_none, Option.any_eq_true,
        decide_eq_true_eq] at hdisk
      obtain ⟨hfree, p, hp, rfl⟩ := hdisk
      exact .onDisk hfree hp
    · exact .replaces hd

theorem completes_of_complete (h : c.complete sequence completion now = .ok c') :
    ∃ completed, c.inFlight = some completed ∧ completed.sequence = sequence ∧
      Completes completed now c completion c' := by
  unfold complete at h
  cases hr : c.inFlight with
  | none =>
    rw [hr] at h
    cases h
  | some completed =>
    rw [hr] at h
    dsimp only at h
    rw [Guard.ite_error_eq_ok, not_not] at h
    obtain ⟨hsequence, h⟩ := h
    refine ⟨completed, rfl, hsequence, ?_⟩
    cases completion with
    | succeeded =>
      cases h
      split_ifs with hwaiting
      · simp only [Option.any_eq_true, decide_eq_true_eq] at hwaiting
        obtain ⟨d, hd, h⟩ := hwaiting
        exact .wroteWaiting hd h
      · simp only [Option.any_eq_true, decide_eq_true_eq, not_exists, not_and] at hwaiting
        exact .wrote hwaiting
    | failed =>
      cases h
      unfold dirtyAfterFailure
      cases hd : c.dirty with
      | none => exact .retries hd
      | some d =>
        dsimp only
        split_ifs with hdisk
        · simp only [Option.any_eq_true, decide_eq_true_eq] at hdisk
          obtain ⟨p, hp, rfl⟩ := hdisk
          exact .reverts hd hp
        · exact .defers hd (now + snapshotDelay)
        · exact .defers hd d.deadline

/-- The outcomes of a look at the deadline. -/
inductive Takes (c : PersistenceCoordinator) :
    Option PersistRequest → PersistenceCoordinator → Prop where
  | idle : Takes c none c
  | issues {d : DirtySnapshot} (hfree : c.inFlight = none) (hd : c.dirty = some d) :
      Takes c (some ⟨c.nextSequence, d.snapshot⟩) { c with
        dirty := none, inFlight := some ⟨c.nextSequence, d.snapshot⟩,
        nextSequence := c.nextSequence + 1 }

theorem takes_of_takeDue (h : c.takeDue now = some (request, c')) : Takes c request c' := by
  unfold takeDue at h
  split at h
  · cases h
    exact .idle
  · rename_i hfree
    rw [Bool.not_eq_true, Option.isSome_eq_false_iff, Option.isNone_iff_eq_none] at hfree
    split at h
    · cases h
      exact .idle
    · rename_i d hd
      split_ifs at h
      · cases h
        exact .idle
      · cases h
        exact .issues hfree hd

/-! ## The snapshot the coordinator stands for -/

theorem current_observe (c : PersistenceCoordinator) (snapshot : SessionSnapshotV1) (now : ℕ) :
    (c.observe (some snapshot) now).2.current = some snapshot := by
  have h := observes_observe c snapshot now
  generalize (c.observe (some snapshot) now).2 = c' at h
  cases h with
  | waiting hd h => simp [current, shutdownSnapshot, hd, h]
  | onDisk hfree h => simp [current, shutdownSnapshot, hfree, h]
  | replaces => simp [current, shutdownSnapshot]
  | writing hd hr h => simp [current, shutdownSnapshot, hd, hr, h]
  | starts => simp [current, shutdownSnapshot]

theorem current_takeDue (h : c.takeDue now = some (request, c')) : c'.current = c.current := by
  cases takes_of_takeDue h with
  | idle => rfl
  | issues hfree hd => simp [current, shutdownSnapshot, hd]

theorem current_complete (h : c.complete sequence completion now = .ok c') :
    c'.current = c.current := by
  obtain ⟨completed, hr, -, hcompletes⟩ := completes_of_complete h
  cases hcompletes with
  | wrote => cases hdirty : c.dirty <;> simp [current, shutdownSnapshot, hr, hdirty]
  | wroteWaiting hd hsame => simp [current, shutdownSnapshot, hd, hsame]
  | retries hd => simp [current, shutdownSnapshot, hd, hr]
  | reverts hd hdisk => simp [current, shutdownSnapshot, hd, hdisk]
  | defers hd => simp [current, shutdownSnapshot, hd]

theorem inFlight_observe (c : PersistenceCoordinator) (observed : Option SessionSnapshotV1)
    (now : ℕ) : (c.observe observed now).2.inFlight = c.inFlight ∧
      (c.observe observed now).2.nextSequence = c.nextSequence := by
  cases observed with
  | none => exact ⟨rfl, rfl⟩
  | some snapshot =>
    have h := observes_observe c snapshot now
    generalize (c.observe (some snapshot) now).2 = c' at h
    cases h <;> exact ⟨rfl, rfl⟩

theorem persisted_observe (c : PersistenceCoordinator) (observed : Option SessionSnapshotV1)
    (now : ℕ) : (c.observe observed now).2.persisted = c.persisted := by
  cases observed with
  | none => rfl
  | some snapshot =>
    have h := observes_observe c snapshot now
    generalize (c.observe (some snapshot) now).2 = c' at h
    cases h <;> rfl

theorem Completes.inFlight (h : Completes completed now c completion c') :
    c'.inFlight = none ∧ c'.nextSequence = c.nextSequence := by
  cases h <;> exact ⟨rfl, rfl⟩

theorem Completes.persisted (h : Completes completed now c completion c') :
    c'.persisted = if completion = .succeeded then some completed.snapshot else c.persisted := by
  cases h <;> rfl

theorem deadline_observe {observed : Option SessionSnapshotV1} {d' : DirtySnapshot}
    (hd : c.dirty = some d) (hd' : (c.observe observed now).2.dirty = some d') :
    d'.deadline = d.deadline := by
  cases observed with
  | none =>
    rw [observe, hd, Option.some_inj] at hd'
    rw [hd']
  | some snapshot =>
    have h := observes_observe c snapshot now
    generalize (c.observe (some snapshot) now).2 = c' at h hd'
    cases h with
    | waiting | writing =>
      rw [hd, Option.some_inj] at hd'
      rw [hd']
    | onDisk => cases hd'
    | replaces hd₀ =>
      rw [hd, Option.some_inj] at hd₀
      cases hd'
      rw [hd₀]
    | starts hd₀ => cases hd.symm.trans hd₀

theorem waiting_complete (h : c.complete sequence completion now = .ok c') (hd : c.dirty = some d) :
    c'.dirty.map (·.snapshot) = some d.snapshot ∨ c'.persisted = some d.snapshot := by
  obtain ⟨completed, -, -, hcompletes⟩ := completes_of_complete h
  cases hcompletes with
  | wrote =>
    left
    rw [hd]
    rfl
  | wroteWaiting hd₀ hsame =>
    rw [hd, Option.some_inj] at hd₀
    right
    rw [hd₀, hsame]
  | retries hd₀ => cases hd.symm.trans hd₀
  | reverts hd₀ hdisk =>
    rw [hd, Option.some_inj] at hd₀
    right
    rw [hd₀]
    exact hdisk
  | defers hd₀ =>
    rw [hd, Option.some_inj] at hd₀
    left
    rw [hd₀]
    rfl

end PersistenceCoordinator

/-! ## Runs -/

/-- The calls on the coordinator. -/
inductive PersistenceCall where
  | observe (snapshot : Option SessionSnapshotV1) (now : ℕ)
  | takeDue (now : ℕ)
  | complete (sequence : ℕ) (completion : PersistCompletion) (now : ℕ)

/-- A coordinator with the sequences it issued and those whose result it took. -/
structure PersistenceRun where
  coordinator : PersistenceCoordinator
  issued : List ℕ
  settled : List ℕ

namespace PersistenceRun

/-- One call; there is no next state when the sequences are used up.  A result that is not
expected is refused. -/
def step (r : PersistenceRun) : PersistenceCall → Option PersistenceRun
  | .observe snapshot now =>
    some { r with coordinator := (r.coordinator.observe snapshot now).2 }
  | .takeDue now =>
    (r.coordinator.takeDue now).map fun taken =>
      { r with
        coordinator := taken.2
        issued := r.issued ++ (taken.1.map (·.sequence)).toList }
  | .complete sequence completion now =>
    match r.coordinator.complete sequence completion now with
    | .ok c => some { r with coordinator := c, settled := r.settled ++ [sequence] }
    | .error _ => some r

def run (r : PersistenceRun) : List PersistenceCall → Option PersistenceRun
  | [] => some r
  | call :: calls => (r.step call).bind fun r => r.run calls

def start (persisted : Option SessionSnapshotV1) : PersistenceRun where
  coordinator := .new persisted
  issued := []
  settled := []

end PersistenceRun

def lastObserved : List PersistenceCall → Option SessionSnapshotV1
  | [] => none
  | .observe (some snapshot) _ :: calls => (lastObserved calls).or (some snapshot)
  | _ :: calls => lastObserved calls

namespace PersistenceRun

open PersistenceCoordinator

variable {r r' : PersistenceRun} {call : PersistenceCall} {calls : List PersistenceCall}

theorem step_complete {sequence now : ℕ} {completion : PersistCompletion}
    (h : r.step (.complete sequence completion now) = some r') :
    (∃ c, r.coordinator.complete sequence completion now = .ok c ∧
      r' = { r with coordinator := c, settled := r.settled ++ [sequence] }) ∨ r' = r := by
  dsimp only [step] at h
  cases hcomplete : r.coordinator.complete sequence completion now with
  | ok c =>
    rw [hcomplete] at h
    exact .inl ⟨c, rfl, (Option.some.inj h).symm⟩
  | error =>
    rw [hcomplete] at h
    exact .inr (Option.some.inj h).symm

theorem current_step (h : r.step call = some r') :
    r'.coordinator.current = (lastObserved [call]).or r.coordinator.current := by
  cases call with
  | observe snapshot =>
    cases h
    cases snapshot with
    | none => rfl
    | some => exact current_observe _ _ _
  | takeDue =>
    obtain ⟨⟨request, c⟩, htake, rfl⟩ := Option.map_eq_some_iff.mp h
    exact current_takeDue htake
  | complete =>
    rcases step_complete h with ⟨c, hcomplete, rfl⟩ | rfl
    · exact current_complete hcomplete
    · rfl

theorem lastObserved_cons (call : PersistenceCall) (calls : List PersistenceCall) :
    lastObserved (call :: calls) = (lastObserved calls).or (lastObserved [call]) := by
  cases call with
  | observe snapshot => cases snapshot <;> simp [lastObserved]
  | takeDue | complete => simp [lastObserved]

theorem current_run (h : r.run calls = some r') :
    r'.coordinator.current = (lastObserved calls).or r.coordinator.current := by
  induction calls generalizing r with
  | nil =>
    cases h
    rfl
  | cons call calls ih =>
    obtain ⟨r₁, hstep, hrun⟩ := Option.bind_eq_some_iff.mp h
    rw [lastObserved_cons call calls, ih hrun, current_step hstep, Option.or_assoc]

/-- Requests are issued one after the other: every one but the one in flight has been
settled, and their sequences increase. -/
structure Ordered (r : PersistenceRun) : Prop where
  outstanding : r.issued = r.settled ++ (r.coordinator.inFlight.map (·.sequence)).toList
  increasing : r.issued.Pairwise (· < ·)
  below : ∀ n ∈ r.issued, n < r.coordinator.nextSequence

theorem Ordered.step (hr : r.Ordered) (h : r.step call = some r') : r'.Ordered := by
  cases call with
  | observe snapshot now =>
    cases h
    obtain ⟨hflight, hnext⟩ := inFlight_observe r.coordinator snapshot now
    refine ⟨?_, hr.increasing, ?_⟩
    · rw [hflight]
      exact hr.outstanding
    · rw [hnext]
      exact hr.below
  | takeDue =>
    obtain ⟨⟨request, c⟩, htake, rfl⟩ := Option.map_eq_some_iff.mp h
    cases takes_of_takeDue htake with
    | idle =>
      dsimp only
      rw [Option.map_none, Option.toList_none, append_nil]
      exact hr
    | issues hfree =>
      have hsettled : r.issued = r.settled := by
        rw [hr.outstanding, hfree, Option.map_none, Option.toList_none, append_nil]
      refine ⟨?_, ?_, fun n hn => ?_⟩
      · rw [hsettled]
      · dsimp only
        rw [Option.map_some, Option.toList_some, pairwise_append]
        refine ⟨hr.increasing, pairwise_singleton _ _, fun n hn m hm => ?_⟩
        rw [mem_singleton.mp hm]
        exact hr.below n hn
      · rcases mem_append.mp hn with hn | hn
        · exact Nat.lt_succ_of_lt (hr.below n hn)
        · rw [mem_singleton.mp hn]
          exact Nat.lt_succ_self _
  | complete =>
    rcases step_complete h with ⟨c, hcomplete, rfl⟩ | rfl
    · obtain ⟨completed, hflight, rfl, hcompletes⟩ := completes_of_complete hcomplete
      obtain ⟨hfree, hnext⟩ := hcompletes.inFlight
      refine ⟨?_, hr.increasing, ?_⟩
      · rw [hfree, hr.outstanding, hflight]
        simp
      · rw [hnext]
        exact hr.below
    · exact hr

theorem Ordered.run (hr : r.Ordered) (h : r.run calls = some r') : r'.Ordered := by
  induction calls generalizing r with
  | nil =>
    cases h
    exact hr
  | cons call calls ih =>
    obtain ⟨r₁, hstep, hrun⟩ := Option.bind_eq_some_iff.mp h
    exact ih (hr.step hstep) hrun

theorem ordered_start (persisted : Option SessionSnapshotV1) : (start persisted).Ordered :=
  ⟨rfl, List.Pairwise.nil, nofun⟩

/-- The law of the coordinator, after any calls in any order: it stands for the snapshot
observed last; its requests are issued one at a time with increasing sequences; the result of
an older write loses nothing that waits; an observation does not move the deadline of what
waits; and nothing is left for the shutdown only if the snapshot observed last is on disk. -/
theorem coordinator_law {persisted : Option SessionSnapshotV1}
    (h : (start persisted).run calls = some r) :
    r.coordinator.current = (lastObserved calls).or persisted ∧
    r.issued = r.settled ++ (r.coordinator.inFlight.map (·.sequence)).toList ∧
    r.issued.Pairwise (· < ·) ∧
    (∀ sequence completion now c', r.coordinator.complete sequence completion now = .ok c' →
      ∀ d, r.coordinator.dirty = some d →
        c'.dirty.map (·.snapshot) = some d.snapshot ∨ c'.persisted = some d.snapshot) ∧
    (∀ observed now d d', r.coordinator.dirty = some d →
      (r.coordinator.observe observed now).2.dirty = some d' → d'.deadline = d.deadline) ∧
    (r.coordinator.shutdownSnapshot = none →
      ∀ snapshot, lastObserved calls = some snapshot →
        r.coordinator.persisted = some snapshot) := by
  have hcurrent := current_run h
  have hordered := (ordered_start persisted).run h
  refine ⟨hcurrent, hordered.outstanding, hordered.increasing, ?_, ?_, ?_⟩
  · intro sequence completion now c' hcomplete d hd
    exact waiting_complete hcomplete hd
  · intro observed now d d' hd hd'
    exact deadline_observe hd hd'
  · intro hnone snapshot hlast
    rw [current, hnone, Option.none_or, hlast, Option.some_or] at hcurrent
    exact hcurrent

/-- A snapshot with nothing in it but its watermark. -/
def watermark (n : ℕ) : SessionSnapshotV1 := ⟨1, 2, .new, [], n, 0⟩

/-- B is written while A is back; the write fails. -/
theorem coordinator_law_reverted :
    ∃ r, (start (some (watermark 1))).run [.observe (some (watermark 2)) 0, .takeDue 250,
        .observe (some (watermark 1)) 260, .complete 1 .failed 270] = some r ∧
      r.coordinator.current = some (watermark 1) := by
  obtain ⟨r, hr⟩ : ∃ r, (start (some (watermark 1))).run [.observe (some (watermark 2)) 0,
      .takeDue 250, .observe (some (watermark 1)) 260, .complete 1 .failed 270] = some r :=
    Option.isSome_iff_exists.mp (by decide +kernel)
  exact ⟨r, hr, (coordinator_law hr).1⟩

end PersistenceRun

end Realm
