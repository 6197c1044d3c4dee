import Realm.Lib.Trace
import Realm.Session.Atomicity

/-!
# Publication and persistence

A live session publishes its rendering when it changed and persists its snapshot when it
changed.  Three detectors do this on different paths; together they miss nothing: in
every live state of a run the published state renders the committed authority, and the
last snapshot that was persisted is the present one.
-/

namespace Realm

open Option List

namespace RealmState

variable {s t : RealmState}

def frame (s : RealmState) : RealmState := { s with revision := 0 }

theorem rendersSameAs_iff : s.rendersSameAs t = true ↔ s.frame = t.frame := by
  simp only [rendersSameAs, frame, RealmState.mk.injEq, Bool.and_eq_true, decide_eq_true_eq,
    true_and, and_assoc]

theorem rendersSameAs_eq_false_iff : s.rendersSameAs t = false ↔ s.frame ≠ t.frame := by
  rw [← Bool.not_eq_true, rendersSameAs_iff]

end RealmState

namespace Session

variable {B : Type} {s s' c : Session B} {outcome : Option SessionUpdate}
  {active : ActiveTransaction} {update : SessionUpdate}

/-- The rendering of the committed authority. -/
def rendering (s : Session B) : RealmState := s.policyVisibleState 0

/-- The snapshot of the committed authority, in any phase. -/
def record (s : Session B) : Option SessionSnapshotV1 := s.snapshotResult.toOption

theorem rendersSameAs_policyVisibleState {t : Session B} {r r' : ℕ} :
    (s.policyVisibleState r).rendersSameAs (t.policyVisibleState r') = true ↔
      s.rendering = t.rendering :=
  RealmState.rendersSameAs_iff

/-- What is published is what is committed. -/
structure Visible (s : Session B) : Prop where
  state : s.state.frame = s.rendering
  ledger : s.publishedLedger = s.ledger
  windows : s.publishedWindows = s.windows

def Replaying (s : Session B) : Prop := s.phase = .initialReplay ∨ s.phase = .finalizingReplay

/-- The state after an update, and its revision. -/
structure Renders (s : Session B) (state : Option RealmState) (s' : Session B) : Prop where
  same : state = none → s'.state = s.state
  changed : ∀ st ∈ state, s'.state = st ∧ st.frame ≠ s.state.frame ∧
    st.revision = min (s.state.revision + 1) u64Max

/-- What a step publishes and persists. -/
inductive Publishes (s : Session B) : Option SessionUpdate → Session B → Prop
  /-- Nothing visible changes. -/
  | silent {outcome : Option SessionUpdate} {s' : Session B}
      (h : ∀ update ∈ outcome, update.Silent) (hcommitted : s'.committed = s.committed)
      (hlive : s'.phase = .live → s.phase = .live) (hreplay : s'.Replaying → s.Replaying) :
      Publishes s outcome s'
  /-- The replay goes on. -/
  | recovers {update : SessionUpdate} {s' : Session B} (h : update.Silent)
      (hstate : s'.state = s.state) (hs : s.Replaying) (hlive : s'.phase ≠ .live) :
      Publishes s (some update) s'
  /-- The session goes live with its first publication. -/
  | enters {update : SessionUpdate} {s' : Session B} (hs : s.Replaying)
      (hstate : update.state = some s'.state) (hrevision : s'.state.revision = 1)
      (hvisible : s'.Visible) (hreplay : ¬ s'.Replaying)
      (hpersistence : update.persistence = changedSnapshot s.snapshot s'.record) :
      Publishes s (some update) s'
  /-- A live session commits. -/
  | renews {update : SessionUpdate} {s' : Session B} (hs : s.phase = .live)
      (hrenders : Renders s update.state s') (hvisible : s'.Visible) (hreplay : ¬ s'.Replaying)
      (hpersistence : update.persistence = changedSnapshot s.snapshot s'.record) :
      Publishes s (some update) s'

/-! ## Publishing -/

theorem snapshot_of_live (h : s.phase = .live) : s.snapshot = s.record := if_pos h

theorem changedSnapshot_self {snapshot : Option SessionSnapshotV1} :
    changedSnapshot snapshot snapshot = none := if_neg (not_not.mpr rfl)

section Committed

variable (h : s'.committed = s.committed)
include h

theorem record_eq_of_committed : s'.record = s.record := by
  rw [record, record, snapshotResult_eq_of_committed h]

theorem rendering_eq_of_committed : s'.rendering = s.rendering := by
  have hauthority : s'.currentAuthority = s.currentAuthority := congrArg Committed.authority h
  have hledger : s'.ledger = s.ledger := congrArg AuthorityState.ledger hauthority
  have hwindows : s'.windows = s.windows := congrArg AuthorityState.windows hauthority
  have hmode : s'.mode = s.mode := congrArg AuthorityState.mode hauthority
  have hecho : s'.chordEcho = s.chordEcho := congrArg AuthorityState.chordEcho hauthority
  have hfocus : s'.exclusiveFocus = s.exclusiveFocus :=
    congrArg AuthorityState.exclusiveFocus hauthority
  have hwhichkey : s'.whichkey = s.whichkey := congrArg Committed.whichkey h
  have hgrimoire : s'.grimoire = s.grimoire := congrArg Committed.grimoire h
  have hmodules : s'.modules = s.modules := congrArg Committed.modules h
  simp only [rendering, policyVisibleState, hledger, hwindows, hmode, hecho, hfocus, hwhichkey,
    hgrimoire, hmodules]

theorem Visible.of_committed (hvisible : s.Visible) : s'.Visible := by
  have hauthority : s'.currentAuthority = s.currentAuthority := congrArg Committed.authority h
  have hstate : s'.state = s.state := congrArg Committed.state h
  have hledger : s'.publishedLedger = s.publishedLedger := congrArg Committed.publishedLedger h
  have hwindows : s'.publishedWindows = s.publishedWindows :=
    congrArg Committed.publishedWindows h
  refine ⟨?_, ?_, ?_⟩
  · rw [hstate, rendering_eq_of_committed h]
    exact hvisible.state
  · rw [hledger, hvisible.ledger]
    exact (congrArg AuthorityState.ledger hauthority).symm
  · rw [hwindows, hvisible.windows]
    exact (congrArg AuthorityState.windows hauthority).symm

end Committed

theorem visible_publishCurrentState (s : Session B) (force : Bool) :
    (s.publishCurrentState force).2.Visible := by
  unfold publishCurrentState
  simp only
  split
  · rename_i hsame
    simp only [Bool.not_eq_true', Bool.or_eq_false_iff, Bool.not_eq_false'] at hsame
    exact ⟨RealmState.rendersSameAs_iff.mp hsame.2, rfl, rfl⟩
  · exact ⟨rfl, rfl, rfl⟩

theorem renders_publishCurrentState (s : Session B) :
    Renders s (s.publishCurrentState false).1 (s.publishCurrentState false).2 := by
  unfold publishCurrentState
  simp only [Bool.false_or]
  split
  · exact ⟨fun _ => rfl, nofun⟩
  · rename_i hchanged
    refine ⟨nofun, ?_⟩
    rintro _ ⟨⟩
    have hframe : s.state.rendersSameAs (s.policyVisibleState s.state.revision) = false := by
      simpa using hchanged
    exact ⟨rfl, fun hsame => RealmState.rendersSameAs_eq_false_iff.mp hframe hsame.symm, rfl⟩

theorem publishCurrentState_force (s : Session B) :
    (s.publishCurrentState true).1 = some (s.publishCurrentState true).2.state ∧
      (s.publishCurrentState true).2.state.revision = 1 :=
  ⟨rfl, rfl⟩

theorem publishCurrentState_phase (s : Session B) (force : Bool) :
    (s.publishCurrentState force).2.phase = s.phase := by
  obtain ⟨state, heq⟩ := s.publishCurrentState_snd force
  rw [heq]

theorem Publishes.of_same (h : Publishes c outcome s')
    (hcommitted : c.committed = s.committed) (hphase : c.phase = s.phase) :
    Publishes s outcome s' := by
  have hstate : c.state = s.state := congrArg Committed.state hcommitted
  have hsnapshot := snapshot_eq_of_committed hcommitted hphase
  have hreplaying : c.Replaying ↔ s.Replaying := by rw [Replaying, Replaying, hphase]
  cases h with
  | silent h hc hlive hreplay =>
    exact .silent h (hc.trans hcommitted) (hphase ▸ hlive) fun h => hreplaying.mp (hreplay h)
  | recovers h hst hs hlive => exact .recovers h (hst.trans hstate) (hreplaying.mp hs) hlive
  | enters hs hst hrevision hvisible hreplay hpersistence =>
    exact .enters (hreplaying.mp hs) hst hrevision hvisible hreplay (hsnapshot ▸ hpersistence)
  | renews hs hrenders hvisible hreplay hpersistence =>
    refine .renews (hphase ▸ hs) ⟨?_, ?_⟩ hvisible hreplay (hsnapshot ▸ hpersistence)
    · exact hstate ▸ hrenders.same
    · exact hstate ▸ hrenders.changed

theorem publishes_commitAtOnce (hlive : s.phase = .live)
    (hupdate : update.state = (s.commitAtOnce active).1.state ∧
      update.persistence = (s.commitAtOnce active).1.persistence) :
    Publishes s (some update) (s.commitAtOnce active).2 := by
  have hrenders := renders_publishCurrentState (s.installAuthority active.working)
  have hphase : (s.commitAtOnce active).2.phase = .live :=
    (publishCurrentState_phase _ false).trans hlive
  refine .renews hlive ⟨fun h => ?_, fun st hst => ?_⟩ (visible_publishCurrentState _ _) ?_
    ?_
  · exact hrenders.same (hupdate.1.symm.trans h)
  · rw [hupdate.1] at hst
    exact hrenders.changed st hst
  · simp [Replaying, hphase]
  · rw [hupdate.2, ← snapshot_of_live hphase]
    rfl

theorem Serving.replaying_or_live (h : s.Serving) : s.Replaying ∨ s.phase = .live := by
  unfold Serving at h
  unfold Replaying
  cases hphase : s.phase <;> simp_all

/-- The session that a finalization publishes. -/
def settled (s : Session B) (active : ActiveTransaction) : Session B :=
  { s.commitActive active with repeatTarget := ((s.commitActive active).settleRepeat active).1 }

/-- The snapshot to persist is compared before the phase of a quit. -/
theorem persistence_finalizeActive
    (h : (c.commitActive active).phase = .live) : (c.finalizeActive active).1.persistence =
      changedSnapshot c.snapshot (c.finalizeActive active).2.record := by
  obtain ⟨state, ledger, windows, heq⟩ :=
    publishIfLive_snd (c.settled active) (c.enteringLive active)
  have hlive : ((c.settled active).publishIfLive (c.enteringLive active)).2.phase = .live := by
    rw [heq]
    exact h
  exact congrArg (changedSnapshot c.snapshot) (snapshot_of_live hlive)

theorem publishes_finalizeActive (hs : c.Serving)
    (hboot : c.phase = .live → active.bootstrap = false) :
    Publishes c (some (c.finalizeActive active).1) (c.finalizeActive active).2 := by
  have hpublished : (c.finalizeActive active).2.phase = (if active.quitStaged then .quitPending
      else (c.commitActive active).phase) := by
    obtain ⟨_, _, _, _, heq⟩ := c.exists_finalizeActive active
    rw [heq]
  by_cases hphase : (c.commitActive active).phase = .live
  · have hpublish : (c.settled active).publishIfLive (c.enteringLive active) =
        (c.settled active).publishCurrentState (c.enteringLive active) := if_pos hphase
    have hreplay : ¬ (c.finalizeActive active).2.Replaying := by
      rw [Replaying, hpublished, hphase]
      split <;> simp
    have hvisible : (c.finalizeActive active).2.Visible := by
      have hv := visible_publishCurrentState (c.settled active) (c.enteringLive active)
      rw [← hpublish] at hv
      exact ⟨hv.state, hv.ledger, hv.windows⟩
    cases hentering : c.enteringLive active with
    | true =>
      rw [hentering] at hpublish
      obtain ⟨hstate, hrevision⟩ := publishCurrentState_force (c.settled active)
      rw [← hpublish, ← hentering] at hstate hrevision
      refine .enters (.inr ?_) hstate hrevision hvisible hreplay
        (persistence_finalizeActive hphase)
      simp only [enteringLive, Bool.and_eq_true, decide_eq_true_eq] at hentering
      exact hentering.1.1
    | false =>
      rw [hentering] at hpublish
      have hrenders := renders_publishCurrentState (c.settled active)
      rw [← hpublish, ← hentering] at hrenders
      refine .renews ?_ ⟨hrenders.same, hrenders.changed⟩ hvisible hreplay
        (persistence_finalizeActive hphase)
      simp only [commitActive, hentering] at hphase
      grind
  · have hpublish : (c.settled active).publishIfLive (c.enteringLive active) =
        (none, c.settled active) := if_neg hphase
    have hbefore : c.phase ≠ .live := fun hlive => hphase (by
      simp [commitActive, hboot hlive, hlive])
    refine .recovers ⟨congrArg Prod.fst hpublish, ?_⟩ ?_ ?_ ?_
    · have hsnapshot : ((c.settled active).publishIfLive (c.enteringLive active)).2.snapshot =
          none := by
        rw [hpublish]
        exact snapshot_of_not_live hphase
      change changedSnapshot c.snapshot
        ((c.settled active).publishIfLive (c.enteringLive active)).2.snapshot = none
      rw [hsnapshot, snapshot_of_not_live hbefore]
      rfl
    · exact congrArg (fun p => (Prod.snd p).state) hpublish
    · exact hs.replaying_or_live.resolve_right hbefore
    · rw [hpublished]
      split
      · simp
      · exact hphase

/-! ## Records -/

def published (log : List SessionUpdate) : List RealmState := log.filterMap (·.state)

def lastPersisted (log : List SessionUpdate) : Option SessionSnapshotV1 :=
  (log.filterMap (·.persistence)).getLast?

/-- The revisions count the states, and the last one is `revision`. -/
structure Numbered (states : List RealmState) (revision : ℕ) : Prop where
  last : revision = min states.length u64Max
  each : ∀ k st, states[k]? = some st → st.revision = min (k + 1) u64Max

theorem Numbered.snoc {states : List RealmState} {revision : ℕ} (h : Numbered states revision)
    {st : RealmState} (hst : st.revision = min (revision + 1) u64Max) :
    Numbered (states ++ [st]) st.revision := by
  have hrevision : st.revision = min (states.length + 1) u64Max := by
    rw [hst, h.last]
    omega
  refine ⟨by rw [hrevision, length_append, length_singleton], fun k st' hk => ?_⟩
  rcases Nat.lt_or_ge k states.length with hlt | hge
  · rw [getElem?_append_left hlt] at hk
    exact h.each k st' hk
  · rw [getElem?_append_right hge, getElem?_singleton] at hk
    split at hk
    · cases hk
      rw [hrevision]
      congr 2
      omega
    · cases hk

theorem lastPersisted_snoc (log : List SessionUpdate) (update : SessionUpdate) :
    lastPersisted (log ++ [update]) = update.persistence.or (lastPersisted log) := by
  rw [lastPersisted, lastPersisted, filterMap_append, getLast?_append]
  cases hpersistence : update.persistence <;> simp [hpersistence]

theorem published_snoc (log : List SessionUpdate) (update : SessionUpdate) :
    published (log ++ [update]) = published log ++ update.state.toList := by
  rw [published, published, filterMap_append]
  cases hstate : update.state <;> simp [hstate]

theorem recorded_silent (log : List SessionUpdate) (h : ∀ update ∈ outcome, update.Silent) :
    published (log ++ outcome.toList) = published log ∧
      lastPersisted (log ++ outcome.toList) = lastPersisted log := by
  cases outcome with
  | none => simp
  | some update =>
    obtain ⟨hstate, hpersistence⟩ := h update rfl
    rw [toList_some, published_snoc, lastPersisted_snoc, hstate, hpersistence]
    simp

theorem changedSnapshot_or {before after : Option SessionSnapshotV1} (h : after.isSome = true) :
    (changedSnapshot before after).or before = after := by
  obtain ⟨snapshot, rfl⟩ := isSome_iff_exists.mp h
  unfold changedSnapshot
  split
  · rfl
  · rename_i hsame
    exact not_not.mp hsame

/-- What the updates of a run have recorded. -/
structure Recorded (log : List SessionUpdate) (s : Session B) : Prop where
  orderly : s.Orderly
  consistent : s.Consistent
  before : s.Replaying → published log = [] ∧ lastPersisted log = none
  live : s.phase = .live → published log ≠ []
  numbered : Numbered (published log) s.state.revision
  visible : published log ≠ [] → s.Visible
  record : published log ≠ [] → lastPersisted log = s.record

theorem Fresh.recorded {snapshot : Option ValidatedSnapshot} (h : Fresh snapshot s)
    (ho : s.Orderly) (hc : s.Consistent) : Recorded [] s where
  orderly := ho
  consistent := hc
  before _ := ⟨rfl, rfl⟩
  live hlive := nomatch h.phase.symm.trans hlive
  numbered := ⟨by rw [h.state]; rfl, by simp [published]⟩
  visible h := absurd rfl h
  record h := absurd rfl h

/-! ## Steps -/

theorem Settles.publishes (h : Settles s outcome s')
    (hvisible : s.phase = .live → s.Visible) : Publishes s outcome s' := by
  have hlive : s.ready = true → s.phase = .live := by
    intro hready
    simp only [ready, Bool.and_eq_true, decide_eq_true_eq] at hready
    exact hready.1
  cases h with
  | nothing h => exact .silent h rfl id id
  | commits h _ hupdate => exact publishes_commitAtOnce (hlive h.ready) hupdate
  | toggles hready =>
    have hv := hvisible (hlive hready)
    simp only [toggleWhichkey, hready]
    refine .renews (hlive hready) ⟨by simp, ?_⟩ ⟨?_, hv.ledger, hv.windows⟩ ?_
      (by rw [snapshot_of_live (hlive hready)]; exact changedSnapshot_self.symm)
    · rintro _ ⟨⟩
      refine ⟨rfl, fun hframe => ?_, rfl⟩
      simpa [RealmState.frame] using congrArg RealmState.whichkey hframe
    · exact congrArg (fun st : RealmState => { st with whichkey := !s.state.whichkey }) hv.state
    · simp [Replaying, hlive hready]
  | @updates modules hready hne =>
    have hv := hvisible (hlive hready)
    simp only [updateModules, hready, hne]
    refine .renews (hlive hready) ⟨by simp, ?_⟩ ⟨?_, hv.ledger, hv.windows⟩ ?_
      (by rw [snapshot_of_live (hlive hready)]; exact changedSnapshot_self.symm)
    · rintro _ ⟨⟩
      refine ⟨rfl, fun hframe => hne ?_, rfl⟩
      exact (congrArg RealmState.modules hframe).symm
    · exact congrArg (fun st : RealmState => { st with modules := modules }) hv.state
    · simp [Replaying, hlive hready]

variable [WmBackend B] {event : BackendEvent} {log : List SessionUpdate}

theorem Owned.publishes (h : Owned s outcome s')
    (hvisible : s.phase = .live → s.Visible) : Publishes s outcome s' := by
  cases h with
  | quiet h => exact h.publishes hvisible
  | admits _ _ hsilent => exact .silent (by rintro _ ⟨⟩; exact hsilent) rfl id id
  | refused => exact .silent (by simp) rfl id id
  | leaves h _ hsilent =>
    refine .silent (by rintro _ ⟨⟩; exact hsilent) rfl ?_ ?_
    · rcases h with rfl | rfl <;> nofun
    · rcases h with rfl | rfl <;> simp [Replaying]
  | exits =>
    exact .silent (by rintro _ ⟨⟩; exact ⟨rfl, rfl⟩) rfl nofun (by simp [Replaying])

theorem Acts.publishes (h : Acts s outcome s')
    (hvisible : s.phase = .live → s.Visible) : Publishes s outcome s' := by
  cases h with
  | owned h => exact h.publishes hvisible
  | moves => exact .silent (by rintro _ ⟨⟩; exact ⟨rfl, rfl⟩) rfl id id
  | attempts => exact .silent (by simp) rfl id id
  | completes =>
    exact .silent (by rintro _ ⟨⟩; exact ⟨rfl, rfl⟩) rfl nofun (by simp [Replaying])

theorem Handled.publishes (h : Handled s event update s') (hs : s.Serving) (ho : s.Orderly) :
    Publishes s (some update) s' := by
  cases h with
  | @turn turn ticket last active backend backend' submission _ _ hreduce =>
    have hboot : s.phase = .live → active.bootstrap = false := fun hlive =>
      reduceTurn_bootstrap ho hlive hreduce
    cases submission with
    | complete =>
      refine Publishes.of_same (c := { s with
        backend := backend'
        lastBackendTicket := last
        lastPolicyTurn := some turn.id }) ?_ rfl rfl
      exact publishes_finalizeActive hs hboot
    | pending =>
      refine .silent (by rintro _ ⟨⟩; exact ⟨rfl, rfl⟩) rfl ?_ ?_
      · change (if active.bootstrap then .finalizingReplay else s.phase) = _ → _
        grind
      · change (if active.bootstrap then .finalizingReplay else s.phase) = _ ∨
          (if active.bootstrap then .finalizingReplay else s.phase) = _ → _
        rcases hs.replaying_or_live with hreplay | hlive
        · exact fun _ => hreplay
        · rw [hboot hlive]
          exact id
  | completed => exact .silent (by rintro _ ⟨⟩; exact ⟨rfl, rfl⟩) rfl id id
  | @drained ticket active _ hactive =>
    have hboot : s.phase = .live → active.bootstrap = false := fun hlive =>
      ho.live hlive active hactive
    refine Publishes.of_same (c := { s with active := none }) ?_ rfl rfl
    exact publishes_finalizeActive hs hboot

theorem Failed.publishes (h : Failed s event s') : Publishes s none s' := by
  cases h <;> exact .silent (by simp) rfl id id

theorem publishes_step (ho : s.Orderly) (hvisible : s.phase = .live → s.Visible) (call : Call B) :
    Publishes s (s.outcome call) (s.step call) := by
  have hstep := s.step_spec call
  generalize s.outcome call = outcome, s.step call = s' at hstep
  cases hstep with
  | acts _ h => exact h.publishes hvisible
  | drops => exact .silent (by simp) rfl id id
  | handles hs h => exact h.publishes hs ho
  | fails h => exact h.publishes

/-! ## Runs -/

def runUpdates (s : Session B) (calls : List (Call B)) : List SessionUpdate :=
  Trace.emitted step (fun s call => (s.outcome call).toList) s calls

theorem Recorded.step (h : Recorded log s) (call : Call B) :
    Recorded (log ++ (s.outcome call).toList) (s.step call) := by
  have horderly := h.orderly.step call
  have hconsistent := h.consistent.step call
  have hpublishes := publishes_step h.orderly (fun hlive => h.visible (h.live hlive)) call
  generalize s.outcome call = outcome, s.step call = s' at hpublishes horderly hconsistent ⊢
  have hsome : s'.record.isSome = true := by
    rw [Session.record, hconsistent.snapshotResult_eq]
    rfl
  cases hpublishes with
  | silent hsilent hcommitted hlive hreplay =>
    obtain ⟨hpublished, hlast⟩ := recorded_silent log hsilent
    have hstate : s'.state = s.state := congrArg Committed.state hcommitted
    refine ⟨horderly, hconsistent, fun hr => ?_, fun hl => ?_, ?_, fun hne => ?_, fun hne => ?_⟩
    · rw [hpublished, hlast]
      exact h.before (hreplay hr)
    · rw [hpublished]
      exact h.live (hlive hl)
    · rw [hpublished, hstate]
      exact h.numbered
    · rw [hpublished] at hne
      exact (h.visible hne).of_committed hcommitted
    · rw [hpublished] at hne
      rw [hlast, h.record hne, record_eq_of_committed hcommitted]
  | @recovers update _ hsilent hstate hs hlive =>
    obtain ⟨hpublished, hlast⟩ := recorded_silent log
      (show ∀ u ∈ some update, u.Silent by rintro _ ⟨⟩; exact hsilent)
    obtain ⟨hnone, hunset⟩ := h.before hs
    have hempty := hpublished.trans hnone
    refine ⟨horderly, hconsistent, fun _ => ⟨hempty, hlast.trans hunset⟩,
      fun hl => absurd hl hlive, ?_, fun hne => absurd hempty hne, fun hne => absurd hempty hne⟩
    rw [hpublished, hstate]
    exact h.numbered
  | @enters update _ hs hstate hrevision hvisible hreplay hpersistence =>
    obtain ⟨hnone, hunset⟩ := h.before hs
    have hpublished : published (log ++ [update]) = [s'.state] := by
      rw [published_snoc, hnone, hstate]
      rfl
    have hbefore : s.snapshot = none := snapshot_of_not_live fun hl => h.live hl hnone
    refine ⟨horderly, hconsistent, fun hr => absurd hr hreplay, fun _ => ?_, ?_,
      fun _ => hvisible, fun _ => ?_⟩
    · simp [hpublished]
    · have hfirst := h.numbered
      rw [hnone] at hfirst
      rw [toList_some, hpublished]
      refine hfirst.snoc ?_
      rw [hrevision, hfirst.last]
      rfl
    · rw [toList_some, lastPersisted_snoc, hpersistence, hunset, hbefore]
      exact changedSnapshot_or hsome
  | @renews update _ hs hrenders hvisible hreplay hpersistence =>
    have hne := h.live hs
    refine ⟨horderly, hconsistent, fun hr => absurd hr hreplay, fun _ => ?_, ?_,
      fun _ => hvisible, fun _ => ?_⟩
    · simp [published_snoc, hne]
    · rw [toList_some, published_snoc]
      cases hstate : update.state with
      | none =>
        rw [hrenders.same hstate, toList_none, append_nil]
        exact h.numbered
      | some st =>
        obtain ⟨heq, -, hrevision⟩ := hrenders.changed st hstate
        rw [heq]
        exact h.numbered.snoc hrevision
    · rw [toList_some, lastPersisted_snoc, hpersistence, h.record hne, snapshot_of_live hs]
      exact changedSnapshot_or hsome

def publication (s : Session B) (call : Call B) : Option RealmState :=
  (s.outcome call).bind (·.state)

theorem Recorded.publication (h : Recorded log s) (hs : ¬ s.Replaying) (call : Call B) :
    (s.publication call = none ∧ s.rendering = (s.step call).rendering) ∨
      (s.publication call = some (s.step call).state ∧ s.rendering ≠ (s.step call).rendering ∧
        (s.step call).state.revision = min (s.state.revision + 1) u64Max) := by
  have hpublishes := publishes_step h.orderly (fun hlive => h.visible (h.live hlive)) call
  unfold Session.publication
  generalize s.outcome call = outcome, s.step call = s' at hpublishes ⊢
  cases hpublishes with
  | silent hsilent hcommitted =>
    refine .inl ⟨?_, (rendering_eq_of_committed hcommitted).symm⟩
    exact bind_eq_none_iff.mpr fun update hupdate => (hsilent update hupdate).1
  | recovers _ _ hreplaying | enters hreplaying => exact absurd hreplaying hs
  | @renews update _ hlive hrenders hvisible =>
    have hbefore := h.visible (h.live hlive)
    rw [← hbefore.state, ← hvisible.state]
    cases hstate : update.state with
    | none => exact .inl ⟨hstate, by rw [hrenders.same hstate]⟩
    | some st =>
      obtain ⟨rfl, hframe, hrevision⟩ := hrenders.changed st hstate
      exact .inr ⟨hstate, hframe.symm, hrevision⟩

/-- Along every run, at every live point the published state renders the committed
authority, the published ledger is the committed one and the last persisted snapshot is
the present one.  Nothing is published before the session is live; the published states
are numbered from one; and after the replay a call publishes a state exactly when the
rendering changes, with the next revision.  Revisions saturate. -/
theorem publication_complete {backend : B} {snapshot : Option ValidatedSnapshot}
    {keymap : Keymap} (hconnect : connect backend snapshot keymap = .ok s)
    (calls : List (Call B)) :
    ((calls.foldl step s).phase = .live →
      (calls.foldl step s).state.rendersSameAs
          ((calls.foldl step s).policyVisibleState (calls.foldl step s).state.revision) = true ∧
        (calls.foldl step s).publishedLedger = (calls.foldl step s).ledger ∧
        lastPersisted (s.runUpdates calls) = (calls.foldl step s).snapshot) ∧
    ((calls.foldl step s).Replaying → published (s.runUpdates calls) = []) ∧
    (∀ k st, (published (s.runUpdates calls))[k]? = some st →
      st.revision = min (k + 1) u64Max) ∧
    (published (s.runUpdates calls) ≠ [] →
      lastPersisted (s.runUpdates calls) = (calls.foldl step s).snapshotResult.toOption) ∧
    (¬ (calls.foldl step s).Replaying → ∀ call,
      (((calls.foldl step s).publication call).isSome = true ↔
        ((calls.foldl step s).policyVisibleState 0).rendersSameAs
          (((calls.foldl step s).step call).policyVisibleState 0) = false) ∧
      ∀ st ∈ (calls.foldl step s).publication call, st = ((calls.foldl step s).step call).state ∧
        st.revision = min ((calls.foldl step s).state.revision + 1) u64Max) := by
  have hrecorded : Recorded (s.runUpdates calls) (calls.foldl step s) :=
    Trace.invariant (P := Recorded) (fun _ _ call h => h.step call) calls
      ((fresh_of_connect hconnect).recorded (orderly_of_connect hconnect)
        (consistent_of_connect hconnect))
  generalize s.runUpdates calls = log, calls.foldl step s = t at hrecorded ⊢
  refine ⟨fun hlive => ?_, fun h => (hrecorded.before h).1, hrecorded.numbered.each,
    hrecorded.record, fun hreplay call => ?_⟩
  · have hne := hrecorded.live hlive
    have hvisible := hrecorded.visible hne
    refine ⟨RealmState.rendersSameAs_iff.mpr hvisible.state, hvisible.ledger, ?_⟩
    rw [hrecorded.record hne, snapshot_of_live hlive]
  · rw [← Bool.not_eq_true, rendersSameAs_policyVisibleState]
    rcases hrecorded.publication hreplay call with ⟨hnone, hsame⟩ | ⟨hsome, hchanged, hrevision⟩
    · simp [hnone, hsame]
    · rw [hsome]
      refine ⟨by simp [hchanged], ?_⟩
      rintro _ ⟨⟩
      exact ⟨rfl, hrevision⟩

/-- The replay of a new session publishes one state and persists its snapshot. -/
theorem publication_complete_prompt : ∃ s : Session PromptBackend,
    (promptTurns.foldl step s).phase = .live ∧
      (published (s.runUpdates promptTurns)).length = 1 ∧
      lastPersisted (s.runUpdates promptTurns) = (promptTurns.foldl step s).snapshot := by
  have hconnect : ∃ s, connect PromptBackend.mk none Keymap.default = .ok s ∧
      (promptTurns.foldl step s).phase = .live ∧
      (published (s.runUpdates promptTurns)).length = 1 :=
    ⟨_, rfl, by decide +kernel, by decide +kernel⟩
  obtain ⟨s, hs, hlive, hlength⟩ := hconnect
  exact ⟨s, hlive, hlength, ((publication_complete hs promptTurns).1 hlive).2.2⟩

end Session

end Realm
