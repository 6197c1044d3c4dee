import Realm.Session.Protocol
import Realm.Session.Recovery

/-!
# The last projection

A response carries a projection only when some event of the transaction asked for one.
Every event that can change the projection asks, so a transaction that does not submit
one still has the last projection, and the last projection of a session is always the
projection of its committed authority.
-/

namespace Realm

open Option

namespace Session

variable {B : Type} {s s' : Session B} {events : List BackendPolicyEvent} {backend : B}
  {active : ActiveTransaction} {outcome : Option SessionUpdate}

/-! ## Asking for the projection -/

/-- The transaction asks for its projection when it is not `shown`; `submitted` tells
whether it has submitted one before. -/
structure Tracks (shown : List Placement) (submitted : Bool) (active : ActiveTransaction) :
    Prop where
  required : active.projectionRequired = true → active.working.workarea.isSome = true
  same : active.projectionRequired = false → projectAuthority active.working = shown
  response : active.response.projection = none
  submitted : active.projectionSubmitted = submitted

section Events

variable {shown : List Placement} {submitted : Bool} {active active' : ActiveTransaction}

theorem Tracks.reduced {event : BackendPolicyEvent} (h : Tracks shown submitted active)
    (hreduced : Reduced active event active') : Tracks shown submitted active' where
  required hrequired := (hreduced.asks.required hrequired).elim
    (fun hasked => hreduced.asks.workarea (h.required hasked)) id
  same hrequired :=
    let ⟨hasked, hsame⟩ := hreduced.asks.same hrequired
    hsame.trans (h.same hasked)
  response := hreduced.response.trans h.response
  submitted := hreduced.submitted.trans h.submitted

theorem Tracks.reductions (h : Tracks shown submitted active)
    (hreductions : Reductions active events active') : Tracks shown submitted active' := by
  induction hreductions with
  | nil => exact h
  | cons hreduced _ ih => exact ih (h.reduced hreduced)

theorem Tracks.reduceInitialReplay [WmBackend B] (h : Tracks [] submitted active)
    (hrequired : active.projectionRequired = false) {backend' : B}
    (hreduce : Session.reduceInitialReplay backend active events = (.ok active', backend')) :
    Tracks [] submitted active' := by
  obtain ⟨_, _, _, _, rfl⟩ := exists_reduceInitialReplay hreduce
  exact ⟨fun hr => by simp [hrequired] at hr,
    fun _ => projectAuthority_of_workarea_none rfl, rfl, h.submitted⟩

end Events

/-! ## The last projection -/

/-- The projection on screen when a transaction has submitted its own or not. -/
def shownBy (s : Session B) (active : ActiveTransaction) : List Placement :=
  if active.projectionSubmitted then active.mostRecentPrivateProjection else s.lastProjection

/-- The last projection is the one of the committed authority.  A transaction that waits
for its turn asks for its projection when that is another one; the projection of a
transaction that was answered is on screen or submitted. -/
structure Clean (s : Session B) : Prop where
  committed : s.lastProjection = projectAuthority s.currentAuthority
  waiting : ∀ active ∈ s.active, s.transaction.awaitedTicket.isSome = true →
    Tracks s.lastProjection false active
  answered : ∀ active ∈ s.active, s.transaction.awaitedTicket = none →
    projectAuthority active.working = s.shownBy active
  /-- The replay starts without a workarea. -/
  replay : s.phase = .initialReplay → s.active = none ∧ s.workareaKnown = false

/-- The projection a turn starts from. -/
def shownBase (s : Session B) : List Placement := (s.active.map s.shownBy).getD s.lastProjection

theorem projectAuthority_installAuthority (s : Session B) (a : AuthorityState) :
    projectAuthority (s.installAuthority a).currentAuthority = projectAuthority a := by
  change projectAuthority (s.installAuthority a).installedAuthority = _
  rw [installedAuthority_installAuthority]

theorem openTurn_required (s : Session B) :
    s.openTurn.projectionRequired = (s.transaction.awaitedTicket.isSome &&
      (s.active.getD s.newActiveTransaction).projectionRequired) := by
  unfold openTurn
  cases s.transaction <;> rfl

/-- Whether the transaction of a turn has submitted a projection before. -/
def submittedBase (s : Session B) : Bool := (s.active.map (·.projectionSubmitted)).getD false

theorem Clean.openTurn (h : s.Clean) : Tracks s.shownBase s.submittedBase s.openTurn := by
  have hrequired := s.openTurn_required
  have hworking := s.openTurn_working
  cases hactive : s.active with
  | none =>
    simp only [hactive, getD_none, newActiveTransaction, Bool.and_false] at hrequired
    refine ⟨fun hr => by simp [hrequired] at hr, fun _ => ?_, rfl, ?_⟩
    · rw [hworking, shownBase, hactive, h.committed, turnBase, hactive]
      rfl
    · simp [Session.openTurn, submittedBase, hactive, newActiveTransaction]
  | some active =>
    have hturn : s.turnBase = active.working := by rw [turnBase, hactive]; rfl
    have hbase : s.shownBase = s.shownBy active := by rw [shownBase, hactive]; rfl
    have hsubmitted : s.openTurn.projectionSubmitted = s.submittedBase := by
      simp [Session.openTurn, submittedBase, hactive]
    rw [hturn] at hworking
    simp only [hactive, getD_some] at hrequired
    cases hawaited : s.transaction.awaitedTicket with
    | none =>
      simp only [hawaited, isSome_none, Bool.false_and] at hrequired
      refine ⟨fun hr => by simp [hrequired] at hr, fun _ => ?_, rfl, hsubmitted⟩
      rw [hworking, hbase]
      exact h.answered active hactive hawaited
    | some =>
      have htracks := h.waiting active hactive (by simp [hawaited])
      simp only [hawaited, isSome_some, Bool.true_and] at hrequired
      refine ⟨fun hr => ?_, fun hr => ?_, rfl, hsubmitted⟩
      · rw [hworking]
        exact htracks.required (hrequired ▸ hr)
      · rw [hworking, htracks.same (hrequired ▸ hr), hbase, shownBy, htracks.submitted]
        rfl

/-- The transaction once its response was taken. -/
def submit (active : ActiveTransaction) : ActiveTransaction :=
  { active with
    closeTarget := none
    projectionSubmitted := active.projectionSubmitted || active.response.projection.isSome }

theorem deriveResponse_projection {shown : List Placement} {submitted : Bool}
    (h : Tracks shown submitted active) (s : Session B) :
    (s.deriveResponse active).response.projection =
      if active.projectionRequired then some (projectAuthority active.working) else none := by
  cases hrequired : active.projectionRequired with
  | false => simp [deriveResponse, hrequired, h.response]
  | true => simp [deriveResponse, hrequired, h.required hrequired]

theorem shownBy_submit (h : Tracks s.shownBase s.submittedBase active) :
    s.shownBy (submit (s.deriveResponse active)) = projectAuthority active.working := by
  have hprojection := deriveResponse_projection h s
  have hsubmitted : (submit (s.deriveResponse active)).projectionSubmitted =
      (s.submittedBase || active.projectionRequired) := by
    change (active.projectionSubmitted || (s.deriveResponse active).response.projection.isSome) = _
    rw [hprojection, h.submitted]
    cases active.projectionRequired <;> rfl
  rw [shownBy, hsubmitted]
  split
  · rfl
  · rename_i hnone
    obtain ⟨hbase, hrequired⟩ := Bool.or_eq_false_iff.mp (Bool.eq_false_iff.mpr hnone)
    rw [h.same hrequired, shownBase]
    unfold submittedBase at hbase
    cases hactive : s.active with
    | none => rfl
    | some =>
      simp only [hactive, map_some, getD_some] at hbase ⊢
      rw [shownBy, if_neg (by simp [hbase])]

theorem clean_finalizeActive {c : Session B}
    (h : projectAuthority active.working = c.shownBy active)
    (hphase : (c.finalizeActive active).2.phase ≠ .initialReplay) :
    (c.finalizeActive active).2.Clean := by
  have hcommitted : (c.finalizeActive active).2.lastProjection =
      projectAuthority (c.finalizeActive active).2.currentAuthority := by
    obtain ⟨_, _, _, _, heq⟩ := c.exists_finalizeActive active
    rw [heq]
    exact h.symm.trans (c.projectAuthority_installAuthority active.working).symm
  have hactive : (c.finalizeActive active).2.active = none := rfl
  exact ⟨hcommitted, by simp [hactive], by simp [hactive], fun h => absurd h hphase⟩

theorem clean_of_ended (hprojection : s'.lastProjection = projectAuthority s'.currentAuthority)
    (hactive : s'.active = none)
    (hphase : s'.phase = .initialReplay → s'.workareaKnown = false) : s'.Clean :=
  ⟨hprojection, by simp [hactive], by simp [hactive], fun h => ⟨hactive, hphase h⟩⟩

theorem Stages.tracks (h : s.Stages active) (hs : s.Clean) :
    Tracks s.lastProjection false active := by
  have hrequired := h.required hs.committed
  refine ⟨fun hr => ?_, fun hr => ?_, h.alters.response, h.alters.submitted⟩
  · by_contra hnone
    have hnone' : active.working.workarea = none := by simpa using hnone
    have hcurrent : s.currentAuthority.workarea = none := h.alters.workarea.symm.trans hnone'
    rw [hr, hs.committed, projectAuthority_of_workarea_none hnone',
      projectAuthority_of_workarea_none hcurrent] at hrequired
    simp at hrequired
  · rw [hr] at hrequired
    exact (of_not_not (of_decide_eq_false hrequired.symm)).symm

theorem Settles.clean (h : Settles s outcome s') (ho : s.Orderly) (hs : s.Clean) : s'.Clean := by
  have hlive : s.ready = true → s'.phase = .initialReplay → s'.workareaKnown = false := by
    intro hready hphase
    rw [h.sameExchange.phase] at hphase
    simp [ready, hphase] at hready
  cases h with
  | nothing => exact hs
  | @commits active _ h hrequired =>
    have hactive := commitAtOnce_ended ho h.ready active
    refine clean_of_ended ?_ hactive.1 (hlive h.ready)
    unfold commitAtOnce
    obtain ⟨state, heq⟩ := publishCurrentState_snd (s.installAuthority active.working) false
    simp only [heq]
    exact ((h.tracks hs).same hrequired).symm.trans
      (s.projectAuthority_installAuthority active.working).symm
  | toggles hready =>
    have hactive := ho.active_eq_none hready
    simp only [toggleWhichkey, hready] at hlive ⊢
    exact clean_of_ended hs.committed hactive (hlive trivial)
  | updates hready hne =>
    have hactive := ho.active_eq_none hready
    simp only [updateModules, hready, hne] at hlive ⊢
    exact clean_of_ended hs.committed hactive (hlive trivial)

theorem Fresh.clean {snapshot : Option ValidatedSnapshot} (h : Fresh snapshot s) : s.Clean := by
  refine clean_of_ended ?_ h.active fun _ => h.workareaKnown
  rw [h.lastProjection]
  exact (projectAuthority_of_workarea_none (by simp [currentAuthority, h.workareaKnown])).symm

variable [WmBackend B] {event : BackendEvent}

theorem Owned.clean (h : Owned s outcome s') (ho : s.Orderly) (hs : s.Clean) : s'.Clean := by
  cases h with
  | quiet h => exact h.clean ho hs
  | admits h =>
    have htracks := h.tracks hs
    have hready := h.ready
    obtain ⟨ticket, -, htransaction⟩ := h.transaction
    refine ⟨hs.committed, ?_, ?_, fun hphase => ?_⟩
    · rintro _ ⟨⟩ _
      exact htracks
    · rintro _ ⟨⟩ hnone
      rcases htransaction with rfl | rfl <;> cases hnone
    · have hphase : s.phase = .initialReplay := hphase
      simp [ready, hphase] at hready
  | refused => exact clean_of_ended hs.committed rfl fun hphase => (hs.replay hphase).2
  | leaves h =>
    refine clean_of_ended hs.committed rfl fun hphase => ?_
    rcases h with rfl | rfl <;> cases hphase
  | exits => exact ⟨hs.committed, hs.waiting, hs.answered, fun hphase => by cases hphase⟩

theorem Clean.reduceTurn (h : s.Clean) (hreduce : s.reduceTurn events = (.ok active, backend)) :
    Tracks s.shownBase s.submittedBase active := by
  have hopen := h.openTurn
  unfold Session.reduceTurn at hreduce
  split at hreduce
  · rename_i hphase
    obtain ⟨hactive, hworkarea⟩ := h.replay hphase
    have hempty : s.shownBase = [] := by
      rw [shownBase, hactive, map_none, getD_none, h.committed]
      exact projectAuthority_of_workarea_none (by simp [currentAuthority, hworkarea])
    have hrequired : s.openTurn.projectionRequired = false := by
      simp [openTurn_required, hactive, newActiveTransaction]
    rw [hempty] at hopen ⊢
    exact hopen.reduceInitialReplay hrequired hreduce
  · exact hopen.reductions (reductions_reducePolicyEvents hreduce)

theorem Handled.clean {update : SessionUpdate} (h : Handled s event update s') (ho : s.Orderly)
    (hs : s.Clean) : s'.Clean := by
  have hphase := h.phase_ne fun hphase => ho.paired.mp (hs.replay hphase).1
  cases h with
  | @turn turn ticket last active backend backend' submission _ _ hreduce =>
    have hshown := shownBy_submit (hs.reduceTurn hreduce)
    cases submission with
    | complete => exact clean_finalizeActive hshown.symm hphase
    | pending =>
      refine ⟨hs.committed, fun _ _ hsome => (by cases hsome), ?_, fun h => absurd h hphase⟩
      rintro _ ⟨⟩ _
      exact hshown.symm
  | @completed ticket active htransaction hactive =>
    refine ⟨hs.committed, fun _ _ hsome => (by cases hsome), fun active hactive _ => ?_, hs.replay⟩
    exact hs.answered active hactive (by rw [htransaction]; rfl)
  | @drained ticket active htransaction hactive =>
    exact clean_finalizeActive (hs.answered active hactive (by rw [htransaction]; rfl)) hphase

theorem Failed.clean (h : Failed s event s') (hs : s.Clean) : s'.Clean := by
  cases h with
  | unpaired => exact hs
  | _ => exact clean_of_ended hs.committed rfl fun hphase => (hs.replay hphase).2

theorem Clean.step (hs : s.Clean) (ho : s.Orderly) (call : Call B) : (s.step call).Clean := by
  have hstep := s.step_spec call
  generalize s.outcome call = outcome, s.step call = s' at hstep
  cases hstep with
  | acts _ h =>
    cases h with
    | owned h => exact h.clean ho hs
    | completes => exact ⟨hs.committed, hs.waiting, hs.answered, nofun⟩
    | _ => exact ⟨hs.committed, hs.waiting, hs.answered, hs.replay⟩
  | drops => exact clean_of_ended hs.committed rfl fun hphase => (hs.replay hphase).2
  | handles _ h => exact h.clean ho hs
  | fails h => exact h.clean hs

theorem Reachable.clean (h : Reachable s) : s.Clean := by
  induction h with
  | connect h => exact (fresh_of_connect h).clean
  | step h call ih => exact ih.step h.orderly call

end Session

end Realm
