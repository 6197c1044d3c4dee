import Realm.Session.Authority

/-!
# Transactions are atomic

A transaction is admitted by an external action, by a key repeat or by a backend
turn.  From its admission to its finalization, and after it failed or was
abandoned, everything committed and published is what it was before; the
finalizing call installs the staged authority in one step.  Only the persistence
snapshot needs care: it is exposed in the live phase alone, so a quit or a
shutdown that abandons the transaction takes it away.
-/

namespace Realm.Session

variable {B : Type} {active active' : ActiveTransaction} {events : List BackendPolicyEvent}

/-- The committed and published fields of a session. -/
structure Committed where
  authority : AuthorityState
  whichkey : Bool
  grimoire : Bool
  modules : List Module
  bindingState : BackendBindingState
  lastProjection : List Placement
  state : RealmState
  publishedLedger : Ledger
  publishedWindows : Map WinId WindowMetadata

def committed (s : Session B) : Committed where
  authority := s.currentAuthority
  whichkey := s.whichkey
  grimoire := s.grimoire
  modules := s.modules
  bindingState := s.bindingState
  lastProjection := s.lastProjection
  state := s.state
  publishedLedger := s.publishedLedger
  publishedWindows := s.publishedWindows

/-- The authority a session works with, read from its own fields. -/
def installedAuthority (s : Session B) : AuthorityState :=
  { s.currentAuthority with
    whichkey := s.whichkey
    grimoire := s.grimoire
    modules := s.modules }

/-- The calls that can admit a transaction. -/
def Call.opensTransaction : Call B → Bool
  | .ledgerAction _ | .requestCloseFocused | .fireKeyRepeat | .backendEvent _ => true
  | _ => false

/-- The calls that take a live session out of the live phase by themselves. -/
def Call.leavesLive : Call B → Bool
  | .beginDirectQuit | .beginShutdown => true
  | _ => false

section Runs

variable [WmBackend B]

/-- The call succeeds and leaves no transaction active, so it finalized the one
it worked on. -/
def Finalizes (s : Session B) (call : Call B) : Prop :=
  (s.step call).active = none ∧
    match call with
    | .ledgerAction action => ∃ update, (s.stageLedgerUpdate action.update).1 = .ok update
    | .requestCloseFocused => ∃ update, s.requestCloseFocused.1 = .ok update
    | .fireKeyRepeat => ∃ update, s.fireKeyRepeat.1 = .ok update
    | .backendEvent event => ∃ update, (s.handleBackendEvent event).1 = .ok update
    | _ => False

/-- The authority staged by the transaction when the call finalizes it. -/
def stagedAuthority (s : Session B) : Call B → Option AuthorityState
  | .backendEvent (.policyTurn turn) => (s.reduceTurn turn.events).1.toOption.map (·.working)
  | .backendEvent (.retainedObservationsDrained _) => s.active.map (·.working)
  | _ => none

/-- The runs that admit one transaction and go on while it is active, without
finalizing it: the last call may leave it active or have ended it. -/
inductive Staged (s₀ : Session B) : List (Call B) → Session B → Prop
  | start {call : Call B} (idle : s₀.active = none) (opens : call.opensTransaction = true)
      (unfinalized : ¬ s₀.Finalizes call) : Staged s₀ [call] (s₀.step call)
  | later {calls : List (Call B)} {s : Session B} (run : Staged s₀ calls s)
      (active : s.active.isSome) {call : Call B} (unfinalized : ¬ s.Finalizes call) :
      Staged s₀ (calls ++ [call]) (s.step call)

end Runs

/-! ## Replay marks -/

theorem Reductions.bootstrap (h : Reductions active events active') :
    active'.bootstrap = active.bootstrap := by
  induction h with
  | nil => rfl
  | cons h _ ih => exact ih.trans h.bootstrap

/-! ## What a call does to the committed fields -/

/-- A transaction is active exactly when the substate is not idle, and no
bootstrap is active in the live phase. -/
structure Orderly (s : Session B) : Prop where
  paired : s.active = none ↔ s.transaction = .idle
  live : s.phase = .live → ∀ active ∈ s.active, active.bootstrap = false

variable {s s₀ : Session B}

theorem orderly_abandon (s : Session B) : s.abandonPrivateTransaction.Orderly :=
  ⟨by simp [abandonPrivateTransaction], by simp [abandonPrivateTransaction]⟩

theorem Orderly.not_ready (h : s.Orderly) (hactive : s.active.isSome) : s.ready = false := by
  have hne : s.transaction ≠ .idle := fun hidle => by
    simp [h.paired.mpr hidle] at hactive
  simp [ready, hasActiveBackendTransaction, hne]

theorem Orderly.active_eq_none (h : s.Orderly) (hready : s.ready = true) : s.active = none := by
  simp only [ready, hasActiveBackendTransaction, Bool.and_eq_true] at hready
  exact h.paired.mpr (by simpa using hready.2)

theorem orderly_of_ended (hactive : s.active = none) (htransaction : s.transaction = .idle) :
    s.Orderly :=
  ⟨by simp [hactive, htransaction], by simp [hactive]⟩

/-- A call took `s` to `s'` without touching a committed field or leaving the
live phase. -/
structure Keeps (s s' : Session B) : Prop where
  committed_eq : s'.committed = s.committed
  orderly : s'.Orderly
  phase_eq : s'.phase = s.phase ∨ (s.phase ≠ .live ∧ s'.phase ≠ .live)

theorem Orderly.keeps (h : s.Orderly) : Keeps s s := ⟨rfl, h, .inl rfl⟩

theorem keeps_abandon (s : Session B) : Keeps s s.abandonPrivateTransaction :=
  ⟨rfl, s.orderly_abandon, .inl rfl⟩

theorem openTurn_bootstrap (h : s.Orderly) (hlive : s.phase = .live) :
    s.openTurn.bootstrap = false := by
  unfold openTurn
  cases hactive : s.active with
  | none => rfl
  | some active => exact h.live hlive active hactive

theorem commitAtOnce_ended (h : s.Orderly) (hready : s.ready = true) (active : ActiveTransaction) :
    (s.commitAtOnce active).2.active = none ∧ (s.commitAtOnce active).2.transaction = .idle := by
  have hactive := h.active_eq_none hready
  unfold commitAtOnce
  obtain ⟨state, heq⟩ := publishCurrentState_snd (s.installAuthority active.working) false
  simp only [heq]
  exact ⟨hactive, h.paired.mp hactive⟩

theorem snapshotResult_eq_of_committed {s' : Session B} (h : s'.committed = s.committed) :
    s'.snapshotResult = s.snapshotResult := by
  have hauthority : s'.currentAuthority = s.currentAuthority := congrArg Committed.authority h
  have hledger : s'.ledger = s.ledger := congrArg AuthorityState.ledger hauthority
  have hids : s'.backendIds = s.backendIds := congrArg AuthorityState.backendIds hauthority
  have hnext : s'.nextWinId = s.nextWinId := congrArg AuthorityState.nextWinId hauthority
  simp only [snapshotResult, snapshotBindings, hledger, hids, hnext]

theorem snapshot_eq_of_committed {s' : Session B} (h : s'.committed = s.committed)
    (hphase : s'.phase = s.phase) : s'.snapshot = s.snapshot := by
  rw [snapshot, snapshot, snapshotResult_eq_of_committed h, hphase]

theorem snapshot_of_not_live (h : s.phase ≠ .live) : s.snapshot = none := by
  simp [snapshot, h]

theorem installedAuthority_installAuthority (s : Session B) (a : AuthorityState) :
    (s.installAuthority a).installedAuthority = a := by
  obtain ⟨_, _, _, _, _, workarea⟩ := a
  cases workarea <;> rfl

theorem installedAuthority_finalizeActive (s : Session B) (active : ActiveTransaction) :
    (s.finalizeActive active).2.installedAuthority = active.working := by
  obtain ⟨_, _, _, _, heq⟩ := s.exists_finalizeActive active
  rw [heq]
  exact s.installedAuthority_installAuthority active.working

@[simp] theorem deriveResponse_working (s : Session B) (active : ActiveTransaction) :
    (s.deriveResponse active).working = active.working := rfl

theorem installedAuthority_settleSubmission (s : Session B) (ticket : BackendTicket)
    (active : ActiveTransaction) :
    (s.settleSubmission ticket active .complete).2.installedAuthority = active.working :=
  s.installedAuthority_finalizeActive _

/-- What holds of `s` if it was `s₀` when the transaction was admitted and
`calls` ran since. -/
structure Atomic (s₀ : Session B) (calls : List (Call B)) (s : Session B) : Prop where
  committed_eq : s.committed = s₀.committed
  snapshot_eq : s.snapshot = s₀.snapshot ∨
    (s.snapshot = none ∧ s.phase ≠ .live ∧ ∃ call ∈ calls, call.leavesLive = true)

theorem Atomic.refl (s₀ : Session B) : Atomic s₀ [] s₀ := ⟨rfl, .inl rfl⟩

section Calls

variable [WmBackend B] {active : ActiveTransaction} {backend : B} {call : Call B}
  {calls : List (Call B)}

/-- The backend event did not touch the committed fields, or it finalized the
active transaction. -/
def KeepsOrEnds (s : Session B)
    (outcome : Except SessionEventError SessionUpdate × Session B) : Prop :=
  Keeps s outcome.2 ∨
    (∃ update, outcome.1 = .ok update) ∧ outcome.2.active = none ∧ outcome.2.transaction = .idle

theorem reduceTurn_bootstrap (h : s.Orderly) (hlive : s.phase = .live)
    (hreduce : s.reduceTurn events = (.ok active, backend)) : active.bootstrap = false := by
  rw [reduceTurn, if_neg (by simp [hlive])] at hreduce
  rw [(reductions_reducePolicyEvents hreduce).bootstrap, openTurn_bootstrap h hlive]

theorem keepsOrEnds_handlePolicyTurn (h : s.Orderly) (turn : BackendPolicyTurn) :
    KeepsOrEnds s (s.handlePolicyTurn turn) := by
  unfold handlePolicyTurn
  split
  · exact .inl s.keeps_abandon
  split
  · split
    · exact .inl h.keeps
    · exact .inl s.keeps_abandon
  split
  · exact .inl ⟨rfl, orderly_abandon _, .inl rfl⟩
  rename_i ticket _ _ active backend hreduce
  simp only
  split
  · exact .inl ⟨rfl, orderly_abandon _, .inl rfl⟩
  rename_i submission _ _
  cases submission with
  | complete => exact .inr ⟨⟨_, rfl⟩, rfl, rfl⟩
  | pending =>
    by_cases hlive : s.phase = .live
    · have hboot := reduceTurn_bootstrap h hlive hreduce
      have hphase : (if active.bootstrap then .finalizingReplay else s.phase) = s.phase := by
        simp [hboot]
      refine .inl ⟨rfl, ⟨by simp [settleSubmission], fun _ => ?_⟩, .inl hphase⟩
      rintro active' ⟨⟩
      exact hboot
    · have hphase : (if active.bootstrap then .finalizingReplay else s.phase) ≠ .live := by
        split
        · decide
        · exact hlive
      exact .inl ⟨rfl, ⟨by simp [settleSubmission], fun hl => absurd hl hphase⟩,
        .inr ⟨hlive, hphase⟩⟩

theorem keepsOrEnds_handleBackendEvent (h : s.Orderly) (event : BackendEvent) :
    KeepsOrEnds s (s.handleBackendEvent event) := by
  unfold handleBackendEvent
  split
  · exact .inl s.keeps_abandon
  cases event with
  | policyTurn turn => exact keepsOrEnds_handlePolicyTurn h turn
  | operationCompleted =>
    simp only [handleOperationCompleted]
    split
    · split
      · exact .inl s.keeps_abandon
      · split
        · exact .inl s.keeps_abandon
        · split
          · exact .inl h.keeps
          · rename_i active hactive
            exact .inl ⟨rfl, ⟨by simp [hactive], h.live⟩, .inl rfl⟩
    · exact .inl s.keeps_abandon
  | retainedObservationsDrained =>
    simp only [handleObservationsDrained]
    split
    · split
      · exact .inl s.keeps_abandon
      · split
        · exact .inl h.keeps
        · exact .inr ⟨⟨_, rfl⟩, rfl, rfl⟩
    · exact .inl s.keeps_abandon
  | disconnected => exact .inl s.keeps_abandon

theorem keeps_admit (s : Session B) (ticket : ℕ)
    {transaction : TransactionSubstate} (hboot : active.bootstrap = false)
    (hne : transaction ≠ .idle) :
    Keeps s ({ s with lastBackendTicket := ticket }.admitTransaction active transaction).2 := by
  unfold admitTransaction
  split
  · refine ⟨rfl, ⟨by simp [hne], fun _ => ?_⟩, .inl rfl⟩
    rintro active' ⟨⟩
    exact hboot
  · exact ⟨rfl, orderly_abandon _, .inl rfl⟩

theorem keeps_admitAction (h : s.Orderly)
    (hboot : active.bootstrap = false) : Keeps s (s.admitAction active).2 := by
  unfold admitAction
  split
  · exact h.keeps
  rename_i ticket s' hticket
  obtain ⟨-, rfl⟩ := allocateTicket_eq_some hticket
  split <;> rename_i heq
  · exact congrArg Prod.snd heq ▸ s.keeps_admit _ hboot (by simp)
  · exact congrArg Prod.snd heq ▸ s.keeps_admit _ hboot (by simp)

/-- What one call does: it keeps the committed fields, it leaves the live phase
by a quit or a shutdown, it finalizes what it worked on, or it sets one visible
field of a session without a transaction. -/
theorem Orderly.step_cases (h : s.Orderly) (call : Call B) : Keeps s (s.step call) ∨
    (call.leavesLive = true ∧ (s.step call).committed = s.committed ∧ (s.step call).Orderly ∧
      (s.step call).phase ≠ .live) ∨ (s.Finalizes call ∧ (s.step call).Orderly) ∨
    (call.opensTransaction = false ∧ s.ready = true ∧ (s.step call).Orderly) := by
  cases call with
  | backendMoves => exact .inl ⟨rfl, ⟨h.paired, h.live⟩, .inl rfl⟩
  | ledgerAction =>
    simp only [Session.step, Finalizes, stageLedgerUpdate]
    split
    · exact .inl h.keeps
    rename_i hready
    simp only [Bool.not_eq_true, Bool.not_eq_false'] at hready
    split
    · exact .inl h.keeps
    split
    · obtain ⟨hactive, hidle⟩ := commitAtOnce_ended h hready _
      exact .inr (.inr (.inl ⟨⟨hactive, _, rfl⟩, orderly_of_ended hactive hidle⟩))
    · exact .inl (keeps_admitAction h rfl)
  | requestCloseFocused =>
    simp only [Session.step, requestCloseFocused]
    split
    · exact .inl h.keeps
    split
    · exact .inl h.keeps
    · exact .inl (keeps_admitAction h rfl)
  | requestSpawn =>
    simp only [Session.step, requestSpawn]
    split
    · exact .inl h.keeps
    split <;> exact .inl h.keeps
  | toggleWhichkey =>
    simp only [Session.step, toggleWhichkey]
    split
    · exact .inl h.keeps
    · rename_i hready
      exact .inr (.inr (.inr ⟨rfl, by simpa using hready, ⟨h.paired, h.live⟩⟩))
  | updateModules =>
    simp only [Session.step, updateModules]
    split
    · exact .inl h.keeps
    rename_i hready
    split
    · exact .inl h.keeps
    · exact .inr (.inr (.inr ⟨rfl, by simpa using hready, ⟨h.paired, h.live⟩⟩))
  | backendEvent event =>
    rcases keepsOrEnds_handleBackendEvent h event with hkeeps | ⟨hok, hactive, hidle⟩
    · exact .inl hkeeps
    · exact .inr (.inr (.inl ⟨⟨hactive, hok⟩, orderly_of_ended hactive hidle⟩))
  | serviceBackend =>
    simp only [Session.step, serviceBackend]
    split
    · exact .inl ⟨rfl, ⟨h.paired, h.live⟩, .inl rfl⟩
    · exact .inl ⟨rfl, orderly_abandon _, .inl rfl⟩
  | fireKeyRepeat =>
    simp only [Session.step, Finalizes, fireKeyRepeat]
    split
    · exact .inl h.keeps
    rename_i hready
    simp only [Bool.not_eq_true, Bool.not_eq_false'] at hready
    split
    · exact .inl h.keeps
    rename_i target _
    split
    · exact .inl h.keeps
    rename_i binding _
    split
    · exact .inl h.keeps
    split
    · obtain ⟨hactive, hidle⟩ := commitAtOnce_ended h hready _
      exact .inr (.inr (.inl ⟨⟨hactive, _, rfl⟩, orderly_of_ended hactive hidle⟩))
    split
    · exact .inl h.keeps
    rename_i ticket s' hticket
    obtain ⟨-, rfl⟩ := allocateTicket_eq_some hticket
    have hboot := (s.alters_applyBindingAction s.newActiveTransaction target binding).bootstrap
    split <;> rename_i heq
    · exact .inl (congrArg Prod.snd heq ▸ s.keeps_admit _ hboot (by simp))
    · exact .inl (congrArg Prod.snd heq ▸ s.keeps_admit _ hboot (by simp))
  | beginDirectQuit =>
    simp only [Session.step, beginDirectQuit]
    split
    · exact .inl h.keeps
    · exact .inr (.inl ⟨rfl, rfl, orderly_of_ended rfl rfl, by simp⟩)
    · exact .inl h.keeps
  | beginShutdown =>
    simp only [Session.step, beginShutdown]
    split <;> first
      | exact .inl h.keeps
      | exact .inr (.inl ⟨rfl, rfl, orderly_of_ended rfl rfl, by simp⟩)
  | beginExitSession =>
    simp only [Session.step, beginExitSession]
    split
    · exact .inl h.keeps
    rename_i hphase
    have hphase : s.phase = .shuttingDown := by
      by_contra hne
      exact hphase (.inl hne)
    split
    · exact .inl ⟨rfl, ⟨h.paired, h.live⟩, .inl rfl⟩
    · exact .inl ⟨rfl, ⟨h.paired, by simp⟩, .inr ⟨by simp [hphase], by simp⟩⟩
  | completeExpectedExit =>
    simp only [Session.step, completeExpectedExit]
    split
    · exact .inl h.keeps
    · rename_i hphase
      have hphase : s.phase = .exiting := not_not.mp hphase
      exact .inl ⟨rfl, ⟨h.paired, by simp⟩, .inr ⟨by simp [hphase], by simp⟩⟩

theorem orderly_of_connect {snapshot : Option ValidatedSnapshot} {keymap : Keymap}
    (h : connect backend snapshot keymap = .ok s) : s.Orderly :=
  orderly_of_ended (fresh_of_connect h).active (fresh_of_connect h).transaction

theorem Orderly.step (h : s.Orderly) (call : Call B) : (s.step call).Orderly := by
  rcases h.step_cases call with hkeeps | ⟨-, -, horderly, -⟩ | ⟨-, horderly⟩ | ⟨-, -, horderly⟩
  · exact hkeeps.orderly
  all_goals exact horderly

theorem Reachable.orderly (h : Reachable s) : s.Orderly :=
  h.invariant orderly_of_connect fun _ call hs => hs.step call

/-! ## Atomicity -/

/-- A call that is not the finalizing one keeps the committed fields, in a
session with a transaction and at the admission of one. -/
theorem Orderly.unfinalized_step (h : s.Orderly) (hcall : ¬ s.Finalizes call)
    (hwork : s.active.isSome ∨ call.opensTransaction = true) :
    Keeps s (s.step call) ∨ (call.leavesLive = true ∧
      (s.step call).committed = s.committed ∧ (s.step call).phase ≠ .live) := by
  rcases h.step_cases call with hkeeps | ⟨hleaves, heq, -, hphase⟩ | ⟨hfinal, -⟩ |
    ⟨hopens, hready, -⟩
  · exact .inl hkeeps
  · exact .inr ⟨hleaves, heq, hphase⟩
  · exact absurd hfinal hcall
  · rcases hwork with hactive | hopens'
    · simp [h.not_ready hactive] at hready
    · simp [hopens] at hopens'

theorem handlePolicyTurn_installs {turn : BackendPolicyTurn} {update : SessionUpdate}
    (hok : (s.handlePolicyTurn turn).1 = .ok update)
    (hended : (s.handlePolicyTurn turn).2.active = none) :
    (s.reduceTurn turn.events).1.toOption.map (·.working) =
      some (s.handlePolicyTurn turn).2.installedAuthority := by
  unfold handlePolicyTurn at hok hended ⊢
  split at hok
  · cases hok
  split at hok
  · cases hok
  split at hok
  · cases hok
  rename_i hvalid _ _ _ hticket _ active backend hreduce
  simp only at hok
  split at hok
  · cases hok
  rename_i submission backend hrespond
  cases submission with
  | complete =>
    simp only [hreduce, hrespond, installedAuthority_settleSubmission,
      deriveResponse_working, Except.toOption, Option.map_some]
  | pending =>
    simp only [hvalid, hticket, hreduce, hrespond, settleSubmission] at hended
    cases hended

theorem Orderly.finalizes_installs (h : s.Orderly) (hactive : s.active.isSome)
    (hfinal : s.Finalizes call) :
    s.stagedAuthority call = some (s.step call).installedAuthority := by
  have hready := h.not_ready hactive
  obtain ⟨hended, hok⟩ := hfinal
  cases call with
  | ledgerAction =>
    obtain ⟨update, hok⟩ := hok
    simp [stageLedgerUpdate, hready] at hok
  | requestCloseFocused =>
    obtain ⟨update, hok⟩ := hok
    simp [requestCloseFocused, hready] at hok
  | fireKeyRepeat =>
    simp [Session.step, fireKeyRepeat, hready] at hended
    simp [hended] at hactive
  | backendEvent event =>
    obtain ⟨update, hok⟩ := hok
    simp only [Session.step] at hended ⊢
    unfold handleBackendEvent at hok hended ⊢
    split at hok
    · cases hok
    rename_i hphase
    simp only [hphase, if_false] at hended ⊢
    cases event with
    | policyTurn => exact handlePolicyTurn_installs hok hended
    | operationCompleted =>
      simp only [handleOperationCompleted] at hok hended
      split at hok
      · split at hok
        · cases hok
        · split at hok
          · cases hok
          · split at hok
            · cases hok
            · simp_all
      · cases hok
    | retainedObservationsDrained =>
      simp only [handleObservationsDrained] at hok ⊢
      split at hok
      · split at hok
        · cases hok
        · split at hok
          · cases hok
          · rename_i hactive
            simp only [*, stagedAuthority, if_false, Option.map_some]
            exact congrArg some (installedAuthority_finalizeActive _ _).symm
      · cases hok
    | disconnected => cases hok
  | _ => exact hok.elim

theorem Atomic.snoc (h : Atomic s₀ calls s) (hs : s.Orderly) (hcall : ¬ s.Finalizes call)
    (hwork : s.active.isSome ∨ call.opensTransaction = true) :
    Atomic s₀ (calls ++ [call]) (s.step call) := by
  rcases hs.unfinalized_step hcall hwork with hkeeps | ⟨hleaves, heq, hphase⟩
  · refine ⟨hkeeps.committed_eq.trans h.committed_eq, ?_⟩
    rcases hkeeps.phase_eq with hphase | ⟨hbefore, hafter⟩
    · rw [snapshot_eq_of_committed hkeeps.committed_eq hphase, hphase]
      refine h.snapshot_eq.imp_right ?_
      rintro ⟨hnone, hne, c, hc, hleaves⟩
      exact ⟨hnone, hne, c, List.mem_append_left _ hc, hleaves⟩
    · rw [snapshot_of_not_live hafter, ← snapshot_of_not_live hbefore]
      refine h.snapshot_eq.imp_right ?_
      rintro ⟨hnone, -, c, hc, hleaves⟩
      exact ⟨rfl, hafter, c, List.mem_append_left _ hc, hleaves⟩
  · exact ⟨heq.trans h.committed_eq,
      .inr ⟨snapshot_of_not_live hphase, hphase, call, by simp, hleaves⟩⟩

theorem Staged.reachable (h : Staged s₀ calls s) (h₀ : Reachable s₀) : Reachable s := by
  induction h with
  | start => exact h₀.step _
  | later _ _ _ ih => exact ih.step _

theorem Staged.atomic (h : Staged s₀ calls s) (h₀ : Reachable s₀) : Atomic s₀ calls s := by
  induction h with
  | start _ opens unfinalized =>
    exact (Atomic.refl s₀).snoc h₀.orderly unfinalized (.inr opens)
  | later run active unfinalized ih =>
    exact ih.snoc (run.reachable h₀).orderly unfinalized (.inl active)

/-- From the admission of a transaction to its finalization, and after it failed
or was abandoned, every committed and published field is what it was before the
admission, and the snapshot is that one or has gone with the live phase; the
finalizing call installs the staged authority as it is. -/
theorem staged_atomic {calls : List (Call B)} (h₀ : Reachable s₀) (h : Staged s₀ calls s) :
    s.committed = s₀.committed ∧
    (s.snapshot = s₀.snapshot ∨
      (s.snapshot = none ∧ s.phase ≠ .live ∧ ∃ call ∈ calls, call.leavesLive = true)) ∧
    ∀ call, s.active.isSome → s.Finalizes call →
      s.stagedAuthority call = some (s.step call).installedAuthority :=
  ⟨(h.atomic h₀).committed_eq, (h.atomic h₀).snapshot_eq,
    fun _ hactive hfinal => (h.reachable h₀).orderly.finalizes_installs hactive hfinal⟩

end Calls

theorem beginDirectQuit_phase (s : Session B) : s.beginDirectQuit.2.phase ≠ .live := by
  unfold beginDirectQuit
  split
  · simp_all
  · simp
  · assumption

/-- A live session that shows one window, and the switch to an empty orbit. -/
theorem exists_switching_session : ∃ s₀ : Session PromptBackend, Reachable s₀ ∧
    s₀.snapshot.isSome ∧ s₀.active = none ∧
    (s₀.step (.ledgerAction (.switchOrbit 1))).active.isSome := by
  have hconnect : ∃ s, connect PromptBackend.mk none Keymap.default = .ok s ∧
      (promptTurns.foldl step s).snapshot.isSome ∧ (promptTurns.foldl step s).active.isNone ∧
      ((promptTurns.foldl step s).step (.ledgerAction (.switchOrbit 1))).active.isSome :=
    ⟨_, rfl, by decide +kernel, by decide +kernel, by decide +kernel⟩
  obtain ⟨s, hs, hsnap, hidle, hactive⟩ := hconnect
  exact ⟨_, (Reachable.connect hs).foldl promptTurns, hsnap, by simpa using hidle, hactive⟩

theorem staged_switch {s₀ : Session PromptBackend} (hidle : s₀.active = none)
    (hactive : (s₀.step (.ledgerAction (.switchOrbit 1))).active.isSome) :
    Staged s₀ [.ledgerAction (.switchOrbit 1)] (s₀.step (.ledgerAction (.switchOrbit 1))) := by
  refine .start hidle rfl fun hfinal => ?_
  rw [hfinal.1] at hactive
  cases hactive

theorem staged_atomic_switchOrbit : ∃ s₀ s : Session PromptBackend,
    s.active.isSome ∧ s₀.snapshot.isSome ∧ s.committed = s₀.committed := by
  obtain ⟨s₀, hreach, hsnap, hidle, hactive⟩ := exists_switching_session
  exact ⟨s₀, _, hactive, hsnap, (staged_atomic hreach (staged_switch hidle hactive)).1⟩

/-- A quit that abandons the switch takes the snapshot away. -/
theorem staged_quit_changes_snapshot : ¬ ∀ (s₀ s : Session PromptBackend)
    (calls : List (Call PromptBackend)), Reachable s₀ → Staged s₀ calls s →
      s.snapshot = s₀.snapshot := by
  intro h
  obtain ⟨s₀, hreach, hsnap, hidle, hactive⟩ := exists_switching_session
  have hrun : Staged s₀ ([.ledgerAction (.switchOrbit 1)] ++ [.beginDirectQuit])
      ((s₀.step (.ledgerAction (.switchOrbit 1))).step .beginDirectQuit) :=
    (staged_switch hidle hactive).later hactive fun hfinal => hfinal.2
  have hnone : s₀.snapshot = none :=
    (h _ _ _ hreach hrun).symm.trans (snapshot_of_not_live (beginDirectQuit_phase _))
  simp [hnone] at hsnap

/-! ## Window ids -/

open List Map

/-- Every identity of the later authority is one of the earlier, or has a window id from
its watermark on. -/
def Follows (a₀ a : AuthorityState) : Prop :=
  a₀.nextWinId ≤ a.nextWinId ∧ ∀ id w, a.backendIds.lookup id = some w →
    a₀.backendIds.lookup id = some w ∨ a₀.nextWinId ≤ w

variable {a₀ a a' : AuthorityState} {replayed : List ReplayWindow}

theorem Follows.dropUnreplayed (h : Follows a₀ a) (wins : List WinId) :
    Follows a₀ (wins.foldl (dropUnreplayed replayed) a) := by
  refine foldlRecOn wins _ h fun a h win _ => ?_
  unfold Session.dropUnreplayed
  grind [Follows, lookup_erase_eq_some]

theorem Follows.rewrites {event : BackendPolicyEvent} (h : Follows a₀ a)
    (hrewrites : Rewrites a event a') : Follows a₀ a' := by
  cases hrewrites with
  | opened => grind [Follows, allocateOpened, lookup_insert_eq_some]
  | closed => grind [Follows, lookup_erase_eq_some]
  | titled => exact h
  | keeps => grind [Follows, AuthorityState.identities]

variable [WmBackend B]

theorem Follows.bindReplayed {backend backend' : B} (h : Follows a₀ a)
    (hbind : bindReplayed backend a replayed = (.ok a', backend')) : Follows a₀ a' := by
  induction replayed generalizing backend a with
  | nil => exact (Except.ok.inj (congrArg Prod.fst hbind)) ▸ h
  | cons window windows ih =>
    simp only [bindReplayed, allocateReplayed] at hbind
    grind [Follows, lookup_insert_eq_some]

theorem turns_follows : Turns B (Follows a₀) := by
  intro s turn active backend hs _ h
  rw [← openTurn_working] at hs
  unfold reduceTurn at h
  split at h
  · obtain ⟨facts, a, _, hbind, rfl⟩ := exists_reduceInitialReplay h
    have hbound : Follows a₀ a := by
      refine Follows.bindReplayed ?_ hbind
      exact hs.dropUnreplayed _
    exact hbound
  · replace h := reductions_reducePolicyEvents h
    generalize s.openTurn = start, turn.events = events at hs h
    induction h with
    | nil => exact hs
    | cons h _ ih => exact ih (hs.rewrites h.rewrites)

/-- From an idle session on the watermark never goes down and no window id below it is
given to another window, whatever is called and however the backend answers. -/
theorem follows_foldl_step (hidle : s.active = none) (calls : List (Call B)) :
    Follows s.currentAuthority (calls.foldl step s).currentAuthority := by
  have hstart : s.Upholds (Follows s.currentAuthority) :=
    ⟨⟨le_rfl, fun _ _ => .inl⟩, by simp [hidle]⟩
  generalize s.currentAuthority = a₀ at hstart ⊢
  clear hidle
  induction calls generalizing s with
  | nil => exact hstart.committed
  | cons call calls ih =>
    refine ih (Lasts.step ?_ turns_follows hstart call)
    grind [Lasts, Follows, AuthorityState.identities]

/-- A live session with a window, and a switch of its orbit. -/
theorem follows_foldl_step_switching : ∃ s : Session PromptBackend, s.snapshot.isSome ∧
    Follows s.currentAuthority (s.step (.ledgerAction (.switchOrbit 1))).currentAuthority := by
  obtain ⟨s, -, hsnap, hidle, -⟩ := exists_switching_session
  exact ⟨s, hsnap, follows_foldl_step hidle [.ledgerAction (.switchOrbit 1)]⟩

end Realm.Session
