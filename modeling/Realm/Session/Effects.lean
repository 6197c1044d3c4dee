import Realm.Session.Calls

/-!
# What calls do

Each call does one of a few things to a session.  The owners of the runtime commit at
once, admit a transaction, leave the live phase or exit; an event of the backend answers
a turn, moves a transaction on or finalizes it, or it fails and takes the transaction
with it.  This is said here once, with what the call returns; every invariant of runs is
read off these cases.
-/

namespace Realm

/-- The parts of an authority that bind windows to the backend. -/
def AuthorityState.identities (a : AuthorityState) :
    Map BackendWindowId WinId × Finset BackendWindowId × Map WinId WindowMetadata × ℕ :=
  (a.backendIds, a.boundBackendIds, a.windows, a.nextWinId)

namespace Session

variable {B : Type} {s s' : Session B}

/-! ## Connecting -/

/-- A session that was connected with a snapshot and has done nothing yet. -/
structure Fresh (snapshot : Option ValidatedSnapshot) (s : Session B) : Prop where
  phase : s.phase = .initialReplay
  active : s.active = none
  transaction : s.transaction = .idle
  ledger : s.ledger = (snapshot.map (·.snapshot.ledger)).getD Ledger.new
  backendIds : s.backendIds = ((snapshot.map (·.snapshot.bindings)).getD []).foldl
    (fun m b => m.insert b.backendId b.winId) ∅
  nextWinId : s.nextWinId = (snapshot.map (·.snapshot.nextWinId)).getD 0
  workareaKnown : s.workareaKnown = false
  lastProjection : s.lastProjection = []
  state : s.state = RealmState.default

theorem fresh_of_connect [WmBackend B] {backend : B} {snapshot : Option ValidatedSnapshot}
    {keymap : Keymap} (h : connect backend snapshot keymap = .ok s) : Fresh snapshot s := by
  unfold connect at h
  split at h
  · cases h
  split at h
  · cases h
  simp only at h
  split at h
  · cases h
  cases h
  exact ⟨rfl, rfl, rfl, rfl, rfl, rfl, rfl, rfl, rfl⟩

/-! ## Parts of calls -/

theorem publishCurrentState_snd (s : Session B) (force : Bool) :
    ∃ state, (s.publishCurrentState force).2 =
      { s with state := state, publishedLedger := s.ledger, publishedWindows := s.windows } := by
  unfold publishCurrentState
  simp only
  split
  · exact ⟨s.state, rfl⟩
  · exact ⟨_, rfl⟩

theorem publishIfLive_snd (s : Session B) (force : Bool) :
    ∃ state ledger windows, (s.publishIfLive force).2 =
      { s with state := state, publishedLedger := ledger, publishedWindows := windows } := by
  unfold publishIfLive
  split
  · obtain ⟨state, heq⟩ := s.publishCurrentState_snd force
    exact ⟨state, _, _, heq⟩
  · exact ⟨s.state, s.publishedLedger, s.publishedWindows, rfl⟩

theorem exists_finalizeActive (s : Session B) (active : ActiveTransaction) :
    ∃ repeatTarget state publishedLedger publishedWindows, (s.finalizeActive active).2 =
      { s.commitActive active with
        repeatTarget := repeatTarget
        state := state
        publishedLedger := publishedLedger
        publishedWindows := publishedWindows
        phase := if active.quitStaged then .quitPending else (s.commitActive active).phase
        active := none
        transaction := .idle } := by
  unfold finalizeActive
  obtain ⟨state, ledger, windows, heq⟩ := publishIfLive_snd
    { s.commitActive active with repeatTarget := ((s.commitActive active).settleRepeat active).1 }
    (s.enteringLive active)
  simp only [heq]
  exact ⟨_, _, _, _, rfl⟩

theorem allocateTicket_eq_some {ticket : BackendTicket} (h : s.allocateTicket = some (ticket, s')) :
    ticket.raw = s.lastBackendTicket + 1 ∧
      s' = { s with lastBackendTicket := s.lastBackendTicket + 1 } := by
  unfold allocateTicket at h
  split at h
  · cases h
  · obtain ⟨ticket', hnew, heq⟩ := Option.map_eq_some_iff.mp h
    cases heq
    unfold NonZeroId.new at hnew
    split at hnew
    · cases hnew
      exact ⟨rfl, rfl⟩
    · cases hnew

theorem projectAuthority_of_workarea_none {a : AuthorityState} (h : a.workarea = none) :
    projectAuthority a = [] := by
  rw [projectAuthority, h]

/-! ## Binding actions -/

variable (s) (active : ActiveTransaction)

theorem exists_performAction (action : Action) :
    ∃ ledger mode chordEcho whichkey grimoire closes nextKeyEdge stagedEffects bindingChanged
        quitStaged,
      s.performAction active action = { active with
        working := { active.working with
          ledger := ledger
          mode := mode
          chordEcho := chordEcho
          whichkey := whichkey
          grimoire := grimoire }
        response := { active.response with
          closes := closes
          bindings := { active.response.bindings with nextKeyEdge := nextKeyEdge } }
        stagedEffects := stagedEffects
        bindingChanged := bindingChanged
        quitStaged := quitStaged } := by
  cases action with
  | orbit _ | moveToOrbit _ | banish =>
    simp only [performAction]
    split <;> exact ⟨_, _, _, _, _, _, _, _, _, _, rfl⟩
  | _ => exact ⟨_, _, _, _, _, _, _, _, _, _, rfl⟩

theorem performAction_desired (action : Action) (h : active.working.ledger.WellFormed) :
    Ledger.Desired active.working.ledger (s.performAction active action).working.ledger := by
  cases action with
  | focus dir => exact Ledger.focusStep_desired h dir
  | swap dir => exact Ledger.swap_desired h dir
  | orbit =>
    simp only [performAction]
    split
    · exact Ledger.switchOrbit_desired h _
    · exact Ledger.Desired.refl h
  | moveToOrbit =>
    simp only [performAction]
    split
    · exact Ledger.moveToOrbit_desired h _
    · exact Ledger.Desired.refl h
  | stow => exact Ledger.toggleStow_desired h
  | setLayout layout => exact Ledger.setLayout_desired h layout
  | fullscreen => exact Ledger.toggleFullscreen_desired h
  | banish =>
    simp only [performAction]
    split <;> exact Ledger.Desired.refl h
  | undo => exact Ledger.undo_desired h
  | _ => exact Ledger.Desired.refl h

theorem applyBindingAction_eq {active : ActiveTransaction} (id : BackendBindingId)
    (binding : Binding) (h : active.quitStaged = false) :
    s.applyBindingAction active id binding = { s.performAction active binding.action with
      projectionRequired := (s.performAction active binding.action).projectionRequired ||
        decide (projectAuthority active.working ≠
          projectAuthority (s.performAction active binding.action).working)
      repeatCandidate := if binding.repeatable then some id
        else (s.performAction active binding.action).repeatCandidate } := by
  rw [applyBindingAction, if_neg (by simp [h])]
  by_cases hsame : projectAuthority active.working =
      projectAuthority (s.performAction active binding.action).working <;>
    cases hrepeat : binding.repeatable <;> simp [hsame]

/-- What actions do to a transaction: the ledger, the modes and what is staged may change,
and nothing was submitted. -/
structure Alters (active active' : ActiveTransaction) : Prop where
  identities : active'.working.identities = active.working.identities
  ledger : active.working.ledger.WellFormed →
    Ledger.Desired active.working.ledger active'.working.ledger
  workarea : active'.working.workarea = active.working.workarea
  bootstrap : active'.bootstrap = active.bootstrap
  submitted : active'.projectionSubmitted = active.projectionSubmitted
  response : active'.response.projection = active.response.projection

theorem alters_applyBindingAction (id : BackendBindingId) (binding : Binding) :
    Alters active (s.applyBindingAction active id binding) := by
  cases hquit : active.quitStaged with
  | true =>
    rw [applyBindingAction, if_pos hquit]
    exact ⟨rfl, Ledger.Desired.refl, rfl, rfl, rfl, rfl⟩
  | false =>
    have hdesired := s.performAction_desired active binding.action
    obtain ⟨_, _, _, _, _, _, _, _, _, _, heq⟩ := s.exists_performAction active binding.action
    rw [s.applyBindingAction_eq id binding hquit]
    rw [heq] at hdesired ⊢
    exact ⟨rfl, hdesired, rfl, rfl, rfl, rfl⟩

theorem applyBindingAction_required (id : BackendBindingId) (binding : Binding) :
    (s.applyBindingAction active id binding).projectionRequired = (active.projectionRequired ||
      decide (projectAuthority active.working ≠
        projectAuthority (s.applyBindingAction active id binding).working)) := by
  cases hquit : active.quitStaged with
  | true =>
    rw [applyBindingAction, if_pos hquit]
    simp
  | false =>
    obtain ⟨_, _, _, _, _, _, _, _, _, _, heq⟩ := s.exists_performAction active binding.action
    rw [s.applyBindingAction_eq id binding hquit, heq]

end Session

/-- The session calls of the other owners of the runtime. -/
inductive OwnerCall where
  | ledgerAction (action : Session.LedgerAction)
  | requestCloseFocused
  | requestSpawn (argv : List String)
  | toggleWhichkey
  | updateModules (modules : List Module)
  | fireKeyRepeat
  | beginDirectQuit
  | beginShutdown
  | beginExitSession

def OwnerCall.call {B : Type} : OwnerCall → Session.Call B
  | ledgerAction action => .ledgerAction action
  | requestCloseFocused => .requestCloseFocused
  | requestSpawn argv => .requestSpawn argv
  | toggleWhichkey => .toggleWhichkey
  | updateModules modules => .updateModules modules
  | fireKeyRepeat => .fireKeyRepeat
  | beginDirectQuit => .beginDirectQuit
  | beginShutdown => .beginShutdown
  | beginExitSession => .beginExitSession

def SessionUpdate.Silent (update : SessionUpdate) : Prop :=
  update.state = none ∧ update.persistence = none

namespace Session

variable {B : Type} {s s' : Session B} {event : BackendEvent}

/-! ## Calls of the owners -/

theorem transaction_of_ready (h : s.ready = true) : s.transaction = .idle := by
  simp only [ready, hasActiveBackendTransaction, Bool.and_eq_true] at h
  simpa using h.2

/-- What two sessions agree on when no transaction and no backend took part. -/
structure SameExchange (s s' : Session B) : Prop where
  backend : s'.backend = s.backend
  identities : s'.currentAuthority.identities = s.currentAuthority.identities
  phase : s'.phase = s.phase
  bindings : s'.bindings = s.bindings
  transaction : s'.transaction = s.transaction
  active : s'.active = s.active
  lastPolicyTurn : s'.lastPolicyTurn = s.lastPolicyTurn
  lastBackendTicket : s'.lastBackendTicket = s.lastBackendTicket
  lastProjection : s'.lastProjection = s.lastProjection

theorem SameExchange.refl (s : Session B) : SameExchange s s :=
  ⟨rfl, rfl, rfl, rfl, rfl, rfl, rfl, rfl, rfl⟩

/-- A transaction staged from the committed authority of a ready session.  It asks for its
projection when that is not the one on screen. -/
structure Stages (s : Session B) (active : ActiveTransaction) : Prop where
  ready : s.ready = true
  alters : Alters s.newActiveTransaction active
  required : s.lastProjection = projectAuthority s.currentAuthority →
    active.projectionRequired = decide (s.lastProjection ≠ projectAuthority active.working)

/-- What a call does that needs no turn. -/
inductive Settles (s : Session B) : Option SessionUpdate → Session B → Prop
  | nothing {outcome : Option SessionUpdate} (h : ∀ update ∈ outcome, update.Silent) :
      Settles s outcome s
  | commits {active : ActiveTransaction} {update : SessionUpdate} (h : s.Stages active)
      (hrequired : active.projectionRequired = false)
      (hupdate : update.state = (s.commitAtOnce active).1.state ∧
        update.persistence = (s.commitAtOnce active).1.persistence) :
      Settles s (some update) (s.commitAtOnce active).2
  | toggles (hready : s.ready = true) : Settles s (some s.toggleWhichkey.1) s.toggleWhichkey.2
  | updates {modules : List Module} (hready : s.ready = true) (hne : s.state.modules ≠ modules) :
      Settles s (some (s.updateModules modules).1) (s.updateModules modules).2

variable {active : ActiveTransaction} {update : SessionUpdate}

theorem Stages.identities (h : s.Stages active) :
    active.working.identities = s.currentAuthority.identities := h.alters.identities

theorem Settles.sameExchange {outcome : Option SessionUpdate} (h : Settles s outcome s') :
    SameExchange s s' := by
  cases h with
  | nothing => exact .refl s
  | @commits active _ h =>
    unfold commitAtOnce
    obtain ⟨state, heq⟩ := publishCurrentState_snd (s.installAuthority active.working) false
    simp only [heq]
    exact ⟨rfl, h.identities, rfl, rfl, rfl, rfl, rfl, rfl, rfl⟩
  | toggles hready =>
    simp only [toggleWhichkey, hready]
    exact ⟨rfl, rfl, rfl, rfl, rfl, rfl, rfl, rfl, rfl⟩
  | updates hready hne =>
    simp only [updateModules, hready, hne]
    exact ⟨rfl, rfl, rfl, rfl, rfl, rfl, rfl, rfl, rfl⟩

theorem Settles.eq_or_ready {outcome : Option SessionUpdate} (h : Settles s outcome s') :
    s' = s ∨ s.ready = true := by
  cases h with
  | nothing => exact .inl rfl
  | commits h => exact .inr h.ready
  | toggles hready | updates hready => exact .inr hready

theorem settles_refl (s : Session B) : Settles s (some .unchanged) s :=
  .nothing (by rintro _ ⟨⟩; exact ⟨rfl, rfl⟩)

theorem settles_refused (s : Session B) : Settles s none s := .nothing (by simp)

theorem stages_applyBindingAction (hready : s.ready = true) (id : BackendBindingId)
    (binding : Binding) (repeatCandidate : Option BackendBindingId) (projection : List Placement) :
    s.Stages { s.applyBindingAction s.newActiveTransaction id binding with
      repeatCandidate := repeatCandidate
      mostRecentPrivateProjection := projection } := by
  obtain ⟨h₁, h₂, h₃, h₄, h₅, h₆⟩ :=
    s.alters_applyBindingAction s.newActiveTransaction id binding
  refine ⟨hready, ⟨h₁, h₂, h₃, h₄, h₅, h₆⟩, fun hclean => ?_⟩
  have hrequired := s.applyBindingAction_required s.newActiveTransaction id binding
  rw [hclean]
  exact hrequired

theorem LedgerAction.update_desired {l : Ledger} (h : l.WellFormed) (action : LedgerAction) :
    Ledger.Desired l (action.update l) := by
  cases action with
  | switchOrbit orbit => exact Ledger.switchOrbit_desired h orbit
  | setLayout layout => exact Ledger.setLayout_desired h layout
  | focusStep dir => exact Ledger.focusStep_desired h dir
  | swap dir => exact Ledger.swap_desired h dir
  | moveFocusedToOrbit orbit => exact Ledger.moveToOrbit_desired h orbit
  | toggleStow => exact Ledger.toggleStow_desired h
  | toggleFullscreen => exact Ledger.toggleFullscreen_desired h
  | undo => exact Ledger.undo_desired h

variable [WmBackend B]

/-! ## Windows assigned to the backend -/

section Assigns

variable {b b' : B} {events : List BackendPolicyEvent} {active : ActiveTransaction}

/-- Windows are assigned in a row. -/
abbrev Assigns : B → B → Prop :=
  Relation.ReflTransGen fun b b' =>
    ∃ bid win result, WmBackend.assignWindow b bid win = (result, b')

theorem assigns_bindReplayed {a : AuthorityState} {windows : List ReplayWindow}
    {result : Except SessionEventError AuthorityState}
    (h : bindReplayed b a windows = (result, b')) : Assigns b b' := by
  induction windows generalizing b a with
  | nil =>
    cases h
    exact .refl
  | cons window windows ih =>
    simp only [bindReplayed] at h
    split at h
    · rename_i hassign
      cases h
      exact .single ⟨_, _, _, hassign⟩
    · rename_i hassign
      exact .head ⟨_, _, _, hassign⟩ (ih h)

variable {result : Except SessionEventError ActiveTransaction}

theorem assigns_reduceEvent {event : BackendPolicyEvent}
    (h : s.reduceEvent b active event = (result, b')) : Assigns b b' := by
  cases event with
  | windowOpened =>
    simp only [reduceEvent, reduceOpened] at h
    split at h
    · cases h
      exact .refl
    split at h
    · cases h
      exact .refl
    · split at h
      all_goals
        rename_i hassign
        cases h
        exact .single ⟨_, _, _, hassign⟩
  | _ =>
    cases h
    exact .refl

theorem assigns_reducePolicyEvents (h : s.reducePolicyEvents b active events = (result, b')) :
    Assigns b b' := by
  induction events generalizing b active with
  | nil =>
    cases h
    exact .refl
  | cons event events ih =>
    simp only [reducePolicyEvents] at h
    split at h
    · rename_i hreduce
      cases h
      exact assigns_reduceEvent hreduce
    · rename_i hreduce
      exact (assigns_reduceEvent hreduce).trans (ih h)

theorem assigns_reduceTurn (h : s.reduceTurn events = (result, b)) : Assigns s.backend b := by
  unfold reduceTurn at h
  split at h
  · unfold reduceInitialReplay at h
    split at h
    · cases h
      exact .refl
    simp only at h
    split at h
    · cases h
      exact .refl
    split at h
    all_goals
      rename_i hbind
      cases h
      exact assigns_bindReplayed hbind
  · exact assigns_reducePolicyEvents h

end Assigns

/-- A new transaction that waits for its turn. -/
structure Admits (s : Session B) (active : ActiveTransaction) (transaction : TransactionSubstate) :
    Prop extends Stages s active where
  transaction : ∃ ticket : BackendTicket, ticket.raw = s.lastBackendTicket + 1 ∧
    (transaction = .awaitingExternalTurn ticket ∨ transaction = .awaitingInternalTurn ticket)

/-- What a call of an owner returns and does; a failed call returns nothing. -/
inductive Owned (s : Session B) : Option SessionUpdate → Session B → Prop
  | quiet {outcome : Option SessionUpdate} {s' : Session B} (h : Settles s outcome s') :
      Owned s outcome s'
  | admits {update : SessionUpdate} {backend : B} {active : ActiveTransaction}
      {transaction : TransactionSubstate} (h : s.Admits active transaction)
      (hrequest : WmBackend.requestPolicyTurn s.backend = (.ok (), backend))
      (hsilent : update.Silent) :
      Owned s (some update) { s with
        backend := backend
        active := some active
        transaction := transaction
        lastBackendTicket := s.lastBackendTicket + 1 }
  | refused {backend : B} {error : BackendError} (h : s.ready = true)
      (hrequest : WmBackend.requestPolicyTurn s.backend = (.error error, backend)) :
      Owned s none { s with
        backend := backend
        lastBackendTicket := s.lastBackendTicket + 1 }.abandonPrivateTransaction
  | leaves {update : SessionUpdate} {phase : SessionLifecyclePhase}
      (h : phase = .quitPending ∨ phase = .shuttingDown)
      (hphase : s.phase ≠ .exiting ∧ s.phase ≠ .exitComplete) (hsilent : update.Silent) :
      Owned s (some update)
        { s.abandonPrivateTransaction with repeatTarget := none, phase := phase }
  | exits {backend : B} (hphase : s.phase = .shuttingDown)
      (h : WmBackend.beginExitSession s.backend
        ⟨s.bindingState.enabled, s.bindingState.watchedModifiers⟩ = (.ok (), backend)) :
      Owned s (some .unchanged)
        { s with exitAttempted := true, backend := backend, phase := .exiting }

/-- The update a call returns; there is none when the call fails. -/
def outcome (s : Session B) : Call B → Option SessionUpdate
  | .backendMoves _ => some .unchanged
  | .ledgerAction action => (s.stageLedgerUpdate action.update).1.toOption
  | .requestCloseFocused => s.requestCloseFocused.1.toOption
  | .requestSpawn argv => (s.requestSpawn argv).1.toOption
  | .toggleWhichkey => some s.toggleWhichkey.1
  | .updateModules modules => some (s.updateModules modules).1
  | .backendEvent event => (s.handleBackendEvent event).1.toOption
  | .serviceBackend ready now => (s.serviceBackend ready now).1.toOption.map fun _ => .unchanged
  | .fireKeyRepeat => s.fireKeyRepeat.1.toOption
  | .beginDirectQuit => s.beginDirectQuit.1.toOption
  | .beginShutdown => some s.beginShutdown.1
  | .beginExitSession => s.beginExitSession.1.toOption.map fun _ => .unchanged
  | .completeExpectedExit => s.completeExpectedExit.1.toOption.map fun _ => .unchanged

theorem owned_admitTransaction {ε : Type} {ticket : BackendTicket}
    {transaction : TransactionSubstate} {fault : BackendError → ε}
    (hticket : s.allocateTicket = some (ticket, s')) (h : s.Stages active)
    (htransaction : transaction = .awaitingExternalTurn ticket ∨
      transaction = .awaitingInternalTurn ticket) (hsilent : update.Silent) :
    let result : Except ε SessionUpdate × Session B :=
      match s'.admitTransaction active transaction with
      | (.ok (), s) => (.ok update, s)
      | (.error error, s) => (.error (fault error), s)
    Owned s result.1.toOption result.2 := by
  obtain ⟨hraw, rfl⟩ := allocateTicket_eq_some hticket
  unfold admitTransaction
  dsimp only
  split <;> rename_i hadmit <;> split at hadmit <;> rename_i hrequest
  · cases hadmit
    exact .admits ⟨h, ticket, hraw, htransaction⟩ hrequest hsilent
  · cases hadmit
  · cases hadmit
  · cases hadmit
    exact .refused h.ready hrequest

theorem owned_admitAction (h : s.Stages active) :
    Owned s (s.admitAction active).1.toOption (s.admitAction active).2 := by
  unfold admitAction
  split
  · exact .quiet s.settles_refused
  rename_i ticket s' hticket
  obtain ⟨hready, ⟨h₁, h₂, h₃, h₄, h₅, h₆⟩, hrequired⟩ := h
  exact owned_admitTransaction hticket ⟨hready, ⟨h₁, h₂, h₃, h₄, h₅, h₆⟩, hrequired⟩
    (.inl rfl) ⟨rfl, rfl⟩

theorem owned_fireKeyRepeat (s : Session B) :
    Owned s s.fireKeyRepeat.1.toOption s.fireKeyRepeat.2 := by
  unfold fireKeyRepeat
  split
  · exact .quiet s.settles_refl
  rename_i hready
  split
  · exact .quiet s.settles_refl
  rename_i target _
  split
  · exact .quiet s.settles_refl
  rename_i binding _
  split
  · exact .quiet s.settles_refl
  have hstages := stages_applyBindingAction (by simpa using hready) target binding none
    (projectAuthority (s.applyBindingAction s.newActiveTransaction target binding).working)
  simp only
  split
  · rename_i hwaits
    exact .quiet (.commits hstages (by simp_all) ⟨rfl, rfl⟩)
  split
  · exact .quiet s.settles_refused
  rename_i ticket s' hticket
  exact owned_admitTransaction hticket hstages (.inr rfl) ⟨rfl, rfl⟩

theorem owned_stageLedgerUpdate (s : Session B) (action : LedgerAction) :
    Owned s (s.stageLedgerUpdate action.update).1.toOption
      (s.stageLedgerUpdate action.update).2 := by
  unfold stageLedgerUpdate
  split
  · exact .quiet s.settles_refused
  rename_i hready
  simp only
  split
  · exact .quiet s.settles_refl
  have hstages : s.Stages { s.newActiveTransaction with
      working := { s.newActiveTransaction.working with
        ledger := action.update s.newActiveTransaction.working.ledger }
      mostRecentPrivateProjection := projectAuthority { s.newActiveTransaction.working with
        ledger := action.update s.newActiveTransaction.working.ledger }
      projectionRequired := decide (projectAuthority { s.newActiveTransaction.working with
        ledger := action.update s.newActiveTransaction.working.ledger } ≠
          s.newActiveTransaction.lastCommittedCleanProjection) } :=
    ⟨by simpa using hready, ⟨rfl, fun h => action.update_desired h, rfl, rfl, rfl, rfl⟩,
      fun _ => decide_eq_decide.mpr ne_comm⟩
  split
  · rename_i hrequired
    exact .quiet (.commits hstages (by simpa using hrequired) ⟨rfl, rfl⟩)
  · exact owned_admitAction hstages

theorem owned_call (s : Session B) (call : OwnerCall) (hexit : call ≠ .beginExitSession) :
    Owned s (s.outcome call.call) (s.step call.call) := by
  cases call with
  | ledgerAction action => exact s.owned_stageLedgerUpdate action
  | requestCloseFocused =>
    simp only [OwnerCall.call, outcome, step, requestCloseFocused]
    split
    · exact .quiet s.settles_refused
    rename_i hready
    split
    · exact .quiet s.settles_refl
    · refine owned_admitAction ⟨by simpa using hready, ?_, fun hclean => ?_⟩
      · exact ⟨rfl, Ledger.Desired.refl, rfl, rfl, rfl, rfl⟩
      · simp [hclean, newActiveTransaction]
  | requestSpawn =>
    simp only [OwnerCall.call, outcome, step, requestSpawn]
    split
    · exact .quiet s.settles_refused
    split
    · exact .quiet s.settles_refused
    · exact .quiet (.nothing (by rintro _ ⟨⟩; exact ⟨rfl, rfl⟩))
  | toggleWhichkey =>
    cases hready : s.ready with
    | true => exact .quiet (.toggles hready)
    | false =>
      simp only [OwnerCall.call, outcome, step, toggleWhichkey, hready]
      exact .quiet s.settles_refl
  | updateModules modules =>
    by_cases hne : s.ready = true ∧ s.state.modules ≠ modules
    · exact .quiet (.updates hne.1 hne.2)
    · have hquiet : s.updateModules modules = (.unchanged, s) := by
        unfold updateModules
        split
        · rfl
        · rw [if_pos (by simp_all)]
      simp only [OwnerCall.call, outcome, step, hquiet]
      exact .quiet s.settles_refl
  | fireKeyRepeat => exact s.owned_fireKeyRepeat
  | beginDirectQuit =>
    simp only [OwnerCall.call, outcome, step, beginDirectQuit]
    split
    · exact .quiet s.settles_refl
    · rename_i hphase
      exact .leaves (.inl rfl) (by simp [hphase]) ⟨rfl, rfl⟩
    · exact .quiet s.settles_refused
  | beginShutdown =>
    simp only [OwnerCall.call, outcome, step, beginShutdown]
    split <;> rename_i hphase <;>
      first
        | exact .quiet s.settles_refl
        | exact .leaves (.inr rfl) (by simp [hphase]) ⟨rfl, rfl⟩
  | beginExitSession => exact absurd rfl hexit

theorem owned_beginExitSession (h : s.beginExitSession = (.ok (), s')) :
    Owned s (some .unchanged) s' := by
  unfold beginExitSession at h
  split at h
  · cases h
  rename_i hphase
  have hphase : s.phase = .shuttingDown := by
    by_contra hne
    exact hphase (.inl hne)
  simp only at h
  split at h
  · cases h
  · rename_i hexit
    cases h
    exact .exits hphase hexit

/-! ## Backend events -/

def Serving (s : Session B) : Prop :=
  s.phase ∉ [SessionLifecyclePhase.quitPending, .shuttingDown, .exiting, .exitComplete]

/-- What a backend event that is accepted returns and does. -/
inductive Handled (s : Session B) : BackendEvent → SessionUpdate → Session B → Prop
  | turn {turn : BackendPolicyTurn} {ticket : BackendTicket} {lastBackendTicket : ℕ}
      {active : ActiveTransaction} {backend backend' : B} {submission : BackendSubmission}
      (hvalid : s.validatePolicyTurn turn = .ok ())
      (hticket : s.responseTicket = .ok (ticket, lastBackendTicket))
      (hreduce : s.reduceTurn turn.events = (.ok active, backend))
      (hrespond : WmBackend.respondPolicyTurn backend turn.id ticket
        (s.deriveResponse active).response = (.ok submission, backend')) :
      Handled s (.policyTurn turn)
        ({ s with
          backend := backend'
          lastBackendTicket := lastBackendTicket
          lastPolicyTurn := some turn.id }.settleSubmission ticket (s.deriveResponse active)
            submission).1
        ({ s with
          backend := backend'
          lastBackendTicket := lastBackendTicket
          lastPolicyTurn := some turn.id }.settleSubmission ticket (s.deriveResponse active)
            submission).2
  | completed {ticket : BackendTicket} {active : ActiveTransaction}
      (htransaction : s.transaction = .inFlight ticket) (hactive : s.active = some active) :
      Handled s (.operationCompleted ticket (.ok ())) .unchanged
        { s with transaction := .awaitingDrain ticket }
  | drained {ticket : BackendTicket} {active : ActiveTransaction}
      (htransaction : s.transaction = .awaitingDrain ticket) (hactive : s.active = some active) :
      Handled s (.retainedObservationsDrained ticket)
        ({ s with active := none }.finalizeActive active).1
        ({ s with active := none }.finalizeActive active).2

theorem Handled.phase (h : Handled s event update s') (hs : s.Serving) :
    s'.phase ≠ .exiting ∧ s'.phase ≠ .exitComplete := by
  have hphase : s.phase ≠ .exiting ∧ s.phase ≠ .exitComplete := by
    constructor <;> intro h <;> simp [Serving, h] at hs
  have hfinal : ∀ (c : Session B) (active : ActiveTransaction), c.phase = s.phase →
      (c.finalizeActive active).2.phase ≠ .exiting ∧
        (c.finalizeActive active).2.phase ≠ .exitComplete := by
    intro c active hc
    obtain ⟨_, _, _, _, heq⟩ := c.exists_finalizeActive active
    rw [heq]
    simp only [commitActive]
    grind
  cases h with
  | turn =>
    simp only [settleSubmission]
    split
    · exact hfinal _ _ rfl
    · simp only
      split <;> simp_all
  | completed => exact hphase
  | drained => exact hfinal _ _ rfl

/-- What a backend event that fails does: it is rejected at once, or its turn cannot be
reduced, or the backend does not take the answer.  Where there is no transaction the
session stays as it is. -/
inductive Failed (s : Session B) : BackendEvent → Session B → Prop
  | rejected {event : BackendEvent} : Failed s event s.abandonPrivateTransaction
  | unpaired {event : BackendEvent} (h : s.active = none ∨ s.transaction = .idle) : Failed s event s
  | unreduced {turn : BackendPolicyTurn} {ticket : BackendTicket} {lastBackendTicket : ℕ}
      {error : SessionEventError} {backend : B} (hvalid : s.validatePolicyTurn turn = .ok ())
      (hticket : s.responseTicket = .ok (ticket, lastBackendTicket))
      (hreduce : s.reduceTurn turn.events = (.error error, backend)) :
      Failed s (.policyTurn turn) { s with
        backend := backend
        lastBackendTicket := lastBackendTicket }.abandonPrivateTransaction
  | unanswered {turn : BackendPolicyTurn} {ticket : BackendTicket} {lastBackendTicket : ℕ}
      {active : ActiveTransaction} {error : BackendError} {backend backend' : B}
      (hvalid : s.validatePolicyTurn turn = .ok ())
      (hticket : s.responseTicket = .ok (ticket, lastBackendTicket))
      (hreduce : s.reduceTurn turn.events = (.ok active, backend))
      (hrespond : WmBackend.respondPolicyTurn backend turn.id ticket
        (s.deriveResponse active).response = (.error error, backend')) :
      Failed s (.policyTurn turn) { s with
        backend := backend'
        lastBackendTicket := lastBackendTicket
        lastPolicyTurn := some turn.id }.abandonPrivateTransaction

/-- What an event that was answered so returns and does. -/
def EventSpec (s : Session B) (event : BackendEvent) :
    Except SessionEventError SessionUpdate × Session B → Prop
  | (.ok update, s') => s.Serving ∧ Handled s event update s'
  | (.error _, s') => Failed s event s'

theorem handleBackendEvent_spec (s : Session B) (event : BackendEvent) :
    EventSpec s event (s.handleBackendEvent event) := by
  unfold handleBackendEvent
  split
  · exact .rejected
  rename_i hphase
  cases event with
  | policyTurn =>
    simp only [handlePolicyTurn]
    split
    · exact .rejected
    rename_i hvalid
    split
    · simp only [EventSpec]
      split
      · rename_i hidle
        exact .unpaired (.inr hidle)
      · exact .rejected
    rename_i ticket lastBackendTicket hticket
    split
    · rename_i hreduce
      exact .unreduced hvalid hticket hreduce
    rename_i active backend hreduce
    split
    · rename_i hrespond
      exact .unanswered hvalid hticket hreduce hrespond
    · rename_i hrespond
      exact ⟨hphase, .turn hvalid hticket hreduce hrespond⟩
  | operationCompleted ticket =>
    simp only [handleOperationCompleted]
    split
    · rename_i expected htransaction
      split
      · exact .rejected
      rename_i hticket
      obtain rfl : ticket = expected := not_not.mp hticket
      split
      · exact .rejected
      split
      · rename_i hactive
        exact .unpaired (.inl hactive)
      · rename_i hactive
        exact ⟨hphase, .completed htransaction hactive⟩
    · exact .rejected
  | retainedObservationsDrained ticket =>
    simp only [handleObservationsDrained]
    split
    · rename_i expected htransaction
      split
      · exact .rejected
      rename_i hticket
      obtain rfl : ticket = expected := not_not.mp hticket
      split
      · rename_i hactive
        exact .unpaired (.inl hactive)
      · rename_i hactive
        exact ⟨hphase, .drained htransaction hactive⟩
    · exact .rejected
  | disconnected => exact .rejected

theorem handled_of_ok (h : s.handleBackendEvent event = (.ok update, s')) :
    s.Serving ∧ Handled s event update s' :=
  (h ▸ s.handleBackendEvent_spec event : EventSpec s event (.ok update, s'))

/-! ## Steps -/

/-- What the calls other than backend events return and do, unless a service quantum
fails. -/
inductive Acts (s : Session B) : Option SessionUpdate → Session B → Prop
  | owned {outcome : Option SessionUpdate} {s' : Session B} (h : Owned s outcome s') :
      Acts s outcome s'
  | moves (backend : B) : Acts s (some .unchanged) { s with backend := backend }
  | attempts (backend : B) (hphase : s.phase = .shuttingDown) :
      Acts s none { s with exitAttempted := true, backend := backend }
  | completes (hphase : s.phase = .exiting) :
      Acts s (some .unchanged) { s with phase := .exitComplete }

/-- What a call returns and does. -/
inductive Step (s : Session B) : Call B → Option SessionUpdate → Session B → Prop
  | acts {call : Call B} {outcome : Option SessionUpdate} {s' : Session B}
      (hcall : ∀ event, call ≠ .backendEvent event) (h : Acts s outcome s') : Step s call outcome s'
  | drops {ready : BackendReady} {now : ℕ} (backend : B) :
      Step s (.serviceBackend ready now) none
        { s with backend := backend }.abandonPrivateTransaction
  | handles {event : BackendEvent} {update : SessionUpdate} {s' : Session B} (hs : s.Serving)
      (h : Handled s event update s') : Step s (.backendEvent event) (some update) s'
  | fails {event : BackendEvent} {s' : Session B} (h : Failed s event s') :
      Step s (.backendEvent event) none s'

theorem step_spec (s : Session B) (call : Call B) : Step s call (s.outcome call) (s.step call) := by
  have howned (c : OwnerCall) (hexit : c ≠ .beginExitSession) :
      Acts s (s.outcome c.call) (s.step c.call) := .owned (s.owned_call c hexit)
  cases call with
  | backendMoves backend => exact .acts (by simp) (.moves backend)
  | ledgerAction action => exact .acts (by simp) (howned (.ledgerAction action) (by simp))
  | requestCloseFocused => exact .acts (by simp) (howned .requestCloseFocused (by simp))
  | requestSpawn argv => exact .acts (by simp) (howned (.requestSpawn argv) (by simp))
  | toggleWhichkey => exact .acts (by simp) (howned .toggleWhichkey (by simp))
  | updateModules modules => exact .acts (by simp) (howned (.updateModules modules) (by simp))
  | fireKeyRepeat => exact .acts (by simp) (howned .fireKeyRepeat (by simp))
  | beginDirectQuit => exact .acts (by simp) (howned .beginDirectQuit (by simp))
  | beginShutdown => exact .acts (by simp) (howned .beginShutdown (by simp))
  | backendEvent event =>
    have hspec := s.handleBackendEvent_spec event
    cases hresult : s.handleBackendEvent event with
    | mk result =>
      rw [hresult] at hspec
      simp only [outcome, step, hresult]
      cases result with
      | ok => exact .handles hspec.1 hspec.2
      | error => exact .fails hspec
  | serviceBackend =>
    simp only [outcome, step, serviceBackend]
    split
    · exact .acts (by simp) (.moves _)
    · exact .drops _
  | beginExitSession =>
    refine .acts (by simp) ?_
    cases hresult : s.beginExitSession with
    | mk result =>
      simp only [outcome, step, hresult]
      cases result with
      | ok => exact .owned (owned_beginExitSession hresult)
      | error =>
        unfold beginExitSession at hresult
        split at hresult
        · cases hresult
          exact .owned (.quiet s.settles_refused)
        rename_i hphase
        simp only at hresult
        split at hresult
        · cases hresult
          exact .attempts _ (by by_contra hne; exact hphase (.inl hne))
        · cases hresult
  | completeExpectedExit =>
    refine .acts (by simp) ?_
    simp only [outcome, step, completeExpectedExit]
    split
    · exact .owned (.quiet s.settles_refused)
    · rename_i hphase
      exact .completes (not_not.mp hphase)

end Session

end Realm
