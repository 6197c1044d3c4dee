import Realm.Lib.Rounding
import Realm.Session.Snapshot

/-!
# The state of a session

The session owns the ledger and everything visible about it.  Changes that need
the compositor are staged in an active transaction: a working copy of the
authority (ledger, windows, identities, modes) that is installed in one step
when the transaction is finalized.  This file has the state, the conversions
between committed fields and authority, and publication; panicking branches of
the source that its invariants exclude are noted where they occur.
-/

namespace Realm

def f32 : ℚ → ℚ := FloatRound.binary32.round

/-- Position of the session relative to replay, service and exit. -/
inductive SessionLifecyclePhase where
  | initialReplay
  | finalizingReplay
  | live
  | quitPending
  | shuttingDown
  | exiting
  | exitComplete
deriving DecidableEq

inductive SessionLifecycleOperation where
  | beginDirectQuit
  | beginExitSession
  | serviceAfterExitComplete
deriving DecidableEq

/-- What is kept about a window beside its place in the ledger. -/
structure WindowMetadata where
  appId : String
  title : String
deriving DecidableEq

inductive RepeatTimerDirective where
  | preserve
  | arm (delayMs intervalMs : ℕ)
  | disarm
deriving DecidableEq

inductive QuitAfter where
  | noRequester
  | originalAction (ticket : BackendTicket)
  | currentControlRequest
deriving DecidableEq

inductive SessionEffect where
  | spawn (argv : List String)
  | terminal
  | launcher
  | reloadTheme
  | quitPending (after : QuitAfter)
deriving DecidableEq

inductive SessionEventError where
  | backend (error : BackendError)
  | backendContract (error : BackendContractError)
  | windowIdExhausted
  | backendTicketExhausted
  | repeatedInitialReplayComplete
  | unexpectedInitialReplayEvent (event : BackendPolicyEvent)
  | invalidLifecycleOperation (operation : SessionLifecycleOperation)
      (phase : SessionLifecyclePhase)
deriving DecidableEq

inductive SessionActionError where
  | notReady
  | invalidSpawnCommand
  | backendTicketExhausted
  | backend (error : BackendError)
deriving DecidableEq

structure ActionCompletion where
  ticket : BackendTicket
  result : Except SessionActionError Unit
deriving DecidableEq

/-- The observable result of one session transition. -/
structure SessionUpdate where
  repeatTimer : RepeatTimerDirective := .preserve
  persistence : Option SessionSnapshotV1 := none
  state : Option RealmState := none
  pendingAction : Option BackendTicket := none
  actionCompletion : Option ActionCompletion := none
  effects : List SessionEffect := []
deriving DecidableEq

def SessionUpdate.unchanged : SessionUpdate := {}

/-- Everything a transaction works on. -/
structure AuthorityState where
  ledger : Ledger
  windows : Map WinId WindowMetadata
  backendIds : Map BackendWindowId WinId
  boundBackendIds : Finset BackendWindowId
  nextWinId : ℕ
  workarea : Option Workarea
  exclusiveFocus : Bool
  effectiveFocus : Option BackendWindowId
  mode : Mode
  chordEcho : String
  whichkey : Bool
  grimoire : Bool
  modules : List Module
  activeModifiers : List BackendModifier
  heldBindings : Finset BackendBindingId

structure ActiveTransaction where
  committed : AuthorityState
  visible : RealmState
  lastCommittedCleanProjection : List Placement
  working : AuthorityState
  mostRecentPrivateProjection : List Placement
  originalActionResult : Option (BackendTicket × Except SessionActionError Unit)
  response : BackendPolicyResponse
  stagedEffects : List SessionEffect
  closeTarget : Option WinId
  repeatCandidate : Option BackendBindingId
  repeatTimer : RepeatTimerDirective
  projectionRequired : Bool
  projectionSubmitted : Bool
  bindingChanged : Bool
  bootstrap : Bool
  quitStaged : Bool

inductive TransactionSubstate where
  | idle
  | awaitingExternalTurn (ticket : BackendTicket)
  | awaitingInternalTurn (ticket : BackendTicket)
  | inFlight (ticket : BackendTicket)
  | awaitingDrain (ticket : BackendTicket)
deriving DecidableEq

/-- The owner of the ledger and of the visible state. -/
structure Session (B : Type) where
  backend : B
  ledger : Ledger
  workarea : Workarea
  windows : Map WinId WindowMetadata
  backendIds : Map BackendWindowId WinId
  nextWinId : ℕ
  lastProjection : List Placement
  state : RealmState
  phase : SessionLifecyclePhase
  bindings : Map BackendBindingId Binding
  bindingOrder : List BackendBindingId
  modifierLabel : String
  bindingState : BackendBindingState
  boundBackendIds : Finset BackendWindowId
  workareaKnown : Bool
  exclusiveFocus : Bool
  effectiveFocus : Option BackendWindowId
  mode : Mode
  chordEcho : String
  whichkey : Bool
  grimoire : Bool
  modules : List Module
  activeModifiers : List BackendModifier
  heldBindings : Finset BackendBindingId
  repeatTarget : Option BackendBindingId
  transaction : TransactionSubstate
  active : Option ActiveTransaction
  lastBackendTicket : ℕ
  lastPolicyTurn : Option BackendPolicyTurnId
  publishedLedger : Ledger
  publishedWindows : Map WinId WindowMetadata
  exitAttempted : Bool

namespace Session

variable {B : Type}

def hasActiveBackendTransaction (s : Session B) : Bool := s.transaction ≠ .idle

def snapshotBindings (s : Session B) : List SnapshotBinding :=
  (s.backendIds.entries.map fun e => ⟨e.2, e.1⟩).insertionSort fun a b => a.winId ≤ b.winId

/-- The snapshot construction of a live session; the source panics on an error. -/
def snapshotResult (s : Session B) : Except SessionSnapshotError SessionSnapshotV1 :=
  SessionSnapshotV1.new s.ledger s.snapshotBindings s.nextWinId

def snapshot (s : Session B) : Option SessionSnapshotV1 :=
  if s.phase = .live then s.snapshotResult.toOption else none

def currentAuthority (s : Session B) : AuthorityState where
  ledger := s.ledger
  windows := s.windows
  backendIds := s.backendIds
  boundBackendIds := s.boundBackendIds
  nextWinId := s.nextWinId
  workarea := if s.workareaKnown then some s.workarea else none
  exclusiveFocus := s.exclusiveFocus
  effectiveFocus := s.effectiveFocus
  mode := s.mode
  chordEcho := s.chordEcho
  whichkey := s.state.whichkey
  grimoire := s.state.grimoire
  modules := s.state.modules
  activeModifiers := s.activeModifiers
  heldBindings := s.heldBindings

def installAuthority (s : Session B) (a : AuthorityState) : Session B :=
  { s with
    ledger := a.ledger
    windows := a.windows
    backendIds := a.backendIds
    boundBackendIds := a.boundBackendIds
    nextWinId := a.nextWinId
    workarea := a.workarea.getD s.workarea
    workareaKnown := a.workarea.isSome
    exclusiveFocus := a.exclusiveFocus
    effectiveFocus := a.effectiveFocus
    mode := a.mode
    chordEcho := a.chordEcho
    heldBindings := a.heldBindings
    whichkey := a.whichkey
    grimoire := a.grimoire
    modules := a.modules
    activeModifiers := a.activeModifiers }

def newActiveTransaction (s : Session B) : ActiveTransaction where
  committed := s.currentAuthority
  visible := s.state
  lastCommittedCleanProjection := s.lastProjection
  working := s.currentAuthority
  mostRecentPrivateProjection := s.lastProjection
  originalActionResult := none
  response := { projection := none, closes := [], bindings := s.bindingState }
  stagedEffects := []
  closeTarget := none
  repeatCandidate := none
  repeatTimer := .preserve
  projectionRequired := false
  projectionSubmitted := false
  bindingChanged := false
  bootstrap := false
  quitStaged := false

def allocateTicket (s : Session B) : Option (BackendTicket × Session B) :=
  if s.lastBackendTicket + 1 > u64Max then none
  else (NonZeroId.new (s.lastBackendTicket + 1)).map fun ticket =>
    (ticket, { s with lastBackendTicket := s.lastBackendTicket + 1 })

def abandonPrivateTransaction (s : Session B) : Session B :=
  { s with active := none, transaction := .idle }

def enabledBindings (s : Session B) (mode : Mode) : List BackendBindingId :=
  s.bindingOrder.filter fun id => (s.bindings.lookup id).any fun b => b.mode = mode

def desiredBindingState (s : Session B) (a : AuthorityState) (edge : BackendNextKeyEdge) :
    BackendBindingState :=
  if a.workarea = none ∨ s.phase = .initialReplay then ⟨[], [], edge⟩
  else ⟨s.enabledBindings a.mode, [.super], edge⟩

def pendingChordEcho (s : Session B) : String := s.modifierLabel ++ "+ ▸ awaiting chord…"

/-- The projection of an authority; an exclusive surface takes the focus from
every window. -/
def projectAuthority (a : AuthorityState) : List Placement :=
  match a.workarea with
  | none => []
  | some workarea =>
    let projection := project f32 a.ledger.activeOrbit workarea (TriptychParams.default f32)
    if a.exclusiveFocus then projection.map fun p => { p with focused := false } else projection

def policyVisibleState (s : Session B) (revision : ℕ) : RealmState where
  revision := revision
  orbits := s.ledger.orbits.map fun o =>
    { number := o.id.human
      rune := o.id.rune.toString
      display :=
        if o.id = s.ledger.active then .active
        else if o.occupied then .occupied
        else .empty
      windows := o.windows.length }
  layout := s.ledger.activeOrbit.layout
  mode := s.mode
  focusedTitle :=
    if s.exclusiveFocus then ""
    else ((s.ledger.focused.bind fun w => s.windows.lookup w).map (·.title)).getD ""
  chordEcho := s.chordEcho
  whichkey := s.whichkey
  grimoire := s.grimoire
  modules := s.modules

def publishCurrentState (s : Session B) (forceFirst : Bool) : Option RealmState × Session B :=
  let candidate := s.policyVisibleState s.state.revision
  let changed := forceFirst || !s.state.rendersSameAs candidate
  let s := { s with publishedLedger := s.ledger, publishedWindows := s.windows }
  if !changed then (none, s)
  else
    let revision := if forceFirst then 1 else min (s.state.revision + 1) u64Max
    let candidate := { candidate with revision := revision }
    (some candidate, { s with state := candidate })

end Session

def changedSnapshot (before after : Option SessionSnapshotV1) : Option SessionSnapshotV1 :=
  if before ≠ after then after else none

def jsonContentCharLen (c : Char) : ℕ :=
  if c.val ∈ [0x22, 0x5c, 0x08, 0x09, 0x0a, 0x0c, 0x0d] then 2
  else if c.val ≤ 0x1f then 6
  else c.utf8Size

/-- The longest prefix of the characters that leaves room for an ellipsis. -/
def visiblePrefix (cap : ℕ) : List Char → ℕ → List Char
  | [], _ => []
  | c :: cs, used =>
    let width := jsonContentCharLen c
    if used + width + '…'.utf8Size > cap then []
    else c :: visiblePrefix cap cs (used + width)

/-- Cut a text to a visible length, marking the cut. -/
def normalizeVisible (source : String) (cap : ℕ) : String :=
  if (source.toList.map jsonContentCharLen).sum ≤ cap then source
  else String.ofList (visiblePrefix cap source.toList 0 ++ ['…'])

end Realm
