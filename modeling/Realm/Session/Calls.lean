import Realm.Session.Turn

/-!
# The public calls of a session

The calls of a session and the transitions they make.  Each call returns its
result next to the new session.  A run is any interleaving of calls; the backend
may change its state by itself between two calls.
-/

namespace Realm.Session

variable {B : Type} [WmBackend B] {s : Session B}

/-! ## Connecting -/

def bindingSpec (id : BackendBindingId) (b : Binding) : BackendBindingSpec where
  id := id
  keysym := b.key
  modifiers := if b.mode = .nav then [.super] else []

def connect (backend : B) (snapshot : Option ValidatedSnapshot) (keymap : Keymap) :
    BackendResult (Session B) :=
  if keymap.bindings.length > maxConfiguredBindings then
    .error (.capacity .configuredBindings maxConfiguredBindings)
  else
    match WmBackend.connect backend with
    | (.error error, _) => .error error
    | (.ok (), backend) =>
      -- Binding ids count from one; the capacity keeps them in range.
      let numbered := (keymap.bindings.zipIdx 1).filterMap fun (b, n) =>
        (NonZeroId.new n).map fun id => (id, b)
      match WmBackend.configureBindings backend
          (numbered.map fun (id, b) => bindingSpec id b) with
      | (.error error, _) => .error error
      | (.ok (), backend) =>
        .ok {
          backend := backend
          ledger := (snapshot.map (·.snapshot.ledger)).getD Ledger.new
          workarea := Workarea.new 0 0 0 0
          windows := ∅
          backendIds := ((snapshot.map (·.snapshot.bindings)).getD []).foldl
            (fun m b => m.insert b.backendId b.winId) ∅
          nextWinId := (snapshot.map (·.snapshot.nextWinId)).getD 0
          lastProjection := []
          state := RealmState.default
          phase := .initialReplay
          bindings := numbered.foldl (fun m (id, b) => m.insert id b) ∅
          bindingOrder := numbered.map (·.1)
          modifierLabel := keymap.modifier
          bindingState := ⟨[], [], .preserve⟩
          boundBackendIds := ∅
          workareaKnown := false
          exclusiveFocus := false
          effectiveFocus := none
          mode := .nav
          chordEcho := ""
          whichkey := RealmState.default.whichkey
          grimoire := RealmState.default.grimoire
          modules := []
          activeModifiers := []
          heldBindings := ∅
          repeatTarget := none
          transaction := .idle
          active := none
          lastBackendTicket := 0
          lastPolicyTurn := none
          publishedLedger := Ledger.new
          publishedWindows := ∅
          exitAttempted := false }

/-! ## Finalizing a transaction -/

/-- The repeat target and timer after a transaction. -/
def settleRepeat (s : Session B) (active : ActiveTransaction) :
    Option BackendBindingId × RepeatTimerDirective :=
  let (target, timer) : Option BackendBindingId × RepeatTimerDirective :=
    match active.repeatCandidate with
    | none => (s.repeatTarget, active.repeatTimer)
    | some candidate =>
      if candidate ∈ s.heldBindings ∧ candidate ∈ s.bindingState.enabled ∧
          (s.bindings.lookup candidate).any fun b : Binding => b.repeatable then
        (some candidate, .arm keyRepeatDelayMs (1000 / keyRepeatRateHz))
      else (none, .disarm)
  let (target, timer) : Option BackendBindingId × RepeatTimerDirective :=
    if target.any fun t => t ∉ s.heldBindings || t ∉ s.bindingState.enabled then (none, .disarm)
    else (target, timer)
  if active.quitStaged then (none, .disarm) else (target, timer)

/-- The transaction takes the session live: replay is over, a workarea is known
and a projection was submitted. -/
def enteringLive (s : Session B) (active : ActiveTransaction) : Bool :=
  s.phase = .finalizingReplay && active.working.workarea.isSome && active.projectionSubmitted

/-- Install the working authority of a transaction with its projection, bindings
and phase. -/
def commitActive (s : Session B) (active : ActiveTransaction) : Session B :=
  { s.installAuthority active.working with
    lastProjection :=
      if active.projectionSubmitted then active.mostRecentPrivateProjection
      else s.lastProjection
    bindingState := { active.response.bindings with nextKeyEdge := .preserve }
    phase :=
      if s.enteringLive active then .live
      else if active.bootstrap then .finalizingReplay
      else s.phase }

def publishIfLive (s : Session B) (forceFirst : Bool) : Option RealmState × Session B :=
  if s.phase = .live then s.publishCurrentState forceFirst else (none, s)

/-- Commit a transaction, publish it and settle what waited for it. -/
def finalizeActive (s : Session B) (active : ActiveTransaction) : SessionUpdate × Session B :=
  let committed := s.commitActive active
  let settled := committed.settleRepeat active
  let published :=
    { committed with repeatTarget := settled.1 }.publishIfLive (s.enteringLive active)
  ({ repeatTimer := settled.2
     persistence := changedSnapshot s.snapshot published.2.snapshot
     state := published.1
     pendingAction := none
     actionCompletion := active.originalActionResult.map fun (ticket, result) => ⟨ticket, result⟩
     effects := active.stagedEffects },
   { published.2 with
     phase := if active.quitStaged then .quitPending else published.2.phase
     active := none
     transaction := .idle })

/-! ## Backend events -/

/-- The response to the turn being worked on. -/
def deriveResponse (s : Session B) (active : ActiveTransaction) : ActiveTransaction :=
  let projection := projectAuthority active.working
  { active with
    mostRecentPrivateProjection := projection
    response := { active.response with
      projection :=
        if active.projectionRequired ∧ active.working.workarea.isSome then some projection
        else active.response.projection
      bindings := s.desiredBindingState active.working active.response.bindings.nextKeyEdge } }

/-- The transaction a turn starts from: the response of the last turn is dropped
and a requested close is repeated while its window exists. -/
def openTurn (s : Session B) : ActiveTransaction :=
  let active := s.active.getD s.newActiveTransaction
  let carries := match s.transaction with
    | .awaitingExternalTurn _ | .awaitingInternalTurn _ => true
    | _ => false
  let closes := match active.closeTarget with
    | some close => if close ∈ active.working.windows then [close] else []
    | none => []
  { active with
    response := {
      projection := none
      closes := closes
      bindings := { active.response.bindings with nextKeyEdge := .preserve } }
    projectionRequired := carries && active.projectionRequired
    bindingChanged := false }

/-- The ticket a response to the current turn carries, and the last ticket
allocated then. -/
def responseTicket (s : Session B) : Except SessionEventError (BackendTicket × ℕ) :=
  match s.transaction with
  | .idle | .awaitingDrain _ =>
    match s.allocateTicket with
    | some (ticket, s) => .ok (ticket, s.lastBackendTicket)
    | none => .error .backendTicketExhausted
  | .awaitingExternalTurn ticket | .awaitingInternalTurn ticket =>
    .ok (ticket, s.lastBackendTicket)
  | .inFlight _ => .error (.backendContract .invalidPolicySequence)

def reduceTurn (s : Session B) (events : List BackendPolicyEvent) :
    Except SessionEventError ActiveTransaction × B :=
  if s.phase = .initialReplay then reduceInitialReplay s.backend s.openTurn events
  else s.reducePolicyEvents s.backend s.openTurn events

def settleSubmission (s : Session B) (ticket : BackendTicket) (active : ActiveTransaction)
    (submission : BackendSubmission) : SessionUpdate × Session B :=
  let active := { active with
    closeTarget := none
    projectionSubmitted := active.projectionSubmitted || active.response.projection.isSome }
  match submission with
  | .complete => s.finalizeActive active
  | .pending =>
    (SessionUpdate.unchanged, { s with
      phase := if active.bootstrap then .finalizingReplay else s.phase
      active := some active
      transaction := .inFlight ticket })

def handlePolicyTurn (s : Session B) (turn : BackendPolicyTurn) :
    Except SessionEventError SessionUpdate × Session B :=
  match s.validatePolicyTurn turn with
  | .error error => (.error error, s.abandonPrivateTransaction)
  | .ok () =>
    match s.responseTicket with
    | .error error =>
      -- Without a transaction there is nothing to abandon.
      (.error error, if s.transaction = .idle then s else s.abandonPrivateTransaction)
    | .ok (ticket, lastBackendTicket) =>
      match s.reduceTurn turn.events with
      | (.error error, backend) =>
        (.error error,
          { s with backend := backend, lastBackendTicket := lastBackendTicket
            }.abandonPrivateTransaction)
      | (.ok active, backend) =>
        let active := s.deriveResponse active
        match WmBackend.respondPolicyTurn backend turn.id ticket active.response with
        | (.error error, backend) =>
          (.error (.backend error),
            { s with
              backend := backend
              lastBackendTicket := lastBackendTicket
              lastPolicyTurn := some turn.id }.abandonPrivateTransaction)
        | (.ok submission, backend) =>
          let settled :=
            { s with
              backend := backend
              lastBackendTicket := lastBackendTicket
              lastPolicyTurn := some turn.id }.settleSubmission ticket active submission
          (.ok settled.1, settled.2)

def handleOperationCompleted (s : Session B) (ticket : BackendTicket)
    (result : BackendResult Unit) : Except SessionEventError SessionUpdate × Session B :=
  match s.transaction with
  | .inFlight expected =>
    if ticket ≠ expected then
      (.error (.backendContract .invalidPolicySequence), s.abandonPrivateTransaction)
    else
      match result with
      | .error error => (.error (.backend error), s.abandonPrivateTransaction)
      | .ok () =>
        match s.active with
        | none => (.error (.backendContract .invalidPolicySequence), s)
        | some _ => (.ok SessionUpdate.unchanged, { s with transaction := .awaitingDrain ticket })
  | _ => (.error (.backendContract .invalidPolicySequence), s.abandonPrivateTransaction)

def handleObservationsDrained (s : Session B) (ticket : BackendTicket) :
    Except SessionEventError SessionUpdate × Session B :=
  match s.transaction with
  | .awaitingDrain expected =>
    if ticket ≠ expected then
      (.error (.backendContract .invalidPolicySequence), s.abandonPrivateTransaction)
    else
      match s.active with
      | none => (.error (.backendContract .invalidPolicySequence), s)
      | some active =>
        let finalized := { s with active := none }.finalizeActive active
        (.ok finalized.1, finalized.2)
  | _ => (.error (.backendContract .invalidPolicySequence), s.abandonPrivateTransaction)

def handleBackendEvent (s : Session B) (event : BackendEvent) :
    Except SessionEventError SessionUpdate × Session B :=
  if s.phase ∈ [SessionLifecyclePhase.quitPending, .shuttingDown, .exiting, .exitComplete] then
    (.error (.backendContract .invalidPolicySequence), s.abandonPrivateTransaction)
  else
    match event with
    | .policyTurn turn => s.handlePolicyTurn turn
    | .operationCompleted ticket result => s.handleOperationCompleted ticket result
    | .retainedObservationsDrained ticket => s.handleObservationsDrained ticket
    | .disconnected => (.error (.backend .disconnected), s.abandonPrivateTransaction)

def serviceBackend (s : Session B) (ready : BackendReady) (now : ℕ) :
    Except SessionEventError (Option BackendEvent) × Session B :=
  match WmBackend.service s.backend ready now with
  | (.ok event, backend) => (.ok event, { s with backend := backend })
  | (.error error, backend) =>
    (.error (.backend error), { s with backend := backend }.abandonPrivateTransaction)

/-! ## Lifecycle -/

def beginDirectQuit (s : Session B) : Except SessionEventError SessionUpdate × Session B :=
  match s.phase with
  | .quitPending => (.ok SessionUpdate.unchanged, s)
  | .live =>
    (.ok { SessionUpdate.unchanged with
      repeatTimer := .disarm
      effects := [.quitPending .currentControlRequest] },
      { s.abandonPrivateTransaction with repeatTarget := none, phase := .quitPending })
  | phase => (.error (.invalidLifecycleOperation .beginDirectQuit phase), s)

def beginShutdown (s : Session B) : SessionUpdate × Session B :=
  match s.phase with
  | .shuttingDown | .exiting | .exitComplete => (SessionUpdate.unchanged, s)
  | .initialReplay | .finalizingReplay | .live | .quitPending =>
    ({ SessionUpdate.unchanged with repeatTimer := .disarm },
      { s.abandonPrivateTransaction with repeatTarget := none, phase := .shuttingDown })

def beginExitSession (s : Session B) : Except SessionEventError Unit × Session B :=
  if s.phase ≠ .shuttingDown ∨ s.exitAttempted = true then
    (.error (.invalidLifecycleOperation .beginExitSession s.phase), s)
  else
    let s := { s with exitAttempted := true }
    match WmBackend.beginExitSession s.backend
        ⟨s.bindingState.enabled, s.bindingState.watchedModifiers⟩ with
    | (.error error, backend) => (.error (.backend error), { s with backend := backend })
    | (.ok (), backend) => (.ok (), { s with backend := backend, phase := .exiting })

def completeExpectedExit (s : Session B) : Except SessionEventError Unit × Session B :=
  if s.phase ≠ .exiting then
    (.error (.invalidLifecycleOperation .serviceAfterExitComplete s.phase), s)
  else (.ok (), { s with phase := .exitComplete })

/-! ## Actions -/

def ready (s : Session B) : Bool := s.phase = .live && !s.hasActiveBackendTransaction

def admitTransaction (s : Session B) (active : ActiveTransaction)
    (transaction : TransactionSubstate) : BackendResult Unit × Session B :=
  match WmBackend.requestPolicyTurn s.backend with
  | (.ok (), backend) =>
    (.ok (), { s with backend := backend, active := some active, transaction := transaction })
  | (.error error, backend) =>
    (.error error, { s with backend := backend }.abandonPrivateTransaction)

/-- Install an authority that changes no projection, and publish it at once. -/
def commitAtOnce (s : Session B) (active : ActiveTransaction) : SessionUpdate × Session B :=
  let published := (s.installAuthority active.working).publishCurrentState false
  ({ SessionUpdate.unchanged with
    persistence := changedSnapshot s.snapshot published.2.snapshot
    state := published.1 }, published.2)

def admitAction (s : Session B) (active : ActiveTransaction) :
    Except SessionActionError SessionUpdate × Session B :=
  match s.allocateTicket with
  | none => (.error .backendTicketExhausted, s)
  | some (ticket, s) =>
    match s.admitTransaction { active with originalActionResult := some (ticket, .ok ()) }
        (.awaitingExternalTurn ticket) with
    | (.ok (), s) => (.ok { SessionUpdate.unchanged with pendingAction := some ticket }, s)
    | (.error error, s) => (.error (.backend error), s)

def stageLedgerUpdate (s : Session B) (update : Ledger → Ledger) :
    Except SessionActionError SessionUpdate × Session B :=
  if !s.ready then (.error .notReady, s)
  else
    let active := s.newActiveTransaction
    let working := { active.working with ledger := update active.working.ledger }
    if working.ledger = active.committed.ledger then (.ok SessionUpdate.unchanged, s)
    else
      let projection := projectAuthority working
      let active := { active with
        working := working
        mostRecentPrivateProjection := projection
        projectionRequired := decide (projection ≠ active.lastCommittedCleanProjection) }
      if !active.projectionRequired then
        (.ok (s.commitAtOnce active).1, (s.commitAtOnce active).2)
      else s.admitAction active

def requestCloseFocused (s : Session B) : Except SessionActionError SessionUpdate × Session B :=
  if !s.ready then (.error .notReady, s)
  else
    match s.ledger.focused with
    | none => (.ok SessionUpdate.unchanged, s)
    | some win => s.admitAction { s.newActiveTransaction with closeTarget := some win }

def requestSpawn (s : Session B) (argv : List String) :
    Except SessionActionError SessionUpdate × Session B :=
  if !s.ready then (.error .notReady, s)
  else if argv.isEmpty ∨ argv.head? = some "" then (.error .invalidSpawnCommand, s)
  else (.ok { SessionUpdate.unchanged with effects := [.spawn argv] }, s)

def toggleWhichkey (s : Session B) : SessionUpdate × Session B :=
  if !s.ready then (SessionUpdate.unchanged, s)
  else
    let changed := { s.state with
      revision := min (s.state.revision + 1) u64Max
      whichkey := !s.state.whichkey }
    ({ SessionUpdate.unchanged with state := some changed },
      { s with whichkey := changed.whichkey, state := changed })

def updateModules (s : Session B) (modules : List Module) : SessionUpdate × Session B :=
  if !s.ready then (SessionUpdate.unchanged, s)
  else if s.state.modules = modules then (SessionUpdate.unchanged, s)
  else
    let changed := { s.state with
      revision := min (s.state.revision + 1) u64Max
      modules := modules }
    ({ SessionUpdate.unchanged with state := some changed },
      { s with modules := modules, state := changed })

def fireKeyRepeat (s : Session B) : Except SessionEventError SessionUpdate × Session B :=
  if !s.ready then (.ok SessionUpdate.unchanged, s)
  else
    match s.repeatTarget with
    | none => (.ok SessionUpdate.unchanged, s)
    | some target =>
      match s.bindings.lookup target with
      | none => (.ok SessionUpdate.unchanged, s)
      | some binding =>
        if !binding.repeatable || target ∉ s.heldBindings || target ∉ s.bindingState.enabled then
          (.ok SessionUpdate.unchanged, s)
        else
          let active := s.applyBindingAction s.newActiveTransaction target binding
          let active := { active with
            repeatCandidate := none
            mostRecentPrivateProjection := projectAuthority active.working }
          if !active.projectionRequired && !active.bindingChanged &&
              active.response.closes.isEmpty then
            (.ok { (s.commitAtOnce active).1 with effects := active.stagedEffects },
              (s.commitAtOnce active).2)
          else
            match s.allocateTicket with
            | none => (.error .backendTicketExhausted, s)
            | some (ticket, s) =>
              match s.admitTransaction active (.awaitingInternalTurn ticket) with
              | (.ok (), s) => (.ok SessionUpdate.unchanged, s)
              | (.error error, s) => (.error (.backend error), s)

/-! ## Runs -/

/-- The ledger actions a caller can request. -/
inductive LedgerAction where
  | switchOrbit (orbit : OrbitId)
  | setLayout (layout : Layout)
  | focusStep (dir : Dir)
  | swap (dir : Dir)
  | moveFocusedToOrbit (orbit : OrbitId)
  | toggleStow
  | toggleFullscreen
  | undo

def LedgerAction.update : LedgerAction → Ledger → Ledger
  | .switchOrbit orbit, l => l.switchOrbit orbit
  | .setLayout layout, l => l.setLayout layout
  | .focusStep dir, l => l.focusStep dir
  | .swap dir, l => (l.swap dir).1
  | .moveFocusedToOrbit orbit, l => (l.moveToOrbit orbit).1
  | .toggleStow, l => l.toggleStow.1
  | .toggleFullscreen, l => l.toggleFullscreen.1
  | .undo, l => l.undo.1

/-- The public calls of a session, and a move the backend makes by itself. -/
inductive Call (B : Type) where
  | backendMoves (backend : B)
  | ledgerAction (action : LedgerAction)
  | requestCloseFocused
  | requestSpawn (argv : List String)
  | toggleWhichkey
  | updateModules (modules : List Module)
  | backendEvent (event : BackendEvent)
  | serviceBackend (ready : BackendReady) (now : ℕ)
  | fireKeyRepeat
  | beginDirectQuit
  | beginShutdown
  | beginExitSession
  | completeExpectedExit

def step (s : Session B) : Call B → Session B
  | .backendMoves backend => { s with backend := backend }
  | .ledgerAction action => (s.stageLedgerUpdate action.update).2
  | .requestCloseFocused => s.requestCloseFocused.2
  | .requestSpawn argv => (s.requestSpawn argv).2
  | .toggleWhichkey => s.toggleWhichkey.2
  | .updateModules modules => (s.updateModules modules).2
  | .backendEvent event => (s.handleBackendEvent event).2
  | .serviceBackend ready now => (s.serviceBackend ready now).2
  | .fireKeyRepeat => s.fireKeyRepeat.2
  | .beginDirectQuit => s.beginDirectQuit.2
  | .beginShutdown => s.beginShutdown.2
  | .beginExitSession => s.beginExitSession.2
  | .completeExpectedExit => s.completeExpectedExit.2

/-- The sessions that a run of calls reaches from a connection. -/
inductive Reachable : Session B → Prop
  | connect {backend : B} {snapshot : Option ValidatedSnapshot} {keymap : Keymap}
      {s : Session B} (h : connect backend snapshot keymap = .ok s) : Reachable s
  | step {s : Session B} (h : Reachable s) (call : Call B) : Reachable (s.step call)

theorem Reachable.foldl (h : Reachable s) (calls : List (Call B)) :
    Reachable (calls.foldl Session.step s) := by
  induction calls generalizing s with
  | nil => exact h
  | cons call calls ih => exact ih (h.step call)

theorem Reachable.invariant {P : Session B → Prop}
    (hconnect : ∀ {backend snapshot keymap s},
      Session.connect (B := B) backend snapshot keymap = .ok s → P s)
    (hstep : ∀ s call, P s → P (s.step call)) (h : Reachable s) : P s := by
  induction h with
  | connect h => exact hconnect h
  | step _ call ih => exact hstep _ call ih

end Realm.Session
