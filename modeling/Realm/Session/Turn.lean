import Realm.Session.State

/-!
# Policy turns

A backend reports facts in policy turns.  The session validates a turn against
the authority it works on, reduces its events into the working authority of the
active transaction, derives a response and submits it.  A transaction is
finalized when the backend completes the response at once, or when it reports
that every retained observation has been drained.
-/

namespace Realm

def capacityError (resource : BackendCapacityResource) (limit : ℕ) : SessionEventError :=
  .backend (.capacity resource limit)

/-- At most four modifiers, strictly ascending. -/
def canonicalModifiers (modifiers : List BackendModifier) : Bool :=
  modifiers.length ≤ 4 && (modifiers.zip modifiers.tail).all fun (a, b) => a.rank < b.rank

def actionHasEffect : Action → Bool
  | .spawn _ | .terminal | .launcher | .reloadTheme | .quit => true
  | _ => false

def pushUnique (values : List WinId) (value : WinId) : List WinId :=
  if value ∈ values then values else values ++ [value]

namespace Session

variable {B : Type}

/-! ## Validation -/

/-- The running totals of turn validation. -/
structure TurnCheck where
  known : Finset BackendWindowId
  live : Finset BackendWindowId
  mapped : Finset BackendWindowId
  nextWinId : ℕ
  textBytes : ℕ
  effects : ℕ
  quitSeen : Bool

/-- The replay-specific shape: opens, at most one focus and one exclusive-focus
fact. -/
def checkReplayEvents : List BackendPolicyEvent → ℕ → ℕ → Except SessionEventError Unit
  | [], _, _ => .ok ()
  | event :: events, focus, exclusive =>
    match event with
    | .windowOpened .. | .initialReplayComplete => checkReplayEvents events focus exclusive
    | .focusChanged _ =>
      if focus + 1 > 1 then .error (.backendContract .invalidPolicySequence)
      else checkReplayEvents events (focus + 1) exclusive
    | .exclusiveFocusChanged _ =>
      if exclusive + 1 > 1 then .error (.backendContract .invalidPolicySequence)
      else checkReplayEvents events focus (exclusive + 1)
    | event => .error (.unexpectedInitialReplayEvent event)

def checkEvent (s : Session B) (replay : Bool) (c : TurnCheck) (event : BackendPolicyEvent) :
    Except SessionEventError TurnCheck :=
  match event with
  | .windowOpened backendId appId title =>
    let c := { c with
      textBytes := c.textBytes + backendId.len + appId.utf8ByteSize + title.utf8ByteSize
      known := insert backendId c.known
      live := insert backendId c.live }
    if backendId ∉ c.mapped ∧ c.nextWinId = u64Max then .error .windowIdExhausted
    else
      let c :=
        if backendId ∉ c.mapped then
          { c with mapped := insert backendId c.mapped, nextWinId := c.nextWinId + 1 }
        else c
      if c.live.card > maxManagedWindows then
        .error (capacityError .managedWindows maxManagedWindows)
      else .ok c
  | .windowClosed id =>
    if id ∉ c.known then .error (.backendContract .unknownWindowReference)
    else if replay then .error (.unexpectedInitialReplayEvent event)
    else .ok { c with
      textBytes := c.textBytes + id.len
      known := c.known.erase id
      live := c.live.erase id
      mapped := c.mapped.erase id }
  | .titleChanged backendId title =>
    if replay then .error (.unexpectedInitialReplayEvent event)
    else if backendId ∉ c.known then .error (.backendContract .unknownWindowReference)
    else .ok { c with textBytes := c.textBytes + backendId.len + title.utf8ByteSize }
  | .focusChanged (some id) =>
    if id ∉ c.known then .error (.backendContract .unknownWindowReference)
    else .ok { c with textBytes := c.textBytes + id.len }
  | .focusChanged none | .exclusiveFocusChanged _ => .ok c
  | .workareaChanged _ =>
    if replay then .error (.unexpectedInitialReplayEvent event) else .ok c
  | .geometryDrifted backendId _ =>
    if replay then .error (.unexpectedInitialReplayEvent event)
    else if backendId ∉ c.known then .error (.backendContract .unknownWindowReference)
    else .ok { c with textBytes := c.textBytes + backendId.len }
  | .bindingPressed id =>
    match s.bindings.lookup id with
    | none => .error (.backendContract (.unknownBinding id))
    | some binding =>
      if s.phase ≠ .live then .error (.backendContract .invalidPolicySequence)
      else if c.quitSeen then .ok c
      else .ok { c with
        effects := if actionHasEffect binding.action then c.effects + 1 else c.effects
        quitSeen := decide (binding.action = .quit) }
  | .bindingReleased id | .bindingRepeatStopped id =>
    match s.bindings.lookup id with
    | none => .error (.backendContract (.unknownBinding id))
    | some _ =>
      if s.phase ≠ .live then .error (.backendContract .invalidPolicySequence) else .ok c
  | .unboundKeyEaten =>
    if s.phase ≠ .live then .error (.backendContract .invalidPolicySequence) else .ok c
  | .modifiersChanged old new =>
    if !canonicalModifiers old || !canonicalModifiers new then
      .error (.backendContract .nonCanonicalModifiers)
    else .ok c
  | .initialReplayComplete => .ok c

def checkEvents (s : Session B) (replay : Bool) :
    List BackendPolicyEvent → TurnCheck → Except SessionEventError TurnCheck
  | [], c => .ok c
  | event :: events, c => do
    let c ← s.checkEvent replay c event
    checkEvents s replay events c

/-- The turn id is new and the drained ticket is the one being awaited. -/
def checkSequence (s : Session B) (turn : BackendPolicyTurn) : Except SessionEventError Unit :=
  if s.lastPolicyTurn.any fun last => turn.id.raw ≤ last.raw then
    .error (.backendContract .invalidPolicySequence)
  else
    match s.transaction with
    | .idle | .awaitingExternalTurn _ | .awaitingInternalTurn _ =>
      if turn.drains = none then .ok () else .error (.backendContract .invalidPolicySequence)
    | .awaitingDrain ticket =>
      if turn.drains = some ticket then .ok ()
      else .error (.backendContract .invalidPolicySequence)
    | .inFlight _ => .error (.backendContract .invalidPolicySequence)

/-- The barrier closes the replay turn and stands in no other. -/
def checkBarrier (replay : Bool) (events : List BackendPolicyEvent) :
    Except SessionEventError Unit :=
  if replay then
    if events.count .initialReplayComplete ≠ 1 ∨
        events.getLast? ≠ some .initialReplayComplete then
      .error (.backendContract .invalidPolicySequence)
    else checkReplayEvents events 0 0
  else if .initialReplayComplete ∈ events then .error .repeatedInitialReplayComplete
  else .ok ()

def turnBase (s : Session B) : AuthorityState :=
  (s.active.map (·.working)).getD s.currentAuthority

def initialCheck (s : Session B) (replay : Bool) : TurnCheck :=
  let base := s.turnBase
  let known := if replay then ∅ else
    ((base.backendIds.entries.filter fun e =>
      e.1 ∈ base.boundBackendIds ∧ e.2 ∈ base.windows).map (·.1)).toFinset
  { known := known
    live := known
    mapped := base.backendIds.keys.toFinset
    nextWinId := base.nextWinId
    textBytes := 0
    effects := (s.active.map (·.stagedEffects.length)).getD 0
    quitSeen := (s.active.map (·.quitStaged)).getD false }

def validatePolicyTurn (s : Session B) (turn : BackendPolicyTurn) :
    Except SessionEventError Unit := do
  s.checkSequence turn
  let replay := decide (s.phase = .initialReplay)
  checkBarrier replay turn.events
  let limit := if replay then maxReplayPolicyEvents else maxPolicyEvents
  if turn.events.length > limit then .error (capacityError .policyFacts limit)
  else
    let c ← s.checkEvents replay turn.events (s.initialCheck replay)
    if c.textBytes > maxPolicyTextBytes then
      .error (capacityError .policyTextBytes maxPolicyTextBytes)
    else if c.effects > maxStagedEffects then
      .error (capacityError .policyEffects maxStagedEffects)
    else .ok ()

/-! ## Reduction of the initial replay -/

/-- A window reported by the initial replay. -/
structure ReplayWindow where
  backendId : BackendWindowId
  metadata : WindowMetadata

/-- What the replay events report. -/
structure ReplayFacts where
  replayed : List ReplayWindow := []
  effectiveFocus : Option BackendWindowId := none
  exclusiveFocus : Bool := false

def normalizedMetadata (appId title : String) : WindowMetadata where
  appId := normalizeVisible appId maxVisibleAppIdJsonBytes
  title := normalizeVisible title maxVisibleTitleJsonBytes

/-- A repeated open replaces the metadata of the first. -/
def recordReplayed (replayed : List ReplayWindow) (window : ReplayWindow) : List ReplayWindow :=
  if replayed.any fun r => r.backendId = window.backendId then
    replayed.map fun r => if r.backendId = window.backendId then window else r
  else replayed ++ [window]

def collectReplay : List BackendPolicyEvent → ReplayFacts → Except SessionEventError ReplayFacts
  | [], facts => .ok facts
  | event :: events, facts =>
    match event with
    | .windowOpened backendId appId title =>
      collectReplay events { facts with
        replayed := recordReplayed facts.replayed ⟨backendId, normalizedMetadata appId title⟩ }
    | .focusChanged focus => collectReplay events { facts with effectiveFocus := focus }
    | .exclusiveFocusChanged exclusive =>
      collectReplay events { facts with exclusiveFocus := exclusive }
    | .initialReplayComplete => collectReplay events facts
    | event => .error (.unexpectedInitialReplayEvent event)

def identityOf (a : AuthorityState) (win : WinId) : Option BackendWindowId :=
  (a.backendIds.entries.find? fun e => e.2 = win).map (·.1)

/-- Drop a persisted window that was not replayed.  The source panics when the
window has no identity, which a validated snapshot excludes. -/
def dropUnreplayed (replayed : List ReplayWindow) (a : AuthorityState) (win : WinId) :
    AuthorityState :=
  match identityOf a win with
  | none => a
  | some backendId =>
    if replayed.any fun r => r.backendId = backendId then a
    else { a with
      ledger := (a.ledger.banish win).1
      backendIds := a.backendIds.erase backendId }

/-- The window of an identity, a new one unless it is known. -/
def allocateReplayed (a : AuthorityState) (backendId : BackendWindowId) :
    WinId × AuthorityState :=
  match a.backendIds.lookup backendId with
  | some win => (win, a)
  | none =>
    let win := a.nextWinId
    (win, { a with
      nextWinId := a.nextWinId + 1
      backendIds := a.backendIds.insert backendId win
      ledger := a.ledger.summon win a.ledger.active })

variable [WmBackend B]

/-- Bind the replayed windows in order, assigning each to the backend. -/
def bindReplayed (backend : B) (a : AuthorityState) :
    List ReplayWindow → Except SessionEventError AuthorityState × B
  | [] => (.ok a, backend)
  | window :: windows =>
    let (win, a) := allocateReplayed a window.backendId
    let a := { a with windows := a.windows.insert win window.metadata }
    match WmBackend.assignWindow backend window.backendId win with
    | (.error error, backend) => (.error (.backendContract error), backend)
    | (.ok (), backend) =>
      bindReplayed backend
        { a with boundBackendIds := insert window.backendId a.boundBackendIds } windows

/-- Reconcile the persisted authority with the replayed windows. -/
def reduceInitialReplay (backend : B) (active : ActiveTransaction)
    (events : List BackendPolicyEvent) : Except SessionEventError ActiveTransaction × B :=
  match collectReplay events {} with
  | .error error => (.error error, backend)
  | .ok facts =>
    let working := active.working
    let unknown := (facts.replayed.filter fun r => r.backendId ∉ working.backendIds).length
    if unknown > u64Max - working.nextWinId then (.error .windowIdExhausted, backend)
    else
      let persisted := working.ledger.orbits.flatMap (·.windows)
      let working := persisted.foldl (dropUnreplayed facts.replayed) working
      let working := { working with windows := ∅, boundBackendIds := ∅ }
      match bindReplayed backend working facts.replayed with
      | (.error error, backend) => (.error error, backend)
      | (.ok working, backend) =>
        (.ok { active with
          working := { working with
            ledger := working.ledger.discardUndoHistory
            workarea := none
            effectiveFocus := facts.effectiveFocus
            exclusiveFocus := facts.exclusiveFocus }
          bootstrap := true
          response := { active.response with projection := none, closes := [] } }, backend)

/-! ## Reduction of later turns -/

/-- The effect of a binding action on the transaction, before the projection and
the repeat candidate are looked at. -/
def performAction (s : Session B) (active : ActiveTransaction) (action : Action) :
    ActiveTransaction :=
  let working := active.working
  let stage (effect : SessionEffect) :=
    { active with stagedEffects := active.stagedEffects ++ [effect] }
  let withLedger (ledger : Ledger) :=
    { active with working := { working with ledger := ledger } }
  match action with
  | .spawn argv => stage (.spawn argv)
  | .terminal => stage .terminal
  | .launcher => stage .launcher
  | .focus dir => withLedger (working.ledger.focusStep dir)
  | .swap dir => withLedger (working.ledger.swap dir).1
  | .orbit number =>
    match OrbitId.fromHuman number with
    | some orbit => withLedger (working.ledger.switchOrbit orbit)
    | none => active
  | .moveToOrbit number =>
    match OrbitId.fromHuman number with
    | some orbit => withLedger (working.ledger.moveToOrbit orbit).1
    | none => active
  | .stow => withLedger working.ledger.toggleStow.1
  | .setLayout layout => withLedger (working.ledger.setLayout layout)
  | .fullscreen => withLedger working.ledger.toggleFullscreen.1
  | .enterMode mode =>
    { active with
      working := { working with
        mode := mode
        grimoire := if mode = .nav then false else working.grimoire
        chordEcho :=
          if mode ≠ .nav ∨ .super ∈ working.activeModifiers then s.pendingChordEcho else "" }
      bindingChanged := true
      response := { active.response with
        bindings := { active.response.bindings with
          nextKeyEdge := if mode = .nav then .preserve else .ensure } } }
  | .banish =>
    match working.ledger.focused with
    | some win =>
      { active with response := { active.response with
          closes := pushUnique active.response.closes win } }
    | none => active
  | .undo => withLedger working.ledger.undo.1
  | .toggleWhichKey => { active with working := { working with whichkey := !working.whichkey } }
  | .grimoire => { active with working := { working with grimoire := !working.grimoire } }
  | .reloadTheme => stage .reloadTheme
  | .quit =>
    let after := match active.originalActionResult with
      | none => .noRequester
      | some (ticket, _) => .originalAction ticket
    { active with
      stagedEffects := active.stagedEffects ++ [.quitPending after]
      quitStaged := true }

def applyBindingAction (s : Session B) (active : ActiveTransaction) (id : BackendBindingId)
    (binding : Binding) : ActiveTransaction :=
  if active.quitStaged then active
  else
    let before := projectAuthority active.working
    let active := s.performAction active binding.action
    let active :=
      if before ≠ projectAuthority active.working then { active with projectionRequired := true }
      else active
    if binding.repeatable then { active with repeatCandidate := some id } else active

/-- A projection is required from here on, once a workarea is known. -/
def requireProjection (active : ActiveTransaction) : ActiveTransaction :=
  if active.working.workarea.isSome then { active with projectionRequired := true } else active

/-- The window of an opened identity, a new one unless it is known. -/
def allocateOpened (a : AuthorityState) (backendId : BackendWindowId) :
    Except SessionEventError (WinId × AuthorityState) :=
  match a.backendIds.lookup backendId with
  | some win => .ok (win, a)
  | none =>
    if a.nextWinId = u64Max then .error .windowIdExhausted
    else .ok (a.nextWinId, { a with
      nextWinId := a.nextWinId + 1
      backendIds := a.backendIds.insert backendId a.nextWinId })

def reduceOpened (backend : B) (active : ActiveTransaction) (backendId : BackendWindowId)
    (appId title : String) : Except SessionEventError ActiveTransaction × B :=
  match allocateOpened active.working backendId with
  | .error error => (.error error, backend)
  | .ok (win, a) =>
    let a := { a with
      ledger := a.ledger.summon win a.ledger.active
      windows := a.windows.insert win (normalizedMetadata appId title) }
    if backendId ∈ a.boundBackendIds then
      (.ok (requireProjection { active with working := a }), backend)
    else
      match WmBackend.assignWindow backend backendId win with
      | (.error error, backend) => (.error (.backendContract error), backend)
      | (.ok (), backend) =>
        let a := { a with boundBackendIds := insert backendId a.boundBackendIds }
        (.ok (requireProjection { active with working := a }), backend)

def reduceClosed (active : ActiveTransaction) (backendId : BackendWindowId) :
    Except SessionEventError ActiveTransaction :=
  match active.working.backendIds.lookup backendId with
  | none => .error (.backendContract .unknownWindowReference)
  | some win =>
    let a := active.working
    let a := { a with
      backendIds := a.backendIds.erase backendId
      boundBackendIds := a.boundBackendIds.erase backendId
      windows := a.windows.erase win
      ledger := (a.ledger.banish win).1 }
    let active := requireProjection { active with
      working := a
      response := { active.response with
        closes := active.response.closes.filter (· ≠ win) } }
    .ok (if active.closeTarget = some win then { active with closeTarget := none } else active)

def reduceTitle (active : ActiveTransaction) (backendId : BackendWindowId) (title : String) :
    Except SessionEventError ActiveTransaction :=
  match active.working.backendIds.lookup backendId with
  | none => .error (.backendContract .unknownWindowReference)
  | some win =>
    match active.working.windows.lookup win with
    | none => .error (.backendContract .unknownWindowReference)
    | some metadata =>
      let metadata :=
        { metadata with title := normalizeVisible title maxVisibleTitleJsonBytes }
      .ok { active with working := { active.working with
        windows := active.working.windows.insert win metadata } }

def reduceFocus (active : ActiveTransaction) (focus : Option BackendWindowId) :
    ActiveTransaction :=
  let active : ActiveTransaction :=
    { active with working := { active.working with effectiveFocus := focus } }
  let observed : Option WinId := focus.bind fun id => active.working.backendIds.lookup id
  if active.working.exclusiveFocus = false ∧ observed ≠ active.working.ledger.focused then
    requireProjection active
  else active

def reduceExclusiveFocus (active : ActiveTransaction) (exclusive : Bool) : ActiveTransaction :=
  let changed :=
    if active.working.exclusiveFocus ≠ exclusive then requireProjection active else active
  { changed with working := { changed.working with exclusiveFocus := exclusive } }

def reduceWorkarea (active : ActiveTransaction) (workarea : Workarea) : ActiveTransaction :=
  if active.working.workarea ≠ some workarea then
    { active with
      working := { active.working with workarea := some workarea }
      projectionRequired := true }
  else active

def reducePressed (s : Session B) (active : ActiveTransaction) (id : BackendBindingId) :
    Except SessionEventError ActiveTransaction :=
  let active := { active with working := { active.working with
    heldBindings := insert id active.working.heldBindings } }
  match s.bindings.lookup id with
  | none => .error (.backendContract (.unknownBinding id))
  | some binding =>
    let active := s.applyBindingAction active id binding
    .ok (
      if active.working.mode ≠ .nav ∧ active.response.bindings.nextKeyEdge = .preserve then
        { active with response := { active.response with
          bindings := { active.response.bindings with nextKeyEdge := .ensure } } }
      else active)

def reduceReleased (s : Session B) (active : ActiveTransaction) (id : BackendBindingId) :
    ActiveTransaction :=
  { active with
    working := { active.working with heldBindings := active.working.heldBindings.erase id }
    repeatTimer :=
      if active.repeatCandidate = some id ∨ s.repeatTarget = some id then .disarm
      else active.repeatTimer }

def reduceUnboundKey (active : ActiveTransaction) : ActiveTransaction :=
  let active :=
    if active.working.mode ≠ .nav then
      { active with
        working := { active.working with mode := .nav, chordEcho := "" }
        bindingChanged := true }
    else active
  { active with response := { active.response with
    bindings := { active.response.bindings with nextKeyEdge := .preserve } } }

def reduceModifiers (s : Session B) (active : ActiveTransaction) (new : List BackendModifier) :
    ActiveTransaction :=
  { active with working := { active.working with
    activeModifiers := new
    chordEcho :=
      if active.working.mode = .nav then
        if .super ∈ new then s.pendingChordEcho else ""
      else active.working.chordEcho } }

def reduceEvent (s : Session B) (backend : B) (active : ActiveTransaction)
    (event : BackendPolicyEvent) : Except SessionEventError ActiveTransaction × B :=
  match event with
  | .windowOpened backendId appId title => reduceOpened backend active backendId appId title
  | .windowClosed backendId => (reduceClosed active backendId, backend)
  | .titleChanged backendId title => (reduceTitle active backendId title, backend)
  | .focusChanged focus => (.ok (reduceFocus active focus), backend)
  | .exclusiveFocusChanged exclusive => (.ok (reduceExclusiveFocus active exclusive), backend)
  | .workareaChanged workarea => (.ok (reduceWorkarea active workarea), backend)
  | .geometryDrifted .. => (.ok active, backend)
  | .bindingPressed id => (s.reducePressed active id, backend)
  | .bindingReleased id | .bindingRepeatStopped id => (.ok (s.reduceReleased active id), backend)
  | .unboundKeyEaten => (.ok (reduceUnboundKey active), backend)
  | .modifiersChanged _ new => (.ok (s.reduceModifiers active new), backend)
  | .initialReplayComplete => (.error .repeatedInitialReplayComplete, backend)

def reducePolicyEvents (s : Session B) (backend : B) (active : ActiveTransaction) :
    List BackendPolicyEvent → Except SessionEventError ActiveTransaction × B
  | [] => (.ok active, backend)
  | event :: events =>
    match s.reduceEvent backend active event with
    | (.error error, backend) => (.error error, backend)
    | (.ok active, backend) => reducePolicyEvents s backend active events

end Session

end Realm
