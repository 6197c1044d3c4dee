import Realm.River.Sequence

/-!
# The River backend

The events River sends at run time, the bounded service quantum that reads,
dispatches, flushes and publishes, and the backend as the session uses it.
-/

namespace Realm

open River

namespace RiverBackend

/-! ## Runtime events -/

def modifyWindow (b : RiverBackend) (id : ObjectId) (f : Window → Window) :
    RiverOutcome RiverBackend :=
  match b.windows.lookup id with
  | none => b.fail protocolError
  | some window => .ok { b with windows := b.windows.insert id (f window) }

def windowCreated (b : RiverBackend) (id : ObjectId) : RiverOutcome RiverBackend :=
  if b.windows.keys.length = maxManagedWindows then
    (b.destroy id).fail (.capacity .managedWindows maxManagedWindows)
  else do
    let ordinal ← b.nextOrdinal b.nextWindowOrdinal
    let (node, transport) := b.transport.construct
    .ok { { b with transport := transport }.send (.getNode id node) with
      nextWindowOrdinal := ordinal
      flushPending := true
      windows := b.windows.insert id (Window.new node ordinal) }

def windowIdentifier (b : RiverBackend) (id : ObjectId) (identifier : String) :
    RiverOutcome RiverBackend :=
  match BackendWindowId.new identifier with
  | none => b.fail protocolError
  | some backendId =>
    if backendId ∈ b.windowIds then b.fail protocolError
    else do
      let b ← b.modifyWindow id fun w => { w with backendId := some backendId }
      .ok { b with windowIds := b.windowIds.insert backendId id }

def windowTitle (b : RiverBackend) (id : ObjectId) (title : String) :
    RiverOutcome RiverBackend :=
  match b.windows.lookup id with
  | none => b.fail protocolError
  | some window =>
    let b := { b with windows := b.windows.insert id { window with title := title } }
    if window.pendingOpen then .ok b
    else
      match window.backendId with
      | none => b.fail protocolError
      | some backendId => .ok (b.retain (.titleChanged backendId title))

/-- A reported size that nothing asked for, of a reported window, is a drift. -/
def drifts (b : RiverBackend) (w : Window) (size : ℤ × ℤ) : Bool :=
  decide (w.dimensions ≠ some size) && !w.awaitingDimensions && !w.fullscreen &&
    b.pendingResponse.isNone && !w.pendingOpen

def windowDimensions (b : RiverBackend) (id : ObjectId) (width height : ℤ) :
    RiverOutcome RiverBackend :=
  if width ≤ 0 ∨ height ≤ 0 then b.fail protocolError
  else
    match b.windows.lookup id with
    | none => b.fail protocolError
    | some window =>
      let record := { window with
        awaitingDimensions := false
        dimensions := some (width, height) }
      match b.drifts window (width, height), window.backendId, window.position with
      | true, some backendId, some (x, y) =>
        .ok ({ b with windows := b.windows.insert id { record with proposedSize := none } }.retain
          (.geometryDrifted backendId ⟨x, y, width, height⟩))
      | _, _, _ => .ok { b with windows := b.windows.insert id record }

def forgetWindow (b : RiverBackend) (window : Window) (backendId : BackendWindowId) :
    RiverBackend :=
  let b := { b with windowIds := b.windowIds.erase backendId }
  match window.assigned with
  | none => b
  | some win =>
    { b with
      realmIds := b.realmIds.erase win
      focusedWindow := if b.focusedWindow = some win then none else b.focusedWindow }

def windowClosed (b : RiverBackend) (id : ObjectId) : RiverOutcome RiverBackend :=
  match b.windows.lookup id with
  | none => b.fail protocolError
  | some window =>
    let b := { b with windows := b.windows.erase id }.destroy window.node
    let b := match window.backendId with
      | none => b
      | some backendId =>
        let b := b.forgetWindow window backendId
        if window.pendingOpen then b else b.retain (.windowClosed backendId)
    .ok { b.destroy id with flushPending := true }

def outputCreated (b : RiverBackend) (id : ObjectId) : RiverOutcome RiverBackend :=
  if b.outputs.keys.length = maxBackendOutputs then
    (b.destroy id).fail (.capacity .outputs maxBackendOutputs)
  else do
    let ordinal ← b.nextOrdinal b.nextOutputOrdinal
    let b := { b with nextOutputOrdinal := ordinal }
    if b.layerShell = none then b.fail protocolError
    else
      let (layer, transport) := b.transport.construct
      .ok { { b with transport := transport }.send (.getLayerOutput id layer) with
        flushPending := true
        outputs := b.outputs.insert id ⟨layer, ordinal, none, none, none⟩ }

def modifyOutput (b : RiverBackend) (id : ObjectId) (f : Output → Output) :
    RiverOutcome RiverBackend :=
  match b.outputs.lookup id with
  | none => b.fail protocolError
  | some output => .ok { b with outputs := b.outputs.insert id (f output) }

/-- Compositor fullscreen ends with the output it was on. -/
def leaveFullscreen (w : Window) : Window :=
  if w.fullscreen then
    { w with
      fullscreen := false
      proposedSize := none
      awaitingDimensions := false
      position := none }
  else w

def outputRemoved (b : RiverBackend) (id : ObjectId) : RiverOutcome RiverBackend :=
  match b.outputs.lookup id with
  | none => b.fail protocolError
  | some output =>
    let b := { b with outputs := b.outputs.erase id }
    let b :=
      if b.selectedOutput = some id then
        { b with
          selectedOutput := none
          defaultOutput := none
          selectedOutputLost := true
          windows := Map.mapValues (fun _ => leaveFullscreen) b.windows }
      else b
    .ok { (b.destroy output.layer).destroy id with flushPending := true }

def createBinding (seat : ObjectId) (b : RiverBackend)
    (entry : BackendBindingId × BackendBindingSpec) : RiverOutcome RiverBackend :=
  match keysym entry.2.keysym with
  | none => b.fail protocolError
  | some symbol =>
    let (binding, transport) := b.transport.construct
    let r : Request := .getXkbBinding seat symbol (modifiersBits entry.2.modifiers) binding
    .ok { { b with transport := transport }.send r with
      bindingObjects := b.bindingObjects.insert entry.1 ⟨binding, false⟩ }

def selectSeat (b : RiverBackend) (id : ObjectId) : RiverOutcome RiverBackend :=
  let b := { b with selectedSeat := some id }
  if b.layerShell = none then b.fail protocolError
  else
    let (layerSeat, transport) := b.transport.construct
    let b := { b with transport := transport }.send (.getLayerSeat id layerSeat)
    if b.xkbBindings = none then b.fail protocolError
    else do
      let (xkbSeat, transport) := b.transport.construct
      let b := { b with transport := transport }.send (.getXkbSeat id xkbSeat)
      let bindings := (b.bindings.entries.map fun e => (e.1, e.2)).insertionSort
        fun a c => a.1.raw ≤ c.1.raw
      let b ← bindings.foldlM (createBinding id) b
      .ok { b with layerSeat := some layerSeat, xkbSeat := some xkbSeat, flushPending := true }

def ensureSeat (b : RiverBackend) (id : ObjectId) : RiverOutcome RiverBackend :=
  if b.selectedSeat.isSome then .ok b else b.selectSeat id

def seatCreated (b : RiverBackend) (id : ObjectId) : RiverOutcome RiverBackend :=
  if b.seats.keys.length = maxBackendSeats then
    (b.destroy id).fail (.capacity .seats maxBackendSeats)
  else do
    let ordinal ← b.nextOrdinal b.nextSeatOrdinal
    let b ← { b with nextSeatOrdinal := ordinal }.ensureSeat id
    .ok { b with seats := b.seats.insert id ordinal }

/-- Drop the input objects of a removed selected seat; the session cannot go on. -/
def dropSeat (b : RiverBackend) : RiverBackend :=
  let objects := b.layerSeat.toList ++ b.xkbSeat.toList ++
    (b.bindingObjects.entries.insertionSort fun a c => a.1.raw ≤ c.1.raw).map (·.2.proxy)
  { objects.foldl destroy b with
    selectedSeat := none
    layerSeat := none
    xkbSeat := none
    bindingObjects := ∅
    terminalAfterResponse := some (.unavailable "selected River seat was removed") }

def seatRemoved (b : RiverBackend) (id : ObjectId) : RiverOutcome RiverBackend :=
  if id ∉ b.seats then b.fail protocolError
  else
    let b := { b with seats := b.seats.erase id }
    let b := if b.selectedSeat = some id then b.dropSeat else b
    .ok { b.destroy id with flushPending := true }

def windowInteracted (b : RiverBackend) (id : ObjectId) : RiverOutcome RiverBackend :=
  match (b.windows.lookup id).bind (·.backendId) with
  | none => b.fail protocolError
  | some backendId => .ok (b.retain (.focusChanged (some backendId)))

/-- A new non-exclusive area; on the selected output it is a fact. -/
def workarea (b : RiverBackend) (layer : ObjectId) (tiles : Rect) : RiverOutcome RiverBackend :=
  match b.outputs.entries.find? fun e => e.2.layer = layer with
  | none => b.fail protocolError
  | some ⟨id, output⟩ =>
    let b := { b with outputs := b.outputs.insert id { output with workarea := some tiles } }
    if b.selectedOutput ≠ some id then .ok b
    else
      match output.position, output.dimensions with
      | some (ox, oy), some (ow, oh) =>
        .ok (b.retain (.workareaChanged ⟨⟨ox, oy, ow, oh⟩, tiles⟩))
      | _, _ => b.fail protocolError

def exclusiveFocusChanged (b : RiverBackend) (exclusive : Bool) : RiverBackend :=
  { b with
    exclusiveFocus := exclusive
    focusedWindow := if exclusive then none else b.focusedWindow }.retain
    (.exclusiveFocusChanged exclusive)

/-- A fact about a binding of the selected seat. -/
def bindingFact (b : RiverBackend) (id : BackendBindingId) (event : BackendPolicyEvent) :
    RiverOutcome RiverBackend :=
  if id ∈ b.bindingObjects then .ok (b.retain event) else b.fail protocolError

def modifiersChanged (b : RiverBackend) (old new : ℕ) : RiverOutcome RiverBackend :=
  match decodeModifiers old, decodeModifiers new with
  | some old, some new => .ok (b.retain (.modifiersChanged old new))
  | _, _ => b.fail protocolError

/-- A response that waited for its correction is complete; its corrections go out
with the answer to this turn. -/
def manageStart (b : RiverBackend) : RiverOutcome RiverBackend :=
  let b := { b with turnRequested := false }
  match b.pendingResponse with
  | some pending =>
    if pending.stage = .awaitCorrectionManage then
      let b := { b with pendingResponse := none }
      if pending.terminalError.isSome then b.fail protocolError
      else
        let b : RiverBackend := { b with
          lastProjection := pending.response.projection.or b.lastProjection
          deferredCorrections := pending.corrections
          publicEvents := b.publicEvents ++ [.operationCompleted pending.ticket (.ok ())]
          drainTicket := some pending.ticket }
        b.finishPolicyTurn
    else b.finishPolicyTurn
  | none => b.finishPolicyTurn

/-- The effect of one event, before the retained facts are counted. -/
def applyEvent (b : RiverBackend) : Incoming → RiverOutcome RiverBackend
  | .managerUnavailable => b.fail (.unavailable "another River window manager is active")
  | .windowCreated id => b.windowCreated id
  | .windowIdentifier id identifier => b.windowIdentifier id identifier
  | .windowAppId id appId => b.modifyWindow id fun w => { w with appId := appId }
  | .windowTitle id title => b.windowTitle id title
  | .windowDimensions id width height => b.windowDimensions id width height
  | .windowClosed id => b.windowClosed id
  | .outputCreated id => b.outputCreated id
  | .outputPosition id x y => b.modifyOutput id fun o => { o with position := some (x, y) }
  | .outputDimensions id width height =>
    if width ≤ 0 ∨ height ≤ 0 then b.fail protocolError
    else b.modifyOutput id fun o => { o with dimensions := some (width, height) }
  | .outputRemoved id => b.outputRemoved id
  | .seatCreated id => b.seatCreated id
  | .seatRemoved id => b.seatRemoved id
  | .windowInteracted id => b.windowInteracted id
  | .workarea layer x y width height => b.workarea layer ⟨x, y, width, height⟩
  | .exclusiveFocus exclusive => .ok (b.exclusiveFocusChanged exclusive)
  | .bindingPressed id => b.bindingFact id (.bindingPressed id)
  | .bindingReleased id => b.bindingFact id (.bindingReleased id)
  | .bindingRepeatStopped id => b.bindingFact id (.bindingRepeatStopped id)
  | .unboundKeyEaten => .ok (b.retain .unboundKeyEaten)
  | .modifiersChanged old new => b.modifiersChanged old new
  | .manageStart => b.manageStart
  | .global .. | .globalRemoved _ | .syncDone | .malformed => b.fail protocolError
  | event => b.applyInputEvent event

def applyRuntimeEvent (b : RiverBackend) (event : Incoming) : RiverOutcome RiverBackend :=
  if event = .renderStart then b.renderStart
  else do
    let b ← b.applyEvent event
    b.validatePolicyCapacity

/-! ## Service -/

def pollInterest (b : RiverBackend) : BackendPollInterest where
  immediate := b.flushPending && !b.flushBlocked || !b.publicEvents.isEmpty ||
    b.openTurn.isNone && !b.readGuard
  readable := b.connected && !b.exitStarted
  writable := b.flushPending && b.flushBlocked

def flushed (b : RiverBackend) : RiverBackend :=
  let b := { b with flushPending := false, flushBlocked := false }
  if b.exitStarted then { b with exitFlushed := true, pendingResponse := none }
  else
    match b.pendingResponse with
    | none => b
    | some pending =>
      if pending.stage ≠ .flushingRender then b
      else
        match pending.terminalError with
        | some error =>
          { b with
            pendingResponse := none
            publicEvents := b.publicEvents ++ [.operationCompleted pending.ticket (.error error)] }
        | none =>
          { b with
            pendingResponse := none
            lastProjection := pending.response.projection.or b.lastProjection
            publicEvents := b.publicEvents ++ [.operationCompleted pending.ticket (.ok ())]
            drainTicket := some pending.ticket }

def flush (b : RiverBackend) : RiverOutcome RiverBackend :=
  match b.transport.flushOnce with
  | (.error error, transport) => { b with transport := transport }.fail error
  | (.ok .complete, transport) => .ok { b with transport := transport }.flushed
  | (.ok .progress, transport) => .ok { b with transport := transport, flushBlocked := false }
  | (.ok .wouldBlock, transport) => .ok { b with transport := transport, flushBlocked := true }

/-- Read with the prepared guard once the socket is ready, or prepare one. -/
def read (b : RiverBackend) (ready : BackendReady) : RiverOutcome RiverBackend :=
  if (ready.readable || ready.terminal) && b.readGuard then
    match b.transport.readOnce with
    | (.error error, transport) => { b with transport := transport, readGuard := false }.fail error
    | (.ok (), transport) => .ok { b with transport := transport, readGuard := false }
  else if b.readGuard then .ok b
  else .ok { b with readGuard := b.transport.boundedNeedsRead }

/-- Dispatch one buffered message, or seal the retained facts, or read. -/
def receive (b : RiverBackend) (ready : BackendReady) : RiverOutcome RiverBackend :=
  if b.readGuard then b.read ready
  else
    match b.transport.dispatchOnePending b.readGuard with
    | (.error error, transport) => { b with transport := transport }.fail error
    | (.ok (.dispatched none), transport) => .ok { b with transport := transport }
    | (.ok (.dispatched (some event)), transport) =>
      { b with transport := transport }.applyRuntimeEvent event
    | (.ok .preparedReadLive, transport) => { b with transport := transport }.fail protocolError
    | (.ok .needRead, transport) =>
      match b.drainTicket with
      | some ticket =>
        .ok { b with
          transport := transport
          drainTicket := none
          publicEvents := b.publicEvents ++ [.retainedObservationsDrained ticket] }
      | none => { b with transport := transport }.read ready

/-- One bounded quantum of transport work or one public event. -/
def service (b : RiverBackend) (ready : BackendReady) :
    RiverOutcome (Option BackendEvent × RiverBackend) :=
  if b.exitStarted && ready.terminal && !b.exitFlushed then b.fail .disconnected
  else if b.flushPending && (!b.flushBlocked || ready.writable) then
    b.flush.map fun b => (none, b)
  else if b.exitStarted then
    if b.exitComplete then b.fail protocolError
    else if ready.terminal && b.exitFlushed then
      .ok (some .disconnected, { b with exitComplete := true })
    else .ok (none, b)
  else
    match b.publicEvents with
    | event :: events => .ok (some event, { b with publicEvents := events })
    | [] =>
      if b.openTurn.isSome then .ok (none, b)
      else (b.receive ready).map fun b => (none, b)

/-! ## The remaining operations -/

def requestPolicyTurn (b : RiverBackend) : RiverOutcome RiverBackend :=
  if !b.connected || b.exitStarted then b.fail protocolError
  else if b.turnRequested then .ok b
  else if b.windowManager = none then b.fail protocolError
  else .ok { b.send .manageDirty with turnRequested := true, flushPending := true }

/-- Answer an open manage sequence with the last binding policy. -/
def exitPolicy (b : RiverBackend) (policy : BackendExitPolicy) : RiverOutcome RiverBackend :=
  if b.selectedOutput.isSome && b.xkbSeat.isSome then
    b.applyManageResponse ⟨none, [], ⟨policy.enabled, policy.watchedModifiers, .cancel⟩⟩
  else .ok b

def closeTurn (b : RiverBackend) (policy : BackendExitPolicy) : RiverOutcome RiverBackend :=
  if b.openTurn = none then .ok b
  else do
    let b ← { b with openTurn := none }.exitPolicy policy
    if b.windowManager = none then b.fail protocolError else .ok (b.send .manageFinish)

def beginExitSession (b : RiverBackend) (policy : BackendExitPolicy) :
    RiverOutcome RiverBackend :=
  if !b.connected || b.exitStarted then b.fail protocolError
  else do
    let b ← { b with readGuard := false, publicEvents := [] }.closeTurn policy
    if b.windowManager = none then fail { b with pendingResponse := none } protocolError
    else
      .ok { b.send .exitSession with
        pendingResponse := none
        flushPending := true
        flushBlocked := false
        exitStarted := true }

/-- The result and the state next to each other. -/
def settle {α : Type} : RiverOutcome (α × RiverBackend) → BackendResult α × RiverBackend
  | .ok (a, b) => (.ok a, b)
  | .error (error, b) => (.error error, b)

def settleUnit (o : RiverOutcome RiverBackend) : BackendResult Unit × RiverBackend :=
  settle (o.map fun b => ((), b))

instance : WmBackend RiverBackend where
  connect b := settleUnit b.connect
  assignWindow b backendId win :=
    match b.assignWindow backendId win with
    | .ok b => (.ok (), b)
    | .error error => (.error error, b)
  configureBindings b bindings := settleUnit (b.configureBindings bindings)
  requestPolicyTurn b := settleUnit b.requestPolicyTurn
  respondPolicyTurn b turn ticket response :=
    settle ((b.respondPolicyTurn turn ticket response).map fun b => (.pending, b))
  beginExitSession b policy := settleUnit (b.beginExitSession policy)
  pollInterest b := b.pollInterest
  service b ready _ := settle (b.service ready)

end RiverBackend

end Realm
