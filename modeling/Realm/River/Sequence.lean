import Mathlib.Data.List.MinMax
import Realm.River.State

/-!
# Manage and render sequences

River opens a manage sequence when policy is due and a render sequence when a
frame is.  The retained facts of a manage sequence become one policy turn; the
response of the session closes the sequence.  The render sequence shows the
projection of that response, and may ask for one further manage sequence when a
window came out too small.
-/

namespace Realm

open River

namespace RiverBackend

/-! ## Answering a manage sequence -/

def objectOf (b : RiverBackend) (win : WinId) : Option ObjectId :=
  (b.realmIds.lookup win).bind b.windowIds.lookup

def placed (b : RiverBackend) (win : WinId) : RiverOutcome (ObjectId × Window) :=
  match (b.objectOf win).bind fun id => (b.windows.lookup id).map (id, ·) with
  | none => b.fail protocolError
  | some found => .ok found

/-- The size and fullscreen state of one placement; the window it belongs to and
what is asked of River. -/
def manageWindow (id output : ObjectId) (fullscreen : Bool) (rect : Rect) (w : Window) :
    Window × List Request :=
  let start : List Request :=
    if w.initialized then [] else [.setTiled id 15, .setCapabilities id 4]
  let w := { w with initialized := true }
  if fullscreen then
    if w.fullscreen then (w, start)
    else
      ({ w with fullscreen := true, awaitingDimensions := false },
        start ++ [.fullscreen id output, .informFullscreen id])
  else
    let leave : List Request :=
      if w.fullscreen then [.exitFullscreen id, .informNotFullscreen id] else []
    let w :=
      if w.fullscreen then
        { w with
          fullscreen := false
          proposedSize := none
          awaitingDimensions := false
          position := none }
      else w
    if w.proposedSize ≠ some (rect.w, rect.h) then
      ({ w with proposedSize := some (rect.w, rect.h), awaitingDimensions := true },
        start ++ leave ++ [.proposeDimensions id rect.w rect.h])
    else (w, start ++ leave)

def managePlacement (output : ObjectId) (fullscreen : Bool) (b : RiverBackend)
    (placement : Placement) : RiverOutcome RiverBackend := do
  let (id, window) ← b.placed placement.win
  let managed := manageWindow id output fullscreen placement.rect window
  .ok ({ b with windows := b.windows.insert id managed.1 }.sendAll managed.2)

def selectedSeatProxy (b : RiverBackend) : RiverOutcome ObjectId :=
  match b.selectedSeat with
  | none => b.fail protocolError
  | some seat => if seat ∈ b.seats then .ok seat else b.fail protocolError

def manageFocus (b : RiverBackend) (projection : List Placement) : RiverOutcome RiverBackend :=
  let focused := (projection.find? (·.focused)).map (·.win)
  if !b.exclusiveFocus && b.focusedWindow ≠ focused then
    match focused with
    | some win => do
      let (id, _) ← b.placed win
      let seat ← b.selectedSeatProxy
      .ok { b.send (.focusWindow seat id) with focusedWindow := focused }
    | none => do
      let seat ← b.selectedSeatProxy
      .ok { b.send (.clearFocus seat) with focusedWindow := focused }
  else .ok b

def manageEnabled (b : RiverBackend) (enabled : List BackendBindingId) : RiverBackend :=
  let changes : List Request :=
    (b.bindingObjects.entries.insertionSort fun a c => a.1.raw ≤ c.1.raw).filterMap fun e =>
      if e.2.enabled = decide (e.1 ∈ enabled) then none
      else some (if e.1 ∈ enabled then .enable e.2.proxy else .disable e.2.proxy)
  { b.sendAll changes with
    bindingObjects := Map.mapValues
      (fun id binding => { binding with enabled := decide (id ∈ enabled) }) b.bindingObjects }

def watchModifiers (b : RiverBackend) (modifiers : List BackendModifier) :
    RiverOutcome RiverBackend :=
  if b.watchedModifiers = modifiers then .ok b
  else
    match b.xkbSeat with
    | none => b.fail protocolError
    | some seat =>
      .ok { b.send (.modifiersWatch seat (modifiersBits modifiers)) with
        watchedModifiers := modifiers }

def manageNextKey (b : RiverBackend) (edge : BackendNextKeyEdge) : RiverOutcome RiverBackend :=
  match edge, b.xkbSeat with
  | .preserve, _ => .ok b
  | .ensure, some seat => .ok (b.send (.ensureNextKeyEaten seat))
  | .cancel, some seat => .ok (b.send (.cancelEnsureNextKeyEaten seat))
  | _, none => b.fail protocolError

def manageBindings (b : RiverBackend) (bindings : BackendBindingState) :
    RiverOutcome RiverBackend := do
  let b ← (b.manageEnabled bindings.enabled).watchModifiers bindings.watchedModifiers
  b.manageNextKey bindings.nextKeyEdge

def makeDefault (b : RiverBackend) (id layer : ObjectId) : RiverBackend :=
  if b.defaultOutput = some id then b
  else { b.send (.setDefault layer) with defaultOutput := some id }

/-- Send the sizes and the focus of a projection, on an output of a given
rectangle. -/
def manageProjection (b : RiverBackend) (output : ObjectId) (rect : Rect) :
    Option (List Placement) → RiverOutcome RiverBackend
  | none => .ok b
  | some projection => do
    let fullscreen := decide (projection.map (·.rect) = [rect])
    let b ← projection.foldlM (managePlacement output fullscreen) b
    b.manageFocus projection

def applyManageResponse (b : RiverBackend) (response : BackendPolicyResponse) :
    RiverOutcome RiverBackend :=
  match b.selectedOutput with
  | none =>
    if response.projection = none ∧ response.bindings = ⟨[], [], .preserve⟩ then .ok b
    else b.fail protocolError
  | some id =>
    match b.outputs.lookup id with
    | none => b.fail protocolError
    | some output =>
      match output.position, output.dimensions with
      | some (x, y), some (w, h) => do
        let b ← (b.makeDefault id output.layer).manageProjection id ⟨x, y, w, h⟩
          response.projection
        b.manageBindings response.bindings
      | _, _ => b.fail protocolError

/-- The sizes a projection asks for, by object. -/
def requestedSizes (b : RiverBackend) (projection : List Placement) : Map ObjectId (ℤ × ℤ) :=
  projection.foldl (fun m placement =>
    match b.objectOf placement.win with
    | some id => m.insert id (placement.rect.w, placement.rect.h)
    | none => m) ∅

/-- Propose the deferred correction of one window, unless the window is gone or
the response asks for another size. -/
def proposeCorrection (response : BackendPolicyResponse) (sizes : Map ObjectId (ℤ × ℤ))
    (state : RiverBackend × Bool) (id : ObjectId) (target corrected : ℤ × ℤ) :
    RiverBackend × Bool :=
  match state.1.windows.lookup id with
  | none => state
  | some window =>
    if response.projection.isSome && sizes.lookup id ≠ some target then state
    else
      ({ state.1.send (.proposeDimensions id corrected.1 corrected.2) with
        windows := state.1.windows.insert id { window with
          proposedSize := some corrected
          awaitingDimensions := true } }, true)

def closeWindows (b : RiverBackend) (closes : List WinId) : RiverOutcome RiverBackend :=
  closes.foldlM (fun b win => do
    let (id, _) ← b.placed win
    .ok (b.send (.close id))) b

/-- Send the closes, the policy and the deferred corrections of a response, and
say whether a correction went out. -/
def answerManage (b : RiverBackend) (response : BackendPolicyResponse) :
    RiverOutcome (RiverBackend × Bool) := do
  let b ← b.closeWindows response.closes
  let b ← b.applyManageResponse response
  let sizes := b.requestedSizes (response.projection.getD [])
  .ok (b.deferredCorrections.entries.foldl
    (fun state e => proposeCorrection response sizes state e.1 e.2.1 e.2.2)
    ({ b with deferredCorrections := ∅ }, false))

/-- A turn that ends the session is answered without policy. -/
def answerTurn (b : RiverBackend) (terminalError : Option BackendError)
    (response : BackendPolicyResponse) : RiverOutcome (RiverBackend × Bool) :=
  if terminalError = none then b.answerManage response else .ok (b, false)

/-- Close the manage sequence; the response now waits for its render sequence. -/
def manageFinish (b : RiverBackend) (pending : PendingResponse) : RiverOutcome RiverBackend :=
  if b.windowManager = none then b.fail protocolError
  else .ok { b.send .manageFinish with
    openTurn := none
    pendingResponse := some pending
    flushPending := true }

/-- The session may only name windows it has assigned and that River still has. -/
def bound (b : RiverBackend) (win : WinId) : Bool := (b.objectOf win).isSome

/-- The geometry and bindings of a response are well formed. -/
def wellFormedResponse (b : RiverBackend) (response : BackendPolicyResponse) : Bool :=
  let projection := response.projection.getD []
  (projection.all fun p => 0 < p.rect.w && 0 < p.rect.h) &&
  decide (projection.map (·.win)).Nodup &&
  ascending (response.bindings.enabled.map (·.raw)) &&
  ascending (response.bindings.watchedModifiers.map (·.rank)) &&
  (b.terminalAfterResponse.isSome ||
    response.bindings.enabled.all fun id => id ∈ b.bindingObjects)

def respondPolicyTurn (b : RiverBackend) (turn : BackendPolicyTurnId) (ticket : BackendTicket)
    (response : BackendPolicyResponse) : RiverOutcome RiverBackend :=
  let projection := response.projection.getD []
  if b.openTurn ≠ some turn ∨ b.pendingResponse.isSome then b.fail protocolError
  else if response.closes.length + projection.length > maxStagedEffects then
    b.fail (.capacity .policyEffects maxStagedEffects)
  else if !(response.closes ++ projection.map (·.win)).all b.bound then b.fail protocolError
  else if ¬ response.closes.Nodup then b.fail protocolError
  else if !b.wellFormedResponse response then b.fail protocolError
  else do
    let (answered, correctionRound) ←
      { b with terminalAfterResponse := none }.answerTurn b.terminalAfterResponse response
    answered.manageFinish {
      ticket := ticket
      response := response
      stage := .awaitRender
      terminalError := b.terminalAfterResponse
      corrections := ∅
      correctionRound := correctionRound }

/-! ## Policy turns -/

/-- The retained facts stay within the limits of one turn. -/
def validatePolicyCapacity (b : RiverBackend) : RiverOutcome RiverBackend :=
  let limit := if b.replay then maxReplayPolicyEvents else maxPolicyEvents
  if b.policyEvents.length > limit then b.fail (.capacity .policyFacts limit)
  else if (b.policyEvents.map eventTextBytes).sum > maxPolicyTextBytes then
    b.fail (.capacity .policyTextBytes maxPolicyTextBytes)
  else .ok b

/-- The windows not reported yet, in the order River announced them. -/
def pendingOpens (b : RiverBackend) : List (ObjectId × Window) :=
  ((b.windows.entries.map fun e => (e.1, e.2)).filter (·.2.pendingOpen)).insertionSort
    fun a c => a.2.ordinal ≤ c.2.ordinal

def reportOpened (b : RiverBackend) (entry : ObjectId × Window) : RiverOutcome RiverBackend :=
  match entry.2.backendId with
  | none => b.fail protocolError
  | some backendId =>
    .ok { b.retain (.windowOpened backendId entry.2.appId entry.2.title) with
      windows := b.windows.insert entry.1 { entry.2 with pendingOpen := false } }

/-- The complete output with the lowest ordinal. -/
def chooseOutput (b : RiverBackend) (requireWorkarea : Bool) : Option ObjectId :=
  (((b.outputs.entries.map fun e => (e.1, e.2)).filter fun e =>
    e.2.position.isSome && e.2.dimensions.isSome &&
      (!requireWorkarea || e.2.workarea.isSome)).argmin (·.2.ordinal)).map (·.1)

/-- Select an output when none is selected; a replacement for a lost one is
reported with its workarea. -/
def selectOutput (b : RiverBackend) : RiverOutcome RiverBackend :=
  if b.selectedOutput.isSome then .ok b
  else
    let selected := b.chooseOutput b.selectedOutputLost
    let b' := { b with selectedOutput := selected, selectedOutputLost := false }
    if !b.selectedOutputLost then .ok b'
    else
      match selected.bind b.outputs.lookup with
      | none => .ok b'
      | some output =>
        match output.position, output.dimensions, output.workarea with
        | some (x, y), some (w, h), some tiles =>
          .ok (b'.retain (.workareaChanged ⟨⟨x, y, w, h⟩, tiles⟩))
        | _, _, _ => b'.fail protocolError

/-- Without a complete output and a seat the answer to this turn is the last. -/
def checkSelection (b : RiverBackend) : RiverOutcome RiverBackend :=
  match b.selectedOutput, b.selectedSeat with
  | some _, some seat =>
    match b.seats.lookup seat with
    | none => .ok b
    | some ordinal =>
      if b.seats.entries.any fun e => e.2 < ordinal then b.fail protocolError else .ok b
  | _, _ =>
    let error := BackendError.unavailable "River has no complete selected output or seat"
    .ok { b with terminalAfterResponse := some error }

def emitTurn (b : RiverBackend) : RiverOutcome RiverBackend :=
  if b.nextTurn = u64Max then b.fail (.capacity .policyTurnIds u64Max)
  else
    let b := { b with nextTurn := b.nextTurn + 1 }
    match NonZeroId.new b.nextTurn with
    | none => b.fail protocolError
    | some id =>
      .ok { b with
        openTurn := some id
        publicEvents := b.publicEvents ++ [.policyTurn ⟨id, b.drainTicket, b.policyEvents⟩]
        drainTicket := none
        policyEvents := []
        replay := false }

/-- The first turn ends with the replay barrier. -/
def markReplay (b : RiverBackend) : RiverBackend :=
  if b.replay then b.retain .initialReplayComplete else b

def finishPolicyTurn (b : RiverBackend) : RiverOutcome RiverBackend := do
  let b ← b.pendingOpens.foldlM reportOpened b
  let b ← b.selectOutput
  let b ← b.checkSelection
  let b ← b.markReplay.validatePolicyCapacity
  b.emitTurn

/-! ## Answering a render sequence -/

/-- The position, borders, clip and visibility of one placed window, what is asked
of River, and the correction when the window is too small. -/
def renderWindow (id : ObjectId) (allowCorrection raise : Bool) (placement : Placement)
    (w : Window) : Window × List Request × Option ((ℤ × ℤ) × (ℤ × ℤ)) :=
  if w.fullscreen then
    if w.hidden = some false then (w, [], none)
    else ({ w with hidden := some false }, [.show id], none)
  else
    let target := (placement.rect.w, placement.rect.h)
    let fits := w.dimensions.any fun actual => target.1 ≤ actual.1 && target.2 ≤ actual.2
    let move : List Request :=
      if w.position = some (placement.rect.x, placement.rect.y) then []
      else [.setPosition w.node placement.rect.x placement.rect.y]
    let borders : List Request :=
      if w.focused = some placement.focused then []
      else [.setBorders id 15 1 (borderRgba placement.focused)]
    let clip : List Request :=
      if w.dimensions = some target then [.setContentClipBox id 0 0 0 0]
      else if fits then [.setContentClipBox id 0 0 target.1 target.2]
      else []
    let correction := match w.dimensions with
      | some actual =>
        if fits || !allowCorrection then none
        else some (target,
          (wrap32 (target.1 + max (target.1 - actual.1) 0),
            wrap32 (target.2 + max (target.2 - actual.2) 0)))
      | none => none
    let shows :=
      (fits || !allowCorrection && w.dimensions.isSome) && decide (w.hidden ≠ some false)
    let showing : List Request := if shows then [.show id] else []
    let top : List Request := if raise && placement.focused then [.placeTop w.node] else []
    ({ w with
      position := some (placement.rect.x, placement.rect.y)
      focused := some placement.focused
      hidden := if shows then some false else w.hidden },
      move ++ borders ++ clip ++ showing ++ top, correction)

def renderPlacement (allowCorrection raise : Bool) (state : RiverBackend × CorrectionMap)
    (placement : Placement) : RiverOutcome (RiverBackend × CorrectionMap) := do
  let (id, window) ← state.1.placed placement.win
  let rendered := renderWindow id allowCorrection raise placement window
  .ok ({ state.1 with windows := state.1.windows.insert id rendered.1 }.sendAll rendered.2.1,
    match rendered.2.2 with
    | some correction => state.2.insert id correction
    | none => state.2)

def Unplaced (visible : List WinId) (w : Window) : Bool :=
  w.assigned.any fun win => win ∉ visible

def hideUnplaced (b : RiverBackend) (visible : List WinId) : RiverBackend :=
  let hides : List Request := b.windows.entries.filterMap fun e =>
    if Unplaced visible e.2 && decide (e.2.hidden ≠ some true) then some (.hide e.1) else none
  { b.sendAll hides with
    windows := Map.mapValues
      (fun _ w => if Unplaced visible w then { w with hidden := some true } else w) b.windows }

def applyRenderResponse (b : RiverBackend) (projection : Option (List Placement))
    (allowCorrection : Bool) : RiverOutcome (RiverBackend × CorrectionMap) :=
  match projection with
  | none => .ok (b, ∅)
  | some projection =>
    projection.foldlM (renderPlacement allowCorrection (projection.any (·.occluded)))
      (b.hideUnplaced (projection.map (·.win)), ∅)

def renderFinish (b : RiverBackend) : RiverOutcome RiverBackend :=
  if b.windowManager = none then b.fail protocolError
  else .ok { b.send .renderFinish with flushPending := true }

/-- The projection a render sequence shows. -/
def projectionInForce (b : RiverBackend) : Option (List Placement) :=
  match b.pendingResponse with
  | none => b.lastProjection
  | some pending =>
    if pending.terminalError = none then pending.response.projection.or b.lastProjection
    else none

/-- The render sequence that a response waits for: without corrections the response
is only left to be flushed, otherwise a further manage sequence is asked for. -/
def renderResponse (b : RiverBackend) (pending : PendingResponse) :
    RiverOutcome RiverBackend := do
  let (b, corrections) ← b.applyRenderResponse b.projectionInForce (!pending.correctionRound)
  let b ← b.renderFinish
  if corrections.keys = [] then
    .ok { b with pendingResponse := some { pending with stage := .flushingRender } }
  else
    .ok { b.send .manageDirty with
      pendingResponse := some { pending with
        corrections := corrections
        correctionRound := true
        stage := .awaitCorrectionManage } }

def renderStart (b : RiverBackend) : RiverOutcome RiverBackend :=
  match b.pendingResponse with
  | none => do
    let (b, _) ← b.applyRenderResponse b.projectionInForce false
    let b ← b.renderFinish
    b.validatePolicyCapacity
  | some pending =>
    match pending.stage with
    | .awaitCorrectionManage => do
      -- A window that is still short stays hidden until its correction.
      let (b, _) ← b.applyRenderResponse b.projectionInForce true
      b.renderFinish
    | .awaitRender => do
      let b ← b.renderResponse pending
      b.validatePolicyCapacity
    | .flushingRender => b.fail protocolError

end RiverBackend

end Realm
