import Realm.River.Wire

/-!
# The state of the River backend

The backend keeps what River reported, the identities of the windows, the facts
retained for the next policy turn and the response being worked on.  A function that
can fail returns the state at the failure next to the error, so that what it changed
before failing is kept.  Unordered maps of the source are
walked in the order of the association list; nothing depends on that order.
-/

namespace Realm.River

structure Window where
  node : ObjectId
  ordinal : ℕ
  backendId : Option BackendWindowId
  appId : String
  title : String
  pendingOpen : Bool
  assigned : Option WinId
  dimensions : Option (ℤ × ℤ)
  proposedSize : Option (ℤ × ℤ)
  awaitingDimensions : Bool
  position : Option (ℤ × ℤ)
  focused : Option Bool
  hidden : Option Bool
  fullscreen : Bool
  initialized : Bool

def Window.new (node : ObjectId) (ordinal : ℕ) : Window where
  node := node
  ordinal := ordinal
  backendId := none
  appId := ""
  title := ""
  pendingOpen := true
  assigned := none
  dimensions := none
  proposedSize := none
  awaitingDimensions := false
  position := none
  focused := none
  hidden := none
  fullscreen := false
  initialized := false

structure Output where
  layer : ObjectId
  ordinal : ℕ
  position : Option (ℤ × ℤ)
  dimensions : Option (ℤ × ℤ)
  workarea : Option Rect

structure LibinputDevice where
  tapSupport : Option ℤ
  tapEnabled : Option Bool

/-- A binding object of the selected seat. -/
structure BindingObject where
  proxy : ObjectId
  enabled : Bool

inductive ResponseStage where
  | awaitRender
  | awaitCorrectionManage
  | flushingRender
deriving DecidableEq

/-- The requested size of a window and the corrected proposal for it. -/
abbrev CorrectionMap := Map ObjectId ((ℤ × ℤ) × (ℤ × ℤ))

structure PendingResponse where
  ticket : BackendTicket
  response : BackendPolicyResponse
  stage : ResponseStage
  terminalError : Option BackendError
  corrections : CorrectionMap
  correctionRound : Bool

/-- What River answers to the three round trips of a connection: the globals, the
input devices and the results of configuring them. -/
structure Handshake where
  discovery : List Incoming
  inputDiscovery : List Incoming
  inputResults : List Incoming

end River

open River

/-- A connection to River's display, with the answers River gives while it is
being set up. -/
structure RiverBackend where
  transport : Transport
  handshake : Handshake
  windowManager : Option ObjectId
  xkbBindings : Option ObjectId
  layerShell : Option ObjectId
  connected : Bool
  inputDevices : Map ObjectId (Option Bool)
  libinputDevices : Map ObjectId LibinputDevice
  libinputResults : List ObjectId
  nextInputOrdinal : ℕ
  nextLibinputOrdinal : ℕ
  windows : Map ObjectId Window
  windowIds : Map BackendWindowId ObjectId
  realmIds : Map WinId BackendWindowId
  outputs : Map ObjectId Output
  seats : Map ObjectId ℕ
  selectedOutput : Option ObjectId
  selectedSeat : Option ObjectId
  layerSeat : Option ObjectId
  xkbSeat : Option ObjectId
  nextWindowOrdinal : ℕ
  nextOutputOrdinal : ℕ
  nextSeatOrdinal : ℕ
  replay : Bool
  policyEvents : List BackendPolicyEvent
  publicEvents : List BackendEvent
  openTurn : Option BackendPolicyTurnId
  turnRequested : Bool
  pendingResponse : Option PendingResponse
  nextTurn : ℕ
  bindings : Map BackendBindingId BackendBindingSpec
  bindingObjects : Map BackendBindingId BindingObject
  watchedModifiers : List BackendModifier
  defaultOutput : Option ObjectId
  focusedWindow : Option WinId
  exclusiveFocus : Bool
  drainTicket : Option BackendTicket
  selectedOutputLost : Bool
  terminalAfterResponse : Option BackendError
  lastProjection : Option (List Placement)
  deferredCorrections : CorrectionMap
  readGuard : Bool
  flushPending : Bool
  flushBlocked : Bool
  exitStarted : Bool
  exitFlushed : Bool
  exitComplete : Bool

/-- The result of a fallible operation, with the state it left on failure. -/
abbrev RiverOutcome (α : Type) := Except (BackendError × RiverBackend) α

namespace RiverBackend

def fromConnection (handshake : Handshake) : RiverBackend where
  transport := Transport.new
  handshake := handshake
  windowManager := none
  xkbBindings := none
  layerShell := none
  connected := false
  inputDevices := ∅
  libinputDevices := ∅
  libinputResults := []
  nextInputOrdinal := 0
  nextLibinputOrdinal := 0
  windows := ∅
  windowIds := ∅
  realmIds := ∅
  outputs := ∅
  seats := ∅
  selectedOutput := none
  selectedSeat := none
  layerSeat := none
  xkbSeat := none
  nextWindowOrdinal := 0
  nextOutputOrdinal := 0
  nextSeatOrdinal := 0
  replay := true
  policyEvents := []
  publicEvents := []
  openTurn := none
  turnRequested := false
  pendingResponse := none
  nextTurn := 0
  bindings := ∅
  bindingObjects := ∅
  watchedModifiers := []
  defaultOutput := none
  focusedWindow := none
  exclusiveFocus := false
  drainTicket := none
  selectedOutputLost := false
  terminalAfterResponse := none
  lastProjection := none
  deferredCorrections := ∅
  readGuard := false
  flushPending := false
  flushBlocked := false
  exitStarted := false
  exitFlushed := false
  exitComplete := false

def protocolError : BackendError := Transport.protocolError

def fail {α : Type} (b : RiverBackend) (error : BackendError) : RiverOutcome α :=
  .error (error, b)

def send (b : RiverBackend) (r : Request) : RiverBackend :=
  { b with transport := b.transport.send r }

def sendAll (b : RiverBackend) (rs : List Request) : RiverBackend := rs.foldl send b

def destroy (b : RiverBackend) (object : ObjectId) : RiverBackend :=
  { b with transport := b.transport.destroy object }

def retain (b : RiverBackend) (event : BackendPolicyEvent) : RiverBackend :=
  { b with policyEvents := b.policyEvents ++ [event] }

/-- The number of the next object of a kind, counted in 64 bits. -/
def nextOrdinal (b : RiverBackend) (ordinal : ℕ) : RiverOutcome ℕ :=
  if ordinal = u64Max then b.fail (.capacity .objectOrdinals u64Max) else .ok (ordinal + 1)

/-! ## Encodings -/

def eventTextBytes : BackendPolicyEvent → ℕ
  | .windowOpened backendId appId title =>
    backendId.len + appId.utf8ByteSize + title.utf8ByteSize
  | .windowClosed backendId | .geometryDrifted backendId _ => backendId.len
  | .titleChanged backendId title => backendId.len + title.utf8ByteSize
  | .focusChanged (some backendId) => backendId.len
  | _ => 0

def keysym : String → Option ℕ
  | "Return" => some 0xff0d
  | "Escape" => some 0xff1b
  | "question" => some 0x3f
  | text =>
    match text.toList with
    | [c] => if c.isAlphanum then some c.toNat else none
    | _ => none

def modifierBit : BackendModifier → ℕ
  | .shift => 1
  | .control => 4
  | .alt => 8
  | .super => 64

def modifiersBits (modifiers : List BackendModifier) : ℕ :=
  modifiers.foldl (fun bits modifier => bits ||| modifierBit modifier) 0

/-- The known modifiers among the bits of a 32-bit word, unless others are set. -/
def decodeModifiers (bits : ℕ) : Option (List BackendModifier) :=
  if bits &&& (2 ^ 32 - 1 - (1 ||| 4 ||| 8 ||| 64)) ≠ 0 then none
  else some ([.shift, .control, .alt, .super].filter fun m => bits &&& modifierBit m ≠ 0)

def borderRgba (focused : Bool) : ℕ × ℕ × ℕ × ℕ :=
  let (red, green, blue, alphaPercent) : ℕ × ℕ × ℕ × ℕ :=
    if focused then (0xa6, 0x92, 0xec, 60) else (0x66, 0x74, 0x8e, 30)
  let alpha := (2 ^ 32 - 1) * alphaPercent / 100
  let channel (value : ℕ) := alpha * value / 255 % 2 ^ 32
  (channel red, channel green, channel blue, alpha)

def ascending (keys : List ℕ) : Bool := (keys.zip keys.tail).all fun (a, c) => a < c

/-! ## Input devices -/

def applyInputEvent (b : RiverBackend) (event : Incoming) : RiverOutcome RiverBackend :=
  match event with
  | .inputDeviceCreated device =>
    if b.inputDevices.keys.length = maxBackendInputDevices then
      (b.destroy device).fail (.capacity .inputDevices maxBackendInputDevices)
    else do
      let ordinal ← b.nextOrdinal b.nextInputOrdinal
      .ok { b with
        nextInputOrdinal := ordinal
        inputDevices := b.inputDevices.insert device none }
  | .inputDeviceRemoved device =>
    let b := { b with inputDevices := b.inputDevices.erase device }.destroy device
    .ok { b with flushPending := b.flushPending || b.connected }
  | .inputDeviceType device keyboard =>
    if device ∈ b.inputDevices then
      .ok { b with inputDevices := b.inputDevices.insert device (some keyboard) }
    else b.fail protocolError
  | .inputDeviceDone device =>
    match b.inputDevices.lookup device with
    | none => b.fail protocolError
    | some (some true) =>
      .ok { b.send (.setRepeatInfo device keyRepeatRateHz keyRepeatDelayMs) with
        flushPending := b.flushPending || b.connected }
    | some _ => .ok b
  | .libinputDeviceCreated device =>
    if b.libinputDevices.keys.length = maxBackendLibinputDevices then
      (b.destroy device).fail (.capacity .libinputDevices maxBackendLibinputDevices)
    else do
      let ordinal ← b.nextOrdinal b.nextLibinputOrdinal
      .ok { b with
        nextLibinputOrdinal := ordinal
        libinputDevices := b.libinputDevices.insert device ⟨none, none⟩ }
  | .libinputDeviceRemoved device =>
    let b := { b with libinputDevices := b.libinputDevices.erase device }.destroy device
    .ok { b with flushPending := b.flushPending || b.connected }
  | .libinputTapSupport device fingerCount =>
    match b.libinputDevices.lookup device with
    | none => b.fail protocolError
    | some record =>
      .ok { b with libinputDevices :=
        b.libinputDevices.insert device { record with tapSupport := some fingerCount } }
  | .libinputTapCurrent device enabled =>
    match b.libinputDevices.lookup device with
    | none => b.fail protocolError
    | some record =>
      .ok { b with libinputDevices :=
        b.libinputDevices.insert device { record with tapEnabled := some enabled } }
  | .libinputDeviceDone device =>
    match b.libinputDevices.lookup device with
    | none => b.fail protocolError
    | some record =>
      if record.tapSupport.any (0 < ·) && record.tapEnabled = some false then
        let (result, transport) := b.transport.construct
        .ok { { b with transport := transport }.send (.setTap device true result) with
          libinputResults := result :: b.libinputResults
          flushPending := b.flushPending || b.connected }
      else .ok b
  | .libinputResult result success =>
    if result ∈ b.libinputResults ∧ success = true then
      .ok { b with libinputResults := b.libinputResults.erase result }
    else
      { b with libinputResults := b.libinputResults.erase result }.fail
        (.unavailable "River rejected required tap-to-click policy")
  | _ => b.fail protocolError

/-! ## Connecting -/

/-- The name and version of each required global that is advertised. -/
structure Globals where
  windowManager : Option (ℕ × ℕ) := none
  xkbBindings : Option (ℕ × ℕ) := none
  layerShell : Option (ℕ × ℕ) := none
  inputManager : Option (ℕ × ℕ) := none
  libinputConfig : Option (ℕ × ℕ) := none

namespace Globals

def record (g : Globals) (name : ℕ) (interface : String) (version : ℕ) : Globals :=
  match interface with
  | "river_window_manager_v1" => { g with windowManager := some (name, version) }
  | "river_xkb_bindings_v1" => { g with xkbBindings := some (name, version) }
  | "river_layer_shell_v1" => { g with layerShell := some (name, version) }
  | "river_input_manager_v1" => { g with inputManager := some (name, version) }
  | "river_libinput_config_v1" => { g with libinputConfig := some (name, version) }
  | _ => g

def remove (g : Globals) (name : ℕ) : Globals :=
  let keep (slot : Option (ℕ × ℕ)) := slot.filter fun global => global.1 ≠ name
  ⟨keep g.windowManager, keep g.xkbBindings, keep g.layerShell, keep g.inputManager,
    keep g.libinputConfig⟩

def requireGlobal (interface : String) (global : Option (ℕ × ℕ)) (required : ℕ) :
    BackendResult Unit :=
  let advertised := (global.map (·.2)).getD 0
  if advertised < required then
    .error (.unavailable ("required global " ++ interface ++ " advertised version " ++
      toString advertised ++ ", required " ++ toString required))
  else .ok ()

def validate (g : Globals) : BackendResult Unit := do
  requireGlobal "river_window_manager_v1" g.windowManager 4
  requireGlobal "river_xkb_bindings_v1" g.xkbBindings 3
  requireGlobal "river_layer_shell_v1" g.layerShell 1
  requireGlobal "river_input_manager_v1" g.inputManager 2
  requireGlobal "river_libinput_config_v1" g.libinputConfig 2

/-- The globals left when the round trip is over. -/
def discover : List Incoming → Globals → BackendResult Globals
  | [], g => .ok g
  | .global name interface version :: events, g => discover events (g.record name interface version)
  | .globalRemoved name :: events, g => discover events (g.remove name)
  | _ :: _, _ => .error protocolError

end Globals

/-- The input events of a round trip, collected before any is applied. -/
def inputRound (b : RiverBackend) (events : List Incoming) : RiverOutcome RiverBackend :=
  if .malformed ∈ events then b.fail protocolError
  else
    (events.filter fun event =>
      match event with
      | .global .. | .globalRemoved _ => false
      | _ => true).foldlM applyInputEvent b

def bindGlobal (b : RiverBackend) : ObjectId × RiverBackend :=
  (b.transport.construct.1, { b with transport := b.transport.construct.2 })

/-- Discover the globals, bind the companion protocols, settle the input devices
and bind window management last.  Nothing is left to flush. -/
def connect (b : RiverBackend) : RiverOutcome RiverBackend :=
  if b.connected then .ok b
  else
    match Globals.discover b.handshake.discovery {} with
    | .error error => b.fail error
    | .ok globals =>
      match globals.validate with
      | .error error => b.fail error
      | .ok () => do
        let (layerShell, b) := b.bindGlobal
        let (xkbBindings, b) := b.bindGlobal
        let (_, b) := b.bindGlobal
        let (_, b) := b.bindGlobal
        let b := { b with layerShell := some layerShell, xkbBindings := some xkbBindings }
        let b ← b.inputRound b.handshake.inputDiscovery
        let b ← b.inputRound b.handshake.inputResults
        if b.libinputResults ≠ [] then b.fail protocolError
        else
          let (windowManager, b) := b.bindGlobal
          .ok { b with
            windowManager := some windowManager
            transport := { b.transport with outBytes := 0 }
            connected := true }

def configureBindings (b : RiverBackend) (bindings : List BackendBindingSpec) :
    RiverOutcome RiverBackend :=
  if b.selectedSeat.isSome || !b.bindingObjects.keys.isEmpty then b.fail protocolError
  else if bindings.length > maxConfiguredBindings then
    b.fail (.capacity .configuredBindings maxConfiguredBindings)
  else if bindings.any (fun s => (keysym s.keysym).isNone || !ascending (s.modifiers.map (·.rank)))
      ∨ ¬ (bindings.map (·.id)).Nodup then
    b.fail protocolError
  else .ok { b with bindings := bindings.foldl (fun m s => m.insert s.id s) ∅ }

def assignWindow (b : RiverBackend) (backendId : BackendWindowId) (win : WinId) :
    Except BackendContractError RiverBackend :=
  match (b.windowIds.lookup backendId).bind fun id => (b.windows.lookup id).map (id, ·) with
  | none => .error (.unknownWindow backendId)
  | some (objectId, window) =>
    match window.assigned with
    | some assigned =>
      if assigned = win then .ok b else .error .conflictingBackendIdentity
    | none =>
      if win ∈ b.realmIds then .error .conflictingRealmIdentity
      else .ok { b with
        windows := b.windows.insert objectId { window with assigned := some win }
        realmIds := b.realmIds.insert win backendId }

end RiverBackend

end Realm
