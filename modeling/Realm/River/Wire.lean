import Realm.Session.Contract

/-!
# The connection to River

What travels between the backend and River: the events the backend consumes, the
requests it makes, and the buffered socket in between.  The socket is modelled by
byte counts.  The messages River sent stand in `stream`, each with its size; of
their bytes `inData` are in the client's buffer and `kernel` in the socket.  How
many bytes the socket takes at once is `room`.  River and the kernel change
`stream`, `kernel`, `room` and `closed`; the client changes the rest.
-/

namespace Realm.River

/-- A protocol object, named by the side that created it.  A name is never used
for a second object. -/
inductive ObjectId where
  | server (n : ℕ)
  | client (n : ℕ)
deriving DecidableEq

/-- The decoded events, as the object callbacks queue them. -/
inductive Incoming where
  | global (name : ℕ) (interface : String) (version : ℕ)
  | globalRemoved (name : ℕ)
  | syncDone
  | inputDeviceCreated (device : ObjectId)
  | inputDeviceRemoved (device : ObjectId)
  | inputDeviceType (device : ObjectId) (keyboard : Bool)
  | inputDeviceDone (device : ObjectId)
  | libinputDeviceCreated (device : ObjectId)
  | libinputDeviceRemoved (device : ObjectId)
  | libinputTapSupport (device : ObjectId) (fingerCount : ℤ)
  | libinputTapCurrent (device : ObjectId) (enabled : Bool)
  | libinputDeviceDone (device : ObjectId)
  | libinputResult (result : ObjectId) (success : Bool)
  | managerUnavailable
  | manageStart
  | renderStart
  | windowCreated (window : ObjectId)
  | windowClosed (window : ObjectId)
  | windowDimensions (window : ObjectId) (width height : ℤ)
  | windowAppId (window : ObjectId) (appId : String)
  | windowTitle (window : ObjectId) (title : String)
  | windowIdentifier (window : ObjectId) (identifier : String)
  | outputCreated (output : ObjectId)
  | outputRemoved (output : ObjectId)
  | outputPosition (output : ObjectId) (x y : ℤ)
  | outputDimensions (output : ObjectId) (width height : ℤ)
  | seatCreated (seat : ObjectId)
  | seatRemoved (seat : ObjectId)
  | windowInteracted (window : ObjectId)
  | workarea (layer : ObjectId) (x y width height : ℤ)
  | exclusiveFocus (exclusive : Bool)
  | bindingPressed (id : BackendBindingId)
  | bindingReleased (id : BackendBindingId)
  | bindingRepeatStopped (id : BackendBindingId)
  | unboundKeyEaten
  | modifiersChanged (old new : ℕ)
  | malformed
deriving DecidableEq

namespace Incoming

def creates : Incoming → Option ObjectId
  | inputDeviceCreated id | libinputDeviceCreated id | windowCreated id | outputCreated id
  | seatCreated id => some id
  | _ => none

def sender : Incoming → Option ObjectId
  | inputDeviceRemoved id | inputDeviceType id _ | inputDeviceDone id
  | libinputDeviceRemoved id | libinputTapSupport id _ | libinputTapCurrent id _
  | libinputDeviceDone id | libinputResult id _
  | windowClosed id | windowDimensions id _ _ | windowAppId id _ | windowTitle id _
  | windowIdentifier id _
  | outputRemoved id | outputPosition id _ _ | outputDimensions id _ _
  | seatRemoved id | workarea id _ _ _ _ => some id
  | _ => none

/-- An object the event names without being sent by it. -/
def argument : Incoming → Option ObjectId
  | windowInteracted id => some id
  | _ => none

end Incoming

/-- The requests the connected backend makes.  A request that creates an object
names the new object last. -/
inductive Request where
  | destroy (object : ObjectId)
  | getNode (window node : ObjectId)
  | getLayerOutput (output layer : ObjectId)
  | getLayerSeat (seat layerSeat : ObjectId)
  | getXkbSeat (seat xkbSeat : ObjectId)
  | getXkbBinding (seat : ObjectId) (keysym modifiers : ℕ) (binding : ObjectId)
  | setRepeatInfo (device : ObjectId) (rate delay : ℕ)
  | setTap (device : ObjectId) (enabled : Bool) (result : ObjectId)
  | close (window : ObjectId)
  | proposeDimensions (window : ObjectId) (width height : ℤ)
  | setTiled (window : ObjectId) (edges : ℕ)
  | setCapabilities (window : ObjectId) (capabilities : ℕ)
  | fullscreen (window output : ObjectId)
  | informFullscreen (window : ObjectId)
  | exitFullscreen (window : ObjectId)
  | informNotFullscreen (window : ObjectId)
  | setDefault (layer : ObjectId)
  | focusWindow (seat window : ObjectId)
  | clearFocus (seat : ObjectId)
  | enable (binding : ObjectId)
  | disable (binding : ObjectId)
  | modifiersWatch (xkbSeat : ObjectId) (modifiers : ℕ)
  | ensureNextKeyEaten (xkbSeat : ObjectId)
  | cancelEnsureNextKeyEaten (xkbSeat : ObjectId)
  | manageFinish
  | manageDirty
  | renderFinish
  | exitSession
  | hide (window : ObjectId)
  | show (window : ObjectId)
  | setPosition (node : ObjectId) (x y : ℤ)
  | setBorders (window : ObjectId) (edges width : ℕ) (rgba : ℕ × ℕ × ℕ × ℕ)
  | setContentClipBox (window : ObjectId) (x y width height : ℤ)
  | placeTop (node : ObjectId)
deriving DecidableEq

def Request.arity : Request → ℕ
  | getNode .. | setTiled .. | setCapabilities .. | fullscreen .. | focusWindow ..
  | modifiersWatch .. => 1
  | getLayerOutput .. | getLayerSeat .. | getXkbSeat .. | setRepeatInfo .. | setTap ..
  | proposeDimensions .. | setPosition .. => 2
  | getXkbBinding .. | setContentClipBox .. => 4
  | setBorders .. => 6
  | _ => 0

/-- The bytes of a request: a header of two words and a word for each argument. -/
def Request.size (r : Request) : ℕ := 8 + 4 * r.arity

/-- One message of River: an event some object sent, one that the client handles
itself or ignores, or bytes that are no event of the object they name. -/
inductive Wire where
  | deliver (sender : ObjectId) (event : Incoming)
  | silent
  | malformed
deriving DecidableEq

def maxBytesOut : ℕ := 4096
def maxBytesInOnce : ℕ := 16384
def maxRetainedBytesIn : ℕ := 65535

structure Transport where
  /-- Every request made, the oldest first. -/
  requests : List Request
  /-- The bytes of requests the socket has not taken yet. -/
  outBytes : ℕ
  room : ℕ
  stream : List (ℕ × Wire)
  inData : ℕ
  kernel : ℕ
  closed : Bool
  /-- A read may be prepared: the buffered bytes hold no whole message. -/
  boundedNeedsRead : Bool
  lastError : Option BackendError
  objects : List ObjectId
  destroyed : List ObjectId
  nextClientId : ℕ

namespace Transport

def new : Transport where
  requests := []
  outBytes := 0
  room := 0
  stream := []
  inData := 0
  kernel := 0
  closed := false
  boundedNeedsRead := false
  lastError := none
  objects := []
  destroyed := []
  nextClientId := 0

def send (t : Transport) (r : Request) : Transport :=
  { t with requests := t.requests ++ [r], outBytes := t.outBytes + r.size }

/-- Destroy an object: later events of it are swallowed. -/
def destroy (t : Transport) (object : ObjectId) : Transport :=
  { t.send (.destroy object) with destroyed := object :: t.destroyed }

def construct (t : Transport) : ObjectId × Transport :=
  (.client t.nextClientId,
    { t with
      objects := .client t.nextClientId :: t.objects
      nextClientId := t.nextClientId + 1 })

def protocolError : BackendError := .protocol .invalidFraming

/-- Store an error: every later operation returns it. -/
def fault {α : Type} (t : Transport) (error : BackendError) : BackendResult α × Transport :=
  (.error error, { t with lastError := some error })

inductive FlushOnce where
  | complete
  | progress
  | wouldBlock
deriving DecidableEq

def flushOnce (t : Transport) : BackendResult FlushOnce × Transport :=
  match t.lastError with
  | some error => (.error error, t)
  | none =>
    if t.outBytes = 0 then (.ok .complete, t)
    else if t.closed then t.fault .disconnected
    else if t.room = 0 then (.ok .wouldBlock, t)
    else
      let count := min (min t.outBytes maxBytesOut) t.room
      let t := { t with outBytes := t.outBytes - count, room := t.room - count }
      (.ok (if t.outBytes = 0 then .complete else .progress), t)

inductive DispatchOne where
  | dispatched (event : Option Incoming)
  | preparedReadLive
  | needRead
deriving DecidableEq

/-- Hand an event to the callback of the object that sent it: it must name known
objects, what it creates must be new, and an event of a destroyed object is
swallowed. -/
def callback (t : Transport) (sender : ObjectId) (event : Incoming) :
    BackendResult DispatchOne × Transport :=
  if sender ∉ t.objects ∨ event.sender.any (· ≠ sender) ∨
      event.argument.any (· ∉ t.objects) ∨ event.creates.any (· ∈ t.objects) then
    t.fault protocolError
  else
    let t := { t with objects := event.creates.toList ++ t.objects }
    (.ok (.dispatched (if sender ∈ t.destroyed then none else some event)), t)

def dispatchOnePending (t : Transport) (preparedRead : Bool) :
    BackendResult DispatchOne × Transport :=
  if preparedRead then (.ok .preparedReadLive, t)
  else
    match t.lastError with
    | some error => (.error error, t)
    | none =>
      match t.stream with
      | [] => (.ok .needRead, { t with boundedNeedsRead := true })
      | (size, wire) :: stream =>
        if t.inData < size then (.ok .needRead, { t with boundedNeedsRead := true })
        else
          let t := { t with stream := stream, inData := t.inData - size }
          match wire with
          | .silent => (.ok (.dispatched none), t)
          | .malformed => { t with inData := 0 }.fault protocolError
          | .deliver sender event => t.callback sender event

def readOnce (t : Transport) : BackendResult Unit × Transport :=
  match t.lastError with
  | some error => (.error error, { t with boundedNeedsRead := true })
  | none =>
    if maxRetainedBytesIn ≤ t.inData then
      { t with inData := 0, boundedNeedsRead := true }.fault
        (.io "Wayland retained-byte limit exceeded")
    else if t.kernel = 0 then
      if t.closed then { t with inData := 0, boundedNeedsRead := true }.fault .disconnected
      else (.ok (), { t with boundedNeedsRead := true })
    else
      let count := min t.kernel (min (maxRetainedBytesIn - t.inData) maxBytesInOnce)
      (.ok (), { t with
        inData := t.inData + count
        kernel := t.kernel - count
        boundedNeedsRead := false })

end Transport

end Realm.River
