import Realm.Control.Ipc

/-!
# One connection of the control server

A connection greets, takes one request at a time and sends one frame at a time; a subscriber
has one more slot, for the latest state.  Bytes come in and go out in pieces of any size.
-/

namespace Realm

open Text Ipc

def helloTimeout : ℕ := 1000

def frameTimeout : ℕ := 2000

def outputTimeout : ℕ := 2000

def terminalTimeout : ℕ := 100

inductive ConnectionPhase where
  | awaitHello
  | sendingHello
  | ready
  | subscriber
  | closeAfterReply
  | closing
  deriving DecidableEq

inductive MachineClose where
  | invalidInput
  | frameTooLarge
  | excessPipeline
  | peerClosed
  | deadline
  | outputComplete
  | subscriberInput
  | shutdown
  deriving DecidableEq

inductive MachineAction where
  | none
  | request (request : Request)
  | outboundFrameTooLarge
  | close (reason : MachineClose)
  deriving DecidableEq

/-- What a byte makes of the line that is read. -/
inductive InputStep where
  | more (bytes : Bytes)
  | frame (frame : Bytes)
  | tooLarge

def pushInput (bytes : Bytes) (byte : Byte) : InputStep :=
  if byte = lf then .frame (bytes ++ [byte])
  else if (bytes ++ [byte]).length = maxFrameBytes then .tooLarge
  else .more (bytes ++ [byte])

inductive OutputClass where
  | hello
  | ordinary
  | initialState
  | state
  | shutdown
  | terminal
  deriving DecidableEq

/-- A frame and how much of it was sent. -/
structure OutputCursor where
  bytes : Bytes
  offset : ℕ
  outputClass : OutputClass
  deriving DecidableEq

namespace OutputCursor

def new (bytes : Bytes) (outputClass : OutputClass) : OutputCursor := ⟨bytes, 0, outputClass⟩

def remaining (c : OutputCursor) : Bytes := c.bytes.drop c.offset

def isUnstarted (c : OutputCursor) : Bool := c.offset = 0

/-- The cursor behind `count` more bytes, and whether the frame is complete. -/
def advance (c : OutputCursor) (count : ℕ) : Bool × OutputCursor :=
  (c.offset + count = c.bytes.length, { c with offset := c.offset + count })

end OutputCursor

/-- A frame that came while the greeting was sent. -/
inductive RetainedFrame where
  | request (request : Request)
  | terminalError (message : String)
  deriving DecidableEq

structure ConnectionMachine where
  phase : ConnectionPhase
  input : Bytes
  output : Option OutputCursor
  latest : Option OutputCursor
  retained : Option RetainedFrame
  requestPending : Bool
  pendingSubscribe : Bool
  readHalfClosed : Bool
  shuttingDown : Bool
  session : String
  helloDeadline : ℕ
  partialDeadline : Option ℕ
  outputDeadline : Option ℕ
  closeDeadline : Option ℕ
  shutdownDeadline : Option ℕ
  deriving DecidableEq

namespace ConnectionMachine

def new (now : ℕ) (session : String) : ConnectionMachine where
  phase := .awaitHello
  input := []
  output := none
  latest := none
  retained := none
  requestPending := false
  pendingSubscribe := false
  readHalfClosed := false
  shuttingDown := false
  session := session
  helloDeadline := now + helloTimeout
  partialDeadline := none
  outputDeadline := none
  closeDeadline := none
  shutdownDeadline := none

def inputEnabled (m : ConnectionMachine) : Bool :=
  if m.readHalfClosed then false
  else
    match m.phase with
    | .awaitHello => !m.shuttingDown
    | .ready => !m.shuttingDown && !m.requestPending && m.output.isNone
    | .subscriber => true
    | _ => false

def nextDeadline (m : ConnectionMachine) : Option ℕ :=
  if m.phase = .closing then none
  else
    let hello := if m.phase = .awaitHello then some m.helloDeadline else none
    ([m.shutdownDeadline, hello, m.partialDeadline, m.outputDeadline,
      m.closeDeadline].filterMap id).min?

def close (m : ConnectionMachine) (reason : MachineClose) : MachineAction × ConnectionMachine :=
  (.close reason, { m with
    phase := .closing
    input := []
    output := none
    latest := none
    retained := none
    requestPending := false
    pendingSubscribe := false
    partialDeadline := none
    outputDeadline := none
    closeDeadline := none
    shutdownDeadline := none })

def expire (m : ConnectionMachine) (now : ℕ) : MachineAction × ConnectionMachine :=
  match m.nextDeadline with
  | some deadline => if deadline ≤ now then m.close .deadline else (.none, m)
  | none => (.none, m)

def setCurrent (m : ConnectionMachine) (bytes : Bytes) (outputClass : OutputClass) (now : ℕ) :
    ConnectionMachine :=
  { m with
    output := some (.new bytes outputClass)
    outputDeadline := some (now + outputTimeout) }

def readEof (m : ConnectionMachine) : MachineAction × ConnectionMachine :=
  if m.readHalfClosed then (.none, m)
  else if m.input ≠ [] then m.close .peerClosed
  else
    let m := { m with readHalfClosed := true }
    match m.phase with
    | .awaitHello => m.close .peerClosed
    | .ready =>
      if !m.requestPending && m.output.isNone then m.close .peerClosed else (.none, m)
    | _ => (.none, m)

/-- After a frame of a subscriber comes the latest state, or the end of a shutdown. -/
def finishSubscriberOutput (m : ConnectionMachine) (now : ℕ) :
    MachineAction × ConnectionMachine :=
  match m.latest with
  | some next => (.none, { m with
      latest := none, output := some next, outputDeadline := some (now + outputTimeout) })
  | none => if m.shuttingDown then m.close .shutdown else (.none, m)

def publishState (m : ConnectionMachine) (now : ℕ) (frame : Bytes) :
    MachineAction × ConnectionMachine :=
  if m.phase ≠ .subscriber || m.shuttingDown then (.none, m)
  else if frame.length > maxFrameBytes || frame.getLast? ≠ some lf then m.close .frameTooLarge
  else if m.output.isSome then (.none, { m with latest := some (.new frame .state) })
  else (.none, m.setCurrent frame .state now)

/-- The frames of a shutdown: an initial state not yet begun goes first, a frame begun goes
alone, and nothing else does. -/
def placeShutdown (m : ConnectionMachine) (shutdown : OutputCursor) : ConnectionMachine :=
  match m.output with
  | none => { m with output := some shutdown }
  | some output =>
    match output.outputClass, output.isUnstarted with
    | .initialState, true => { m with latest := some shutdown }
    | .initialState, false | .state, false => m
    | .state, true => { m with output := some shutdown }
    | .shutdown, _ => m
    | _, _ => { m with output := some shutdown }

variable [IpcJson]

def queueHello (m : ConnectionMachine) (now : ℕ) (versionMatches : Bool) :
    MachineAction × ConnectionMachine :=
  match encodeResponse (.hello protocolVersion m.session) with
  | none => m.close .frameTooLarge
  | some bytes =>
    if versionMatches then
      (.none, { m.setCurrent bytes .hello now with phase := .sendingHello })
    else
      (.none, { m with
        output := some (.new bytes .hello)
        phase := .closeAfterReply
        closeDeadline := some (now + terminalTimeout) })

def queueTerminalError (m : ConnectionMachine) (now : ℕ) (message : String) :
    ConnectionMachine :=
  match encodeResponse (.error .unknownRequest message) with
  | none => (m.close .frameTooLarge).2
  | some bytes => { m with
      input := []
      output := some (.new bytes .terminal)
      phase := .closeAfterReply
      partialDeadline := none
      outputDeadline := none
      closeDeadline := some (now + terminalTimeout) }

def handOver (m : ConnectionMachine) (request : Request) : ConnectionMachine :=
  { m with requestPending := true, pendingSubscribe := request = .subscribe }

/-- Whether reading goes on behind a frame. -/
inductive FrameStep where
  | goOn (action : MachineAction) (m : ConnectionMachine)
  | leave (action : MachineAction) (m : ConnectionMachine)

def FrameStep.ofClose (closed : MachineAction × ConnectionMachine) : FrameStep :=
  .leave closed.1 closed.2

/-- One frame behind the greeting is retained, if it ends the read. -/
def retain (m : ConnectionMachine) (last : Bool) (retained : RetainedFrame) : FrameStep :=
  if last then .goOn .none { m with retained := some retained }
  else .ofClose (m.close .excessPipeline)

/-- What a complete line does; `last` if no byte follows it. -/
def takeFrame (m : ConnectionMachine) (now : ℕ) (frame : Bytes) (last : Bool) : FrameStep :=
  match m.phase with
  | .awaitHello =>
    match IpcJson.decodeFrame frame with
    | .request (.hello version _) =>
      match m.queueHello now (version = protocolVersion) with
      | (.none, m) => if version ≠ protocolVersion then .leave .none m else .goOn .none m
      | closed => .ofClose closed
    | .request _ => .leave .none (m.queueTerminalError now "expected Hello")
    | .validNonRequest => .leave .none (m.queueTerminalError now "invalid request")
    | .invalid => .ofClose (m.close .invalidInput)
  | .sendingHello =>
    match IpcJson.decodeFrame frame with
    | .request (.hello _ _) => m.retain last (.terminalError "duplicate Hello")
    | .request request => m.retain last (.request request)
    | .validNonRequest => m.retain last (.terminalError "invalid request")
    | .invalid => .ofClose (m.close .invalidInput)
  | .ready =>
    match IpcJson.decodeFrame frame with
    | .request (.hello _ _) => .leave .none (m.queueTerminalError now "duplicate Hello")
    | .request request =>
      if last then .goOn (.request request) (m.handOver request)
      else .ofClose (m.close .excessPipeline)
    | .validNonRequest => .leave .none (m.queueTerminalError now "invalid request")
    | .invalid => .ofClose (m.close .invalidInput)
  | _ => .ofClose (m.close .excessPipeline)

def beginLine (m : ConnectionMachine) (now : ℕ) : ConnectionMachine :=
  if m.input = [] ∧ (m.phase = .ready ∨ m.phase = .sendingHello) then
    { m with partialDeadline := some (m.partialDeadline.getD (now + frameTimeout)) }
  else m

def ingestBytes (now : ℕ) : Bytes → MachineAction → ConnectionMachine →
    MachineAction × ConnectionMachine
  | [], action, m => (action, m)
  | byte :: rest, action, m =>
    if m.phase = .sendingHello ∧ m.retained.isSome then m.close .excessPipeline
    else
      match pushInput m.input byte with
      | .more input => ingestBytes now rest action { m.beginLine now with input := input }
      | .tooLarge => (m.beginLine now).close .frameTooLarge
      | .frame frame =>
        match takeFrame { m.beginLine now with input := [], partialDeadline := none } now frame
            (rest = []) with
        | .goOn action m => ingestBytes now rest action m
        | .leave action m => (action, m)

def ingest (m : ConnectionMachine) (now : ℕ) (bytes : Bytes) :
    MachineAction × ConnectionMachine :=
  if bytes = [] then (.none, m)
  else if m.phase = .subscriber then m.close .subscriberInput
  else if m.phase ∉ [ConnectionPhase.awaitHello, .sendingHello, .ready] ∨ m.requestPending ∨
      m.readHalfClosed ∨ m.shuttingDown then m.close .excessPipeline
  else ingestBytes now bytes .none m

def finishOutput (m : ConnectionMachine) (now : ℕ) : OutputClass →
    MachineAction × ConnectionMachine
  | .hello =>
    if m.phase = .closeAfterReply then m.close .outputComplete
    else
      let ready := { m with phase := .ready, retained := none }
      match m.retained with
      | some (.request request) => (.request request, ready.handOver request)
      | some (.terminalError message) => (.none, ready.queueTerminalError now message)
      | none => if m.readHalfClosed then ready.close .peerClosed else (.none, ready)
  | .ordinary => if m.readHalfClosed then m.close .peerClosed else (.none, m)
  | .initialState | .state => m.finishSubscriberOutput now
  | .shutdown => m.close .shutdown
  | .terminal => m.close .outputComplete

/-- Bytes that were sent move the deadline of the frame. -/
def touchOutput (m : ConnectionMachine) (now count : ℕ) : ConnectionMachine :=
  if 0 < count ∧ m.phase ≠ .closeAfterReply ∧ !m.shuttingDown then
    { m with outputDeadline := some (now + outputTimeout) }
  else m

def advanceOutput (m : ConnectionMachine) (now count : ℕ) : MachineAction × ConnectionMachine :=
  match m.output with
  | none => (.none, m)
  | some output =>
    let m := m.touchOutput now count
    match output.advance count with
    | (false, output) => (.none, { m with output := some output })
    | (true, output) =>
      ({ m with output := none, outputDeadline := none } : ConnectionMachine).finishOutput now
        output.outputClass

def completeRequest (m : ConnectionMachine) (now : ℕ) (response : Response) :
    MachineAction × ConnectionMachine :=
  if m.shuttingDown || !m.requestPending || m.pendingSubscribe then (.none, m)
  else
    match encodeResponse response with
    | none => (.outboundFrameTooLarge, m)
    | some bytes => (.none, { m with requestPending := false }.setCurrent bytes .ordinary now)

def completeSubscribe (m : ConnectionMachine) (now : ℕ) (state : RealmState) :
    MachineAction × ConnectionMachine :=
  if m.shuttingDown || !m.requestPending || !m.pendingSubscribe then (.none, m)
  else
    match encodeEvent (.state state) with
    | none => (.outboundFrameTooLarge, m)
    | some bytes => (.none, { m with
        requestPending := false
        pendingSubscribe := false
        phase := .subscriber }.setCurrent bytes .initialState now)

def beginShutdown (m : ConnectionMachine) (now : ℕ) : MachineAction × ConnectionMachine :=
  if m.shutdownDeadline.isSome || m.phase = .closing then (.none, m)
  else if m.phase ≠ .subscriber then m.close .shutdown
  else
    let m := { m with
      shuttingDown := true
      shutdownDeadline := some (now + terminalTimeout)
      latest := none }
    match encodeEvent .shutdown with
    | none => m.close .frameTooLarge
    | some bytes => (.none, m.placeShutdown (.new bytes .shutdown))

end ConnectionMachine

end Realm
