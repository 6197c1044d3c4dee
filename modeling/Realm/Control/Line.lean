import Realm.Control.Talk

/-!
# What goes over a connection

The calls the server makes on one connection, with the history of the connection: the bytes
that came in, and what went over it.
-/

namespace Realm

open Text Ipc

/-- The calls of the server on a connection. -/
inductive MachineCall where
  | ingest (now : ℕ) (bytes : Bytes)
  | readEof
  | advanceOutput (now count : ℕ)
  | completeRequest (now : ℕ) (response : Response)
  | completeSubscribe (now : ℕ) (state : RealmState)
  | publishState (now : ℕ) (state : RealmState)
  | beginShutdown (now : ℕ)
  | expire (now : ℕ)

namespace MachineCall

def received : MachineCall → Bytes
  | ingest _ bytes => bytes
  | _ => []

def sends : MachineCall → Option OutputCursor → Bytes
  | advanceOutput _ count, some c => c.remaining.take count
  | _, _ => []

def delivers : MachineCall → Option OutputCursor → List Frame
  | advanceOutput _ count, some c => if c.offset + count = c.bytes.length then [c.frame] else []
  | _, _ => []

end MachineCall

namespace MachineAction

/-- The server forgets a connection that closes. -/
def removes : MachineAction → Bool
  | close _ | outboundFrameTooLarge => true
  | none | request _ => false

def requests : MachineAction → List Request
  | request r => [r]
  | _ => []

end MachineAction

namespace ConnectionMachine

/-- When the server makes a call: it reads while input is enabled, and what it sends is part of
what is to be sent. -/
def Allows (m : ConnectionMachine) : MachineCall → Prop
  | .ingest _ bytes => m.inputEnabled = true ∧ bytes ≠ []
  | .readEof => m.inputEnabled = true
  | .advanceOutput _ count => ∃ c, m.output = some c ∧ count ≤ c.remaining.length
  | .completeRequest .. | .completeSubscribe .. | .publishState .. | .beginShutdown _
  | .expire _ => True

def pending (m : ConnectionMachine) : List Frame :=
  (m.output.toList ++ m.latest.toList).map OutputCursor.frame

variable [IpcJson]

/-- A state is encoded once for all subscribers; if it cannot be, they are removed. -/
def call (m : ConnectionMachine) : MachineCall → MachineAction × ConnectionMachine
  | .ingest now bytes => m.ingest now bytes
  | .readEof => m.readEof
  | .advanceOutput now count => m.advanceOutput now count
  | .completeRequest now response => m.completeRequest now response
  | .completeSubscribe now state => m.completeSubscribe now state
  | .publishState now state =>
    if m.phase ≠ .subscriber then (.none, m)
    else
      match encodeEvent (.state state) with
      | none => (.outboundFrameTooLarge, m)
      | some frame => m.publishState now frame
  | .beginShutdown now => m.beginShutdown now
  | .expire now => m.expire now

def queues (m : ConnectionMachine) : MachineCall → List Frame
  | .ingest now bytes => (m.ingest now bytes).2.pending
  | .readEof | .expire _ => []
  | .advanceOutput now count =>
    -- only an error retained behind the greeting is queued when a frame is complete
    if (m.advanceOutput now count).2.phase = .closeAfterReply ∧ m.phase ≠ .closeAfterReply then
      (m.advanceOutput now count).2.pending
    else []
  | .completeRequest _ response =>
    if m.shuttingDown || !m.requestPending || m.pendingSubscribe then []
    else (encodeResponse response).toList.map (⟨.ordinary, ·⟩)
  | .completeSubscribe _ state =>
    if m.shuttingDown || !m.requestPending || !m.pendingSubscribe then []
    else (encodeEvent (.state state)).toList.map (⟨.initialState, ·⟩)
  | .publishState _ state =>
    if m.phase ≠ .subscriber || m.shuttingDown then []
    else (encodeEvent (.state state)).toList.map (⟨.state, ·⟩)
  | .beginShutdown now =>
    if m.phase ≠ .subscriber || m.shutdownDeadline.isSome then []
    else (m.beginShutdown now).2.pending.filter (·.outputClass = .shutdown)

def traffic (m : ConnectionMachine) (call : MachineCall) : Traffic where
  queued := m.queues call
  sent := call.sends m.output
  delivered := call.delivers m.output
  handed := (m.call call).1.requests

end ConnectionMachine

/-- A connection with its history. -/
structure Line where
  machine : ConnectionMachine
  gone : Bool
  received : Bytes
  traffic : Traffic

namespace Line

def new (now : ℕ) (session : String) : Line where
  machine := .new now session
  gone := false
  received := []
  traffic := {}

variable [IpcJson]

def step (l : Line) (call : MachineCall) : Line where
  machine := (l.machine.call call).2
  gone := (l.machine.call call).1.removes
  received := l.received ++ call.received
  traffic := l.traffic.add (l.machine.traffic call)

/-- The connections the calls of the server lead to.  The server also removes a connection whose
socket fails. -/
inductive Reachable : Line → Prop where
  | new (now : ℕ) (session : String) : Reachable (new now session)
  | step {l : Line} (h : Reachable l) (hopen : l.gone = false) {call : MachineCall}
      (hallows : l.machine.Allows call) : Reachable (l.step call)
  | remove {l : Line} (h : Reachable l) : Reachable { l with gone := true }

end Line

end Realm
