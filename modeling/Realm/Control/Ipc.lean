import Realm.Session.Snapshot
import Realm.Lib.Text

/-!
# The control protocol

Requests, replies and events are lines of JSON.  Of the JSON library only what it does with
the values of the protocol is known; a frame is what it writes and a newline, and no frame is
longer than the limit.
-/

namespace Realm

open Text

namespace Ipc

def maxFrameBytes : ℕ := 65536

inductive ErrorKind where
  | unknownRequest
  | badArgument
  | noSuchOrbit
  | noFocusedWindow
  | backendRefused
  | internal
  deriving DecidableEq

inductive Request where
  | hello (version : ℕ) (client : String)
  | getState
  | getKeymap
  | getHealth
  | subscribe
  | switchOrbit (number : ℕ)
  | moveToOrbit (number : ℕ)
  | focus (direction : Dir)
  | swap (direction : Dir)
  | banish
  | stow
  | fullscreen
  | setLayout (layout : Layout)
  | undo
  | reloadTheme
  | spawn (argv : List String)
  | showLedger (selected : Option ℕ)
  | quit
  deriving DecidableEq

structure LedgerEntry where
  id : WinId
  appId : String
  title : String
  focused : Bool
  stowed : Bool
  deriving DecidableEq

structure OrbitLedger where
  orbit : ℕ
  rune : String
  name : String
  active : Bool
  layout : Layout
  windows : List LedgerEntry
  deriving DecidableEq

/-- Replies.  Of the health facts only the uptime changes while the daemon runs. -/
inductive Response where
  | hello (version : ℕ) (session : String)
  | ok
  | state (state : RealmState)
  | keymap (keymap : Keymap)
  | health (uptimeMs : ℕ)
  | ledger (orbits : List OrbitLedger)
  | error (kind : ErrorKind) (message : String)

inductive Event where
  | state (state : RealmState)
  | shutdown

/-- How a line reads: as a request, as other JSON, or not at all. -/
inductive DecodedFrame where
  | request (request : Request)
  | validNonRequest
  | invalid
  deriving DecidableEq

end Ipc

/-- The JSON library on the values of the protocol. -/
class IpcJson where
  response : Ipc.Response → Bytes
  event : Ipc.Event → Bytes
  decodeFrame : Bytes → Ipc.DecodedFrame

namespace Ipc

variable {json bytes : Bytes}

/-- A frame, unless the text is too long. -/
def encode (json : Bytes) : Option Bytes :=
  if json.length ≤ maxFrameBytes - 1 then some (json ++ [lf]) else none

theorem getLast?_of_encode (h : encode json = some bytes) : bytes.getLast? = some lf := by
  unfold encode at h
  split at h
  · rw [← Option.some.inj h, List.getLast?_concat]
  · simp at h

theorem length_of_encode (h : encode json = some bytes) : bytes.length ≤ maxFrameBytes := by
  unfold encode maxFrameBytes at *
  split at h
  · rw [← Option.some.inj h, List.length_append, List.length_singleton]
    omega
  · simp at h

variable [IpcJson]

def encodeResponse (response : Response) : Option Bytes := encode (IpcJson.response response)

def encodeEvent (event : Event) : Option Bytes := encode (IpcJson.event event)

end Ipc

end Realm
