import Realm.Lib.Map
import Realm.Core.Layout
import Realm.Core.State

/-!
# The window-management contract

The vocabulary between the session and a compositor backend: identities, policy
turns and responses, events, errors and the limits both sides count against.  A
backend is a type with the operations of `WmBackend`; each takes the backend
state and returns the result next to the new state, and a failed call may have
changed the state too.
-/

namespace Realm

/-- A compositor window identity: 1 to 32 printable ASCII bytes. -/
structure BackendWindowId where
  text : String
  valid : 1 ≤ text.utf8ByteSize ∧ text.utf8ByteSize ≤ 32 ∧
    text.toList.all (fun c => 0x20 ≤ c.val && c.val ≤ 0x7e) = true
deriving DecidableEq

namespace BackendWindowId

def new (text : String) : Option BackendWindowId :=
  if h : 1 ≤ text.utf8ByteSize ∧ text.utf8ByteSize ≤ 32 ∧
      text.toList.all (fun c => 0x20 ≤ c.val && c.val ≤ 0x7e) = true then
    some ⟨text, h⟩
  else none

def len (id : BackendWindowId) : ℕ := id.text.utf8ByteSize

end BackendWindowId

/-- The kinds of nonzero numeric identities. -/
inductive IdKind where
  | ticket
  | policyTurn
  | binding

def IdKind.bits : IdKind → ℕ
  | ticket => 64
  | policyTurn => 64
  | binding => 32

/-- A nonzero numeric identity. -/
structure NonZeroId (kind : IdKind) where
  raw : ℕ
  pos : 0 < raw
  lt : raw < 2 ^ kind.bits
deriving DecidableEq

def NonZeroId.new {kind : IdKind} (raw : ℕ) : Option (NonZeroId kind) :=
  if h : 0 < raw ∧ raw < 2 ^ kind.bits then some ⟨raw, h.1, h.2⟩ else none

abbrev BackendTicket := NonZeroId .ticket

abbrev BackendPolicyTurnId := NonZeroId .policyTurn

abbrev BackendBindingId := NonZeroId .binding

instance bindingLawful : LawfulBEq BackendBindingId := inferInstance

inductive BackendModifier where
  | shift
  | control
  | alt
  | super
deriving DecidableEq

def BackendModifier.rank : BackendModifier → ℕ
  | shift => 0
  | control => 1
  | alt => 2
  | super => 3

def u64Max : ℕ := 2 ^ 64 - 1

def maxManagedWindows : ℕ := 256
def maxConfiguredBindings : ℕ := 64
def maxPolicyEvents : ℕ := 256
def maxStagedEffects : ℕ := 256
def maxPolicyTextBytes : ℕ := 65535
def maxBackendOutputs : ℕ := 16
def maxBackendSeats : ℕ := 16
def maxBackendInputDevices : ℕ := 64
def maxBackendLibinputDevices : ℕ := 64
def maxVisibleAppIdJsonBytes : ℕ := 40
def maxVisibleTitleJsonBytes : ℕ := 80
def keyRepeatRateHz : ℕ := 25
def keyRepeatDelayMs : ℕ := 600
def maxReplayPolicyEvents : ℕ := maxManagedWindows + 3

structure BackendBindingSpec where
  id : BackendBindingId
  keysym : String
  modifiers : List BackendModifier
deriving DecidableEq

/-- One fact of a policy turn. -/
inductive BackendPolicyEvent where
  | initialReplayComplete
  | windowOpened (backendId : BackendWindowId) (appId title : String)
  | windowClosed (backendId : BackendWindowId)
  | titleChanged (backendId : BackendWindowId) (title : String)
  | focusChanged (focus : Option BackendWindowId)
  | exclusiveFocusChanged (exclusive : Bool)
  | workareaChanged (workarea : Workarea)
  | geometryDrifted (backendId : BackendWindowId) (rect : Rect)
  | bindingPressed (id : BackendBindingId)
  | bindingReleased (id : BackendBindingId)
  | bindingRepeatStopped (id : BackendBindingId)
  | unboundKeyEaten
  | modifiersChanged (old new : List BackendModifier)
deriving DecidableEq

structure BackendPolicyTurn where
  id : BackendPolicyTurnId
  drains : Option BackendTicket
  events : List BackendPolicyEvent
deriving DecidableEq

inductive BackendNextKeyEdge where
  | preserve
  | ensure
  | cancel
deriving DecidableEq

structure BackendBindingState where
  enabled : List BackendBindingId
  watchedModifiers : List BackendModifier
  nextKeyEdge : BackendNextKeyEdge
deriving DecidableEq

structure BackendPolicyResponse where
  projection : Option (List Placement)
  closes : List WinId
  bindings : BackendBindingState
deriving DecidableEq

structure BackendExitPolicy where
  enabled : List BackendBindingId
  watchedModifiers : List BackendModifier
deriving DecidableEq

inductive BackendSubmission where
  | complete
  | pending
deriving DecidableEq

structure BackendPollInterest where
  immediate : Bool
  readable : Bool
  writable : Bool
deriving DecidableEq

structure BackendReady where
  readable : Bool
  terminal : Bool
  writable : Bool
deriving DecidableEq

inductive BackendProtocolErrorKind where
  | truncatedPayload
  | truncatedAncillary
  | invalidFraming
  | invalidObjectOrder
deriving DecidableEq

inductive BackendCapacityResource where
  | managedWindows
  | configuredBindings
  | outputs
  | seats
  | inputDevices
  | libinputDevices
  | objectOrdinals
  | policyFacts
  | policyEffects
  | policyTextBytes
  | retainedBytes
  | retainedDescriptors
  | policyTurnIds
deriving DecidableEq

inductive BackendError where
  | unsupported (capability : String)
  | disconnected
  | unavailable (message : String)
  | io (message : String)
  | protocol (kind : BackendProtocolErrorKind)
  | capacity (resource : BackendCapacityResource) (limit : ℕ)
deriving DecidableEq

inductive BackendContractError where
  | unknownWindow (backendId : BackendWindowId)
  | conflictingBackendIdentity
  | conflictingRealmIdentity
  | unknownWindowReference
  | unknownBinding (id : BackendBindingId)
  | nonCanonicalModifiers
  | invalidPolicySequence
deriving DecidableEq

abbrev BackendResult (α : Type) := Except BackendError α

/-- A public backend event. -/
inductive BackendEvent where
  | policyTurn (turn : BackendPolicyTurn)
  | operationCompleted (ticket : BackendTicket) (result : BackendResult Unit)
  | retainedObservationsDrained (ticket : BackendTicket)
  | disconnected
deriving DecidableEq

/-- The operations of a compositor backend.  What connecting reports about
capabilities and interfaces is left out, and so is the event descriptor. -/
class WmBackend (B : Type) where
  connect : B → BackendResult Unit × B
  assignWindow : B → BackendWindowId → WinId → Except BackendContractError Unit × B
  configureBindings : B → List BackendBindingSpec → BackendResult Unit × B
  requestPolicyTurn : B → BackendResult Unit × B
  respondPolicyTurn : B → BackendPolicyTurnId → BackendTicket → BackendPolicyResponse →
    BackendResult BackendSubmission × B
  beginExitSession : B → BackendExitPolicy → BackendResult Unit × B
  pollInterest : B → BackendPollInterest
  service : B → BackendReady → ℕ → BackendResult (Option BackendEvent) × B

end Realm
