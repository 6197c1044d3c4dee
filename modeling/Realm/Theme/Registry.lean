import Realm.Theme.Encoding

/-!
# The records of the activation registry

The registry holds one record for the session that runs and one for each launch.  They are
line-oriented like the records of the generation store, at most 4096 bytes long, and their
parsers also check that the fields agree with each other.
-/

namespace Realm.Theme

open Text

def maxRecordBytes : ℕ := 4096

/-! ## Identities -/

/-- A 128-bit identity. -/
structure ActivationId where
  bytes : Bytes
  length_eq : bytes.length = 16
  deriving DecidableEq

abbrev SessionId := ActivationId

abbrev LaunchId := ActivationId

namespace ActivationId

def hexDigit (n : ℕ) : Byte := (ascii "0123456789abcdef")[n]?.getD 0

def hexNibble (b : Byte) : ℕ := if isDigit b then b.val - 48 else b.val - 97 + 10

/-- The bytes that pairs of digits spell. -/
def ofPairs : Bytes → Bytes
  | high :: low :: rest => Fin.ofNat 256 (hexNibble high * 16 + hexNibble low) :: ofPairs rest
  | _ => []

theorem length_ofPairs : ∀ text : Bytes, (ofPairs text).length = text.length / 2
  | [] => rfl
  | [_] => by simp [ofPairs]
  | _ :: _ :: rest => by
    simp only [ofPairs, List.length_cons, length_ofPairs rest]
    omega

def parse (value : Bytes) (field : String) : Except String ActivationId :=
  if h : lowerHex32 value = true then
    .ok ⟨ofPairs value, by
      simp only [lowerHex32, Bool.and_eq_true, decide_eq_true_eq] at h
      rw [length_ofPairs, h.1]⟩
  else .error (field ++ " must be 128-bit lowercase hex")

def encodeByte (b : Byte) : Bytes := [hexDigit (b.val / 16), hexDigit (b.val % 16)]

def encode (id : ActivationId) : Bytes := id.bytes.flatMap encodeByte

end ActivationId

def readField {α : Type} (name : String) (read : Bytes → Except String α) (ls : List Bytes) :
    Except String (α × List Bytes) := do
  let (value, ls) ← recordValue name ls
  let a ← read value
  return (a, ls)

def tested (test : Bytes → Bool) (message : String) (value : Bytes) : Except String Bytes := do
  check (test value) message
  return value

def positiveU32 (value : Bytes) (field : String) : Except String U32 := do
  let n ← canonicalU32 value field
  check (n ≠ 0) (field ++ " must be positive")
  return n

def parseName {α : Type} (values : List α) (name : α → String) (value : Bytes)
    (message : String) : Except String α :=
  okOr (values.find? fun a => ascii (name a) = value) message

def lowerHex (value : Bytes) (length : ℕ) : Bool := value.length = length && value.all isLowerHex

/-! ## The session record -/

inductive SessionState where
  | claimed
  | preparing
  | active
  | admissionFrozen
  | helpersStopped
  | cleanupDelegated
  | closed
  deriving DecidableEq

def SessionState.name : SessionState → String
  | claimed => "claimed"
  | preparing => "preparing"
  | active => "active"
  | admissionFrozen => "admission-frozen"
  | helpersStopped => "helpers-stopped"
  | cleanupDelegated => "cleanup-delegated"
  | closed => "closed"

def SessionState.all : List SessionState :=
  [claimed, preparing, active, admissionFrozen, helpersStopped, cleanupDelegated, closed]

inductive HelperMode where
  | none
  | systemd
  | direct
  deriving DecidableEq

def HelperMode.name : HelperMode → String
  | none => "none"
  | systemd => "systemd"
  | direct => "direct"

def HelperMode.all : List HelperMode := [none, systemd, direct]

structure SessionRecord where
  session : SessionId
  sequence : U64
  state : SessionState
  ownerUid : U32
  bootId : Bytes
  entryPid : U32
  entryStartTime : U64
  compositorPid : U32
  compositorStartTime : U64
  helperMode : HelperMode
  wmPid : U32
  wmStartTime : U64
  wmProcessGroup : U32
  barPid : U32
  barStartTime : U64
  barProcessGroup : U32
  deriving DecidableEq

/-- The process is known with its start time and leads its group. -/
def identityTripleValid (pid : U32) (startTime : U64) (processGroup : U32) : Bool :=
  pid ≠ 0 && startTime ≠ 0 && processGroup = pid

def identityTripleAbsent (pid : U32) (startTime : U64) (processGroup : U32) : Bool :=
  pid = 0 && startTime = 0 && processGroup = 0

def identityTripleAbsentOrComplete (pid : U32) (startTime : U64) (processGroup : U32) : Bool :=
  identityTripleAbsent pid startTime processGroup || identityTripleValid pid startTime processGroup

namespace SessionRecord

def encode (r : SessionRecord) : Bytes :=
  unlines [ascii "realm-activation-session-v1",
    recordLine "session" r.session.encode,
    recordLine "sequence" (decimal r.sequence),
    recordLine "state" (ascii r.state.name),
    recordLine "owner-uid" (decimal r.ownerUid),
    recordLine "boot-id" r.bootId,
    recordLine "entry-pid" (decimal r.entryPid),
    recordLine "entry-start-time" (decimal r.entryStartTime),
    recordLine "compositor-pid" (decimal r.compositorPid),
    recordLine "compositor-start-time" (decimal r.compositorStartTime),
    recordLine "helper-mode" (ascii r.helperMode.name),
    recordLine "wm-pid" (decimal r.wmPid),
    recordLine "wm-start-time" (decimal r.wmStartTime),
    recordLine "wm-process-group" (decimal r.wmProcessGroup),
    recordLine "bar-pid" (decimal r.barPid),
    recordLine "bar-start-time" (decimal r.barStartTime),
    recordLine "bar-process-group" (decimal r.barProcessGroup)]

/-- The helpers are known as their mode says. -/
def checkHelpers (r : SessionRecord) : Except String Unit :=
  let absent := identityTripleAbsent r.wmPid r.wmStartTime r.wmProcessGroup &&
    identityTripleAbsent r.barPid r.barStartTime r.barProcessGroup
  match r.helperMode with
  | .none => do
    check absent "helper-mode none contains helper identities"
    check (r.state ≠ .active) "active session cannot have helper-mode none"
  | .systemd => check absent "systemd helper mode contains direct identities"
  | .direct =>
    if identityTripleValid r.wmPid r.wmStartTime r.wmProcessGroup &&
        identityTripleValid r.barPid r.barStartTime r.barProcessGroup then .ok ()
    else do
      check (r.state ≠ .active) "active direct session lacks helper identities"
      check (identityTripleAbsentOrComplete r.wmPid r.wmStartTime r.wmProcessGroup &&
          identityTripleAbsentOrComplete r.barPid r.barStartTime r.barProcessGroup)
        "direct helper identity is incomplete"

/-- The identities are known as the state says. -/
def checkIdentities (r : SessionRecord) : Except String Unit := do
  check ((r.compositorPid = 0) = (r.compositorStartTime = 0))
    "session compositor identity is incomplete"
  check (r.state ≠ .claimed ||
      (r.compositorPid = 0 && r.compositorStartTime = 0 && r.helperMode = .none))
    "claimed session contains unpublished identities"
  check (!(r.state = .preparing || r.state = .active) ||
      (r.compositorPid ≠ 0 && r.compositorStartTime ≠ 0 && r.helperMode ≠ .none))
    "preparing or active session lacks published identities"
  check ((r.compositorPid = 0) = (r.helperMode = .none))
    "session helper mode lacks its compositor publication boundary"
  r.checkHelpers

def parse (raw : Bytes) : Except String SessionRecord := do
  check (raw.length ≤ maxRecordBytes) "session record exceeds 4096 bytes"
  let lines ← recordLines "session record" raw
  check (lines.head? = some (ascii "realm-activation-session-v1"))
    "unsupported session record version"
  let (session, lines) ← readField "session" (ActivationId.parse · "session id") lines.tail
  let (sequence, lines) ← readField "sequence" (canonicalPositiveU64 · "session sequence") lines
  let (state, lines) ← readField "state"
    (parseName SessionState.all SessionState.name · "session state is malformed") lines
  let (ownerUid, lines) ← readField "owner-uid" (canonicalU32 · "session owner UID") lines
  let (bootId, lines) ← readField "boot-id"
    (tested canonicalBootId "session boot ID is malformed") lines
  let (entryPid, lines) ← readField "entry-pid" (positiveU32 · "session entry PID") lines
  let (entryStartTime, lines) ← readField "entry-start-time"
    (canonicalPositiveU64 · "session entry start time") lines
  let (compositorPid, lines) ← readField "compositor-pid"
    (canonicalU32 · "session compositor PID") lines
  let (compositorStartTime, lines) ← readField "compositor-start-time"
    (canonicalU64 · "session compositor start time") lines
  let (helperMode, lines) ← readField "helper-mode"
    (parseName HelperMode.all HelperMode.name · "session helper mode is malformed") lines
  let (wmPid, lines) ← readField "wm-pid" (canonicalU32 · "session WM PID") lines
  let (wmStartTime, lines) ← readField "wm-start-time"
    (canonicalU64 · "session WM start time") lines
  let (wmProcessGroup, lines) ← readField "wm-process-group"
    (canonicalU32 · "session WM process group") lines
  let (barPid, lines) ← readField "bar-pid" (canonicalU32 · "session bar PID") lines
  let (barStartTime, lines) ← readField "bar-start-time"
    (canonicalU64 · "session bar start time") lines
  let (barProcessGroup, lines) ← readField "bar-process-group"
    (canonicalU32 · "session bar process group") lines
  check (lines = []) "session record has extra or duplicate fields"
  let record : SessionRecord := ⟨session, sequence, state, ownerUid, bootId, entryPid,
    entryStartTime, compositorPid, compositorStartTime, helperMode, wmPid, wmStartTime,
    wmProcessGroup, barPid, barStartTime, barProcessGroup⟩
  record.checkIdentities
  return record

end SessionRecord

/-! ## The launch record -/

inductive OwnershipMode where
  | direct
  | systemd
  deriving DecidableEq

def OwnershipMode.name : OwnershipMode → String
  | direct => "process-group"
  | systemd => "systemd-scope"

def OwnershipMode.all : List OwnershipMode := [direct, systemd]

inductive LaunchState where
  | preparing
  | adopted
  | running
  | terminal
  deriving DecidableEq

def LaunchState.name : LaunchState → String
  | preparing => "preparing"
  | adopted => "adopted"
  | running => "running"
  | terminal => "terminal"

def LaunchState.all : List LaunchState := [preparing, adopted, running, terminal]

inductive LaunchResult where
  | none
  | exited
  | failed
  | lost
  deriving DecidableEq

def LaunchResult.name : LaunchResult → String
  | none => "none"
  | exited => "exited"
  | failed => "failed"
  | lost => "lost"

def LaunchResult.all : List LaunchResult := [none, exited, failed, lost]

inductive LeaseKind where
  | process
  | lifecycle
  deriving DecidableEq

def LeaseKind.name : LeaseKind → String
  | process => "process"
  | lifecycle => "lifecycle"

def LeaseKind.all : List LeaseKind := [process, lifecycle]

def yesNo : Bool → String
  | true => "yes"
  | false => "no"

def parseYesNo (value : Bytes) (field : String) : Except String Bool :=
  parseName [false, true] yesNo value (field ++ " is malformed")

structure LaunchRecord where
  launch : LaunchId
  session : SessionId
  sequence : U64
  state : LaunchState
  result : LaunchResult
  ownerUid : U32
  bootId : Bytes
  generation : GenerationId
  manifestSha256 : Bytes
  lease : Bytes
  leaseKind : LeaseKind
  ownerPid : U32
  ownerStartTime : U64
  mode : OwnershipMode
  unit : Bytes
  unitInvocation : Bytes
  processGroup : U32
  cgroup : Bytes
  cgroupDevice : U64
  cgroupInode : U64
  execOpen : Bool
  directDrained : Bool
  deriving DecidableEq

/-- The combinations a launch goes through. -/
def producerReachableLaunchTuple (state : LaunchState) (result : LaunchResult)
    (leaseKind : LeaseKind) (mode : OwnershipMode) (execOpen directDrained : Bool) : Bool :=
  match state, leaseKind, mode, result with
  | .preparing, .process, _, .none => !execOpen && !directDrained
  | .adopted, .lifecycle, _, .none => !directDrained
  | .running, .lifecycle, _, .none => execOpen && !directDrained
  | .terminal, .process, _, .failed => !execOpen && !directDrained
  | .terminal, .lifecycle, .systemd, .failed => !directDrained
  | .terminal, .lifecycle, .systemd, .exited => execOpen && !directDrained
  | .terminal, .lifecycle, .direct, .exited => execOpen && directDrained
  | .terminal, .lifecycle, .direct, .lost => execOpen && !directDrained
  | _, _, _, _ => false

namespace LaunchRecord

def encode (r : LaunchRecord) : Bytes :=
  unlines [ascii "realm-activation-launch-v1",
    recordLine "launch" r.launch.encode,
    recordLine "session" r.session.encode,
    recordLine "sequence" (decimal r.sequence),
    recordLine "state" (ascii r.state.name),
    recordLine "result" (ascii r.result.name),
    recordLine "owner-uid" (decimal r.ownerUid),
    recordLine "boot-id" r.bootId,
    recordLine "generation" r.generation.text,
    recordLine "manifest-sha256" r.manifestSha256,
    recordLine "lease" r.lease,
    recordLine "lease-kind" (ascii r.leaseKind.name),
    recordLine "owner-pid" (decimal r.ownerPid),
    recordLine "owner-start-time" (decimal r.ownerStartTime),
    recordLine "owner-kind" (ascii r.mode.name),
    recordLine "unit" r.unit,
    recordLine "unit-invocation" r.unitInvocation,
    recordLine "process-group" (decimal r.processGroup),
    recordLine "cgroup" r.cgroup,
    recordLine "cgroup-device" (decimal r.cgroupDevice),
    recordLine "cgroup-inode" (decimal r.cgroupInode),
    recordLine "exec-open" (ascii (yesNo r.execOpen)),
    recordLine "direct-drained" (ascii (yesNo r.directDrained))]

def scopeUnit (launch : LaunchId) : Bytes :=
  ascii "realm-launch-" ++ launch.encode ++ ascii ".scope"

/-- A systemd launch before its scope is adopted. -/
def preAdoption (r : LaunchRecord) : Bool :=
  r.state = .preparing ||
    (r.state = .terminal && r.result = .failed && r.leaseKind = .process && !r.execOpen)

/-- The owner is known as the mode and the state say. -/
def checkOwnership (r : LaunchRecord) : Except String Unit :=
  match r.mode with
  | .direct => do
    check (r.unit = ascii "none" && r.unitInvocation = ascii "none" &&
        r.processGroup = r.ownerPid && r.cgroup = ascii "none" && r.cgroupDevice = 0 &&
        r.cgroupInode = 0)
      "direct launch ownership is malformed"
    check (!r.directDrained || (r.state = .terminal && r.result = .exited))
      "direct drain witness lacks terminal owner evidence"
  | .systemd => do
    check (r.unit = scopeUnit r.launch && r.processGroup = 0 && !r.directDrained)
      "systemd launch ownership is malformed"
    if r.preAdoption then
      check (r.unitInvocation = ascii "none" && r.cgroup = ascii "none" &&
          r.cgroupDevice = 0 && r.cgroupInode = 0)
        "preparing systemd launch contains adopted identity"
    else
      check (lowerHex32 r.unitInvocation && normalizedCgroupPath r.cgroup &&
          r.cgroupDevice ≠ 0 && r.cgroupInode ≠ 0)
        "adopted systemd launch identity is malformed"

def checkTuple (r : LaunchRecord) : Except String Unit := do
  check (producerReachableLaunchTuple r.state r.result r.leaseKind r.mode r.execOpen
    r.directDrained) "launch state tuple is not producer-reachable"
  r.checkOwnership

def parse (raw : Bytes) : Except String LaunchRecord := do
  check (raw.length ≤ maxRecordBytes) "launch record exceeds 4096 bytes"
  let lines ← recordLines "launch record" raw
  check (lines.head? = some (ascii "realm-activation-launch-v1"))
    "unsupported launch record version"
  let (launch, lines) ← readField "launch" (ActivationId.parse · "launch id") lines.tail
  let (session, lines) ← readField "session" (ActivationId.parse · "session id") lines
  let (sequence, lines) ← readField "sequence" (canonicalPositiveU64 · "launch sequence") lines
  let (state, lines) ← readField "state"
    (parseName LaunchState.all LaunchState.name · "launch state is malformed") lines
  let (result, lines) ← readField "result"
    (parseName LaunchResult.all LaunchResult.name · "launch result is malformed") lines
  let (ownerUid, lines) ← readField "owner-uid" (canonicalU32 · "launch owner UID") lines
  let (bootId, lines) ← readField "boot-id"
    (tested canonicalBootId "launch boot ID is malformed") lines
  let (generation, lines) ← readField "generation" GenerationId.parse lines
  let (manifestSha256, lines) ← readField "manifest-sha256"
    (tested (lowerHex · 64) "launch manifest digest is malformed") lines
  let (lease, lines) ← readField "lease" (tested lowerHex32 "launch lease id is malformed") lines
  let (leaseKind, lines) ← readField "lease-kind"
    (parseName LeaseKind.all LeaseKind.name · "launch lease kind is malformed") lines
  let (ownerPid, lines) ← readField "owner-pid" (positiveU32 · "launch owner PID") lines
  let (ownerStartTime, lines) ← readField "owner-start-time"
    (canonicalPositiveU64 · "launch owner start time") lines
  let (mode, lines) ← readField "owner-kind"
    (parseName OwnershipMode.all OwnershipMode.name · "launch owner kind is malformed") lines
  let (unit, lines) ← recordValue "unit" lines
  let (unitInvocation, lines) ← recordValue "unit-invocation" lines
  let (processGroup, lines) ← readField "process-group"
    (canonicalU32 · "launch process group") lines
  let (cgroup, lines) ← recordValue "cgroup" lines
  let (cgroupDevice, lines) ← readField "cgroup-device"
    (canonicalU64 · "launch cgroup device") lines
  let (cgroupInode, lines) ← readField "cgroup-inode"
    (canonicalU64 · "launch cgroup inode") lines
  let (execOpen, lines) ← readField "exec-open" (parseYesNo · "exec-open") lines
  let (directDrained, lines) ← readField "direct-drained" (parseYesNo · "direct-drained") lines
  check (lines = []) "launch record has extra or duplicate fields"
  let record : LaunchRecord := ⟨launch, session, sequence, state, result, ownerUid, bootId,
    generation, manifestSha256, lease, leaseKind, ownerPid, ownerStartTime, mode, unit,
    unitInvocation, processGroup, cgroup, cgroupDevice, cgroupInode, execOpen, directDrained⟩
  record.checkTuple
  return record

end LaunchRecord

end Realm.Theme
