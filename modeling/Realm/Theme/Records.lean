import Realm.Lib.Guard
import Realm.Lib.SortedMap
import Realm.Lib.Text

/-!
# The records of a generation store

A generation is named by a 128-bit identifier in lowercase hexadecimal.  The store
keeps its facts in small line-oriented records: the pointer that names the
current generation, the order in which generations were published, and the
leases that pin a generation for a process or for a launch.  This module has
their parsers, with the errors they report, and their encoders.
-/

namespace Realm.Theme

open Text

variable {message : String}

/-- A check that reports a message when it fails. -/
def check (passed : Bool) (message : String) : Except String Unit :=
  if passed then .ok () else .error message

@[simp] theorem check_true (message : String) : check true message = .ok () := rfl

theorem check_eq_ok {passed : Bool} {u : Unit} : check passed message = .ok u ↔ passed = true := by
  cases passed with
  | false | true => simp [check]

def okOr {α : Type} (value : Option α) (message : String) : Except String α :=
  match value with
  | some a => .ok a
  | none => .error message

theorem okOr_eq_ok {α : Type} {value : Option α} {a : α} :
    okOr value message = .ok a ↔ value = some a := by
  cases value with
  | none | some => simp [okOr]

/-- A check on a value that may be absent. -/
def whenSome {α : Type} (value : Option α) (test : α → Except String Unit) : Except String Unit :=
  match value with
  | some a => test a
  | none => .ok ()

/-! ## Generation identities -/

/-- An opaque, filesystem-safe generation identity. -/
structure GenerationId where
  text : Bytes
  isHex : text.length = 32 ∧ text.all isLowerHex = true
  deriving DecidableEq

namespace GenerationId

def parse (value : Bytes) : Except String GenerationId :=
  if h : value.length = 32 ∧ value.all isLowerHex = true then .ok ⟨value, h⟩
  else .error "generation id must be 128-bit lowercase hex"

theorem text_injective : Function.Injective text := by
  intro g g' h
  cases g
  cases g'
  congr

/-- Identities compare as their spellings do. -/
instance : LinearOrder GenerationId := LinearOrder.lift' text text_injective

@[simp] theorem parse_text (g : GenerationId) : parse g.text = .ok g := by
  rw [parse, dif_pos g.isHex]

theorem parse_eq_ok {value : Bytes} {g : GenerationId} : parse value = .ok g ↔ value = g.text := by
  constructor
  · intro h
    rw [parse] at h
    split_ifs at h with hhex
    cases h
    rfl
  · rintro rfl
    exact parse_text g

theorem text_ne_nil (g : GenerationId) : g.text ≠ [] := by
  intro h
  have hlength := g.isHex.1
  rw [h] at hlength
  exact absurd hlength (by decide)

end GenerationId

/-- The identity a pointer file names: its spelling and one line feed. -/
def parsePointerRecord (bytes : Bytes) (name : String) : Except String GenerationId :=
  if isUtf8 bytes = false then .error (name ++ " is not UTF-8")
  else if bytes.getLast? = some lf then GenerationId.parse bytes.dropLast
  else .error (name ++ " must end in one LF")

/-- The content of a pointer file. -/
def GenerationId.pointerRecord (g : GenerationId) : Bytes := g.text ++ [lf]

/-! ## Pieces shared by the record formats -/

/-- The lines of a record: UTF-8 text in lines that end in a line feed. -/
def recordLines (record : String) (raw : Bytes) : Except String (List Bytes) := do
  check (isUtf8 raw) (record ++ " is not UTF-8")
  check (cr ∉ raw ∧ raw.getLast? = some lf) (record ++ " must use LF-terminated lines")
  return lines raw

/-- The value of the record `name` on the next line, and the lines after it. -/
def recordValue (name : String) : List Bytes → Except String (Bytes × List Bytes)
  | [] => .error "manifest ended before required record"
  | line :: rest =>
    match stripPrefix (ascii name ++ [space]) line with
    | some value =>
      if value = [] then .error ("expected " ++ name ++ " record") else .ok (value, rest)
    | none => .error ("expected " ++ name ++ " record")

/-- The line of the record `name` with this value. -/
def recordLine (name : String) (value : Bytes) : Bytes := ascii name ++ [space] ++ value

abbrev U32 := Fin (2 ^ 32)

abbrev U64 := Fin (2 ^ 64)

instance u32NeZero : NeZero (2 ^ 32) := inferInstance

instance u64NeZero : NeZero (2 ^ 64) := inferInstance

/-- A number read by the standard parser. -/
def parsed {bound : ℕ} (value : Bytes) (field : String) : Except String (Fin bound) :=
  match parseUnsigned bound value with
  | some n =>
    if h : n < bound then .ok ⟨n, h⟩ else .error (field ++ " is not canonical decimal")
  | none => .error (field ++ " is not canonical decimal")

/-- A numeral with a leading zero that is not zero itself. -/
def hasLeadingZero (value : Bytes) : Bool := 1 < value.length && value.head? = some 48

def canonicalU32 (value : Bytes) (field : String) : Except String U32 :=
  if value = [] ∨ hasLeadingZero value then .error (field ++ " is not canonical decimal")
  else parsed value field

def canonicalU64 (value : Bytes) (field : String) : Except String U64 :=
  if value = [] ∨ value.all isDigit = false ∨ hasLeadingZero value then
    .error (field ++ " is not canonical decimal")
  else parsed value field

def canonicalPositiveU64 (value : Bytes) (field : String) : Except String U64 := do
  let value ← canonicalU64 value field
  if value = 0 then .error (field ++ " must be positive") else .ok value

/-- Groups of lowercase hexadecimal digits joined by hyphens, as the kernel prints
its boot identity. -/
def canonicalBootId (value : Bytes) : Bool :=
  value.length = 36 && value.zipIdx.all fun (b, index) =>
    if index ∈ [8, 13, 18, 23] then b = 45 else isLowerHex b

def lowerHex32 (value : Bytes) : Bool := value.length = 32 && value.all isLowerHex

def isCgroupByte (b : Byte) : Bool :=
  (65 ≤ b && b ≤ 90) || (97 ≤ b && b ≤ 122) || isDigit b || b ∈ ascii "_.:@%+-"

def normalizedCgroupPath (value : Bytes) : Bool :=
  value ≠ [] && value ≠ ascii "none" && (value.splitOn slash).all fun component =>
    component ≠ [] && component ≠ ascii "." && component ≠ ascii ".." &&
      component.all isCgroupByte

/-! ## The publication order -/

/-- The sequence numbers given to generations, and the next one. -/
structure PublicationOrder where
  nextSequence : U64
  sequences : SortedMap GenerationId U64
  deriving DecidableEq

namespace PublicationOrder

def empty : PublicationOrder := ⟨1, .empty⟩

/-- What the parser has read of the generation records. -/
structure Scan where
  sequences : SortedMap GenerationId U64
  usedSequences : List U64
  previous : Option GenerationId

def scanRecord (nextSequence : U64) (scan : Scan) (line : Bytes) : Except String Scan := do
  let fields := line.splitOn space
  check (fields.head? = some (ascii "generation")) "expected publication generation record"
  let field ← okOr fields[1]? "publication generation record lacks an identifier"
  let generation ← GenerationId.parse field
  let field ← okOr fields[2]? "publication generation record lacks a sequence"
  let sequence ← canonicalPositiveU64 field "publication sequence"
  check (fields.length ≤ 3) "publication generation record has extra fields"
  check (scan.previous.all (· < generation))
    "publication generation records are not strictly ordered"
  check (sequence < nextSequence) "publication sequence is not below next sequence"
  check (sequence ∉ scan.usedSequences) "publication sequence is duplicated"
  check (!scan.sequences.containsKey generation) "publication generation is duplicated"
  return ⟨scan.sequences.insert generation sequence, sequence :: scan.usedSequences,
    some generation⟩

def parse (raw : Bytes) : Except String PublicationOrder := do
  let lines ← recordLines "publication order" raw
  check (lines.head? = some (ascii "realm-generation-publication-order-v1"))
    "unsupported publication order version"
  let (value, lines) ← recordValue "next-sequence" lines.tail
  let nextSequence ← canonicalPositiveU64 value "publication next sequence"
  let scan ← lines.foldlM (scanRecord nextSequence) ⟨.empty, [], none⟩
  return ⟨nextSequence, scan.sequences⟩

def entryLine (entry : GenerationId × U64) : Bytes :=
  ascii "generation " ++ entry.1.text ++ [space] ++ decimal entry.2

def encode (order : PublicationOrder) : Bytes :=
  unlines (ascii "realm-generation-publication-order-v1" ::
    recordLine "next-sequence" (decimal order.nextSequence) ::
    order.sequences.entries.map entryLine)

def reserve (order : PublicationOrder) : Except String (U64 × PublicationOrder) :=
  if h : (order.nextSequence : ℕ) + 1 < 2 ^ 64 then
    .ok (order.nextSequence, { order with nextSequence := ⟨order.nextSequence + 1, h⟩ })
  else .error "publication sequence space is exhausted"

end PublicationOrder

/-! ## Leases -/

/-- The lease of a generation by a process, identified by its start time in one boot. -/
structure LeaseRecord where
  generation : GenerationId
  pid : U32
  startTime : U64
  bootId : Bytes
  ownerUid : U32
  bootId_canonical : canonicalBootId bootId = true
  deriving DecidableEq

namespace LeaseRecord

def encode (record : LeaseRecord) : Bytes :=
  unlines [ascii "realm-generation-lease-v1",
    recordLine "generation" record.generation.text,
    recordLine "pid" (decimal record.pid),
    recordLine "start-time" (decimal record.startTime),
    recordLine "boot-id" record.bootId,
    recordLine "owner-uid" (decimal record.ownerUid)]

def parse (raw : Bytes) : Except String LeaseRecord := do
  let lines ← recordLines "generation lease" raw
  check (lines.head? = some (ascii "realm-generation-lease-v1"))
    "unsupported generation lease version"
  let (value, lines) ← recordValue "generation" lines.tail
  let generation ← GenerationId.parse value
  let (value, lines) ← recordValue "pid" lines
  let pid ← canonicalU32 value "lease PID"
  let (value, lines) ← recordValue "start-time" lines
  let startTime ← canonicalU64 value "lease start time"
  let (bootId, lines) ← recordValue "boot-id" lines
  if h : canonicalBootId bootId = true then do
    let (value, lines) ← recordValue "owner-uid" lines
    let ownerUid ← canonicalU32 value "lease owner UID"
    check (lines = []) "generation lease has extra records"
    return ⟨generation, pid, startTime, bootId, ownerUid, h⟩
  else .error "lease boot ID is malformed"

end LeaseRecord

inductive LifecycleOwnerKind where
  | systemdScope
  | processGroup
  deriving DecidableEq

/-- The lease of a generation by a launch, with the owner its processes live in. -/
structure LifecycleLeaseRecord where
  generation : GenerationId
  launch : GenerationId
  pid : U32
  startTime : U64
  bootId : Bytes
  ownerUid : U32
  ownerKind : LifecycleOwnerKind
  unit : Bytes
  unitInvocation : Bytes
  processGroup : U32
  cgroup : Bytes
  cgroupDevice : U64
  cgroupInode : U64
  deriving DecidableEq

namespace LifecycleLeaseRecord

def ownerKindText : LifecycleOwnerKind → Bytes
  | .systemdScope => ascii "systemd-scope"
  | .processGroup => ascii "process-group"

def encode (record : LifecycleLeaseRecord) : Bytes :=
  unlines [ascii "realm-generation-lifecycle-lease-v1",
    recordLine "generation" record.generation.text,
    recordLine "launch" record.launch.text,
    recordLine "pid" (decimal record.pid),
    recordLine "start-time" (decimal record.startTime),
    recordLine "boot-id" record.bootId,
    recordLine "owner-uid" (decimal record.ownerUid),
    recordLine "owner-kind" (ownerKindText record.ownerKind),
    recordLine "unit" record.unit,
    recordLine "unit-invocation" record.unitInvocation,
    recordLine "process-group" (decimal record.processGroup),
    recordLine "cgroup" record.cgroup,
    recordLine "cgroup-device" (decimal record.cgroupDevice),
    recordLine "cgroup-inode" (decimal record.cgroupInode)]

/-- The identity of the owner agrees with its kind. -/
def checkOwner (record : LifecycleLeaseRecord) : Except String Unit :=
  match record.ownerKind with
  | .systemdScope =>
    check (record.processGroup = 0 ∧
        record.unit = ascii "realm-launch-" ++ record.launch.text ++ ascii ".scope" ∧
        lowerHex32 record.unitInvocation ∧ normalizedCgroupPath record.cgroup ∧
        record.cgroupDevice ≠ 0 ∧ record.cgroupInode ≠ 0)
      "systemd lifecycle lease identity is malformed"
  | .processGroup =>
    check (record.unit = ascii "none" ∧ record.unitInvocation = ascii "none" ∧
        record.processGroup = record.pid ∧ record.cgroup = ascii "none" ∧
        record.cgroupDevice = 0 ∧ record.cgroupInode = 0)
      "process group lifecycle lease identity is malformed"

def parseOwnerKind (value : Bytes) : Except String LifecycleOwnerKind :=
  if value = ascii "systemd-scope" then .ok .systemdScope
  else if value = ascii "process-group" then .ok .processGroup
  else .error "lifecycle lease owner kind is malformed"

def parse (raw : Bytes) : Except String LifecycleLeaseRecord := do
  let lines ← recordLines "lifecycle lease" raw
  check (lines.head? = some (ascii "realm-generation-lifecycle-lease-v1"))
    "unsupported lifecycle lease version"
  let (value, lines) ← recordValue "generation" lines.tail
  let generation ← GenerationId.parse value
  let (value, lines) ← recordValue "launch" lines
  let launch ← GenerationId.parse value
  let (value, lines) ← recordValue "pid" lines
  let pid ← canonicalU32 value "lifecycle lease PID"
  check (pid ≠ 0) "lifecycle lease PID must be positive"
  let (value, lines) ← recordValue "start-time" lines
  let startTime ← canonicalPositiveU64 value "lifecycle lease start time"
  let (bootId, lines) ← recordValue "boot-id" lines
  check (canonicalBootId bootId) "lifecycle lease boot ID is malformed"
  let (value, lines) ← recordValue "owner-uid" lines
  let ownerUid ← canonicalU32 value "lifecycle lease owner UID"
  let (value, lines) ← recordValue "owner-kind" lines
  let ownerKind ← parseOwnerKind value
  let (unit, lines) ← recordValue "unit" lines
  let (unitInvocation, lines) ← recordValue "unit-invocation" lines
  let (value, lines) ← recordValue "process-group" lines
  let processGroup ← canonicalU32 value "lifecycle lease process group"
  let (cgroup, lines) ← recordValue "cgroup" lines
  let (value, lines) ← recordValue "cgroup-device" lines
  let cgroupDevice ← canonicalU64 value "lifecycle lease cgroup device"
  let (value, lines) ← recordValue "cgroup-inode" lines
  let cgroupInode ← canonicalU64 value "lifecycle lease cgroup inode"
  check (lines = []) "lifecycle lease has extra records"
  let record : LifecycleLeaseRecord := ⟨generation, launch, pid, startTime, bootId, ownerUid,
    ownerKind, unit, unitInvocation, processGroup, cgroup, cgroupDevice, cgroupInode⟩
  record.checkOwner
  return record

end LifecycleLeaseRecord

inductive ParsedLeaseRecord where
  | process (record : LeaseRecord)
  | lifecycle (record : LifecycleLeaseRecord)
  deriving DecidableEq

namespace ParsedLeaseRecord

/-- The first line says which kind of lease it is. -/
def parse (raw : Bytes) : Except String ParsedLeaseRecord :=
  if (raw.splitOn lf).head? = some (ascii "realm-generation-lease-v1") then
    (LeaseRecord.parse raw).map process
  else if (raw.splitOn lf).head? = some (ascii "realm-generation-lifecycle-lease-v1") then
    (LifecycleLeaseRecord.parse raw).map lifecycle
  else .error "unsupported generation lease version"

def encode : ParsedLeaseRecord → Bytes
  | process record => record.encode
  | lifecycle record => record.encode

def generation : ParsedLeaseRecord → GenerationId
  | process record => record.generation
  | lifecycle record => record.generation

end ParsedLeaseRecord

end Realm.Theme
