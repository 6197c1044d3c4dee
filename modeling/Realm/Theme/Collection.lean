import Realm.Theme.Operations

/-!
# Leases and the collection of old generations

A process that uses a generation leaves a lease with its identity.  The collection
removes the leases of processes that are gone and then every generation that is not
current, not leased and not one of the two published last; it removes no generation
at all when anything it reads is malformed or uncertain.
-/

namespace Realm.Theme

open Text Prog

/-! ## Processes -/

/-- What `/proc` shows of one process. -/
structure ProcessEntry where
  uid : Except String U32
  startTime : Except String U64

/-- What the system answers about its boot and its processes. -/
structure Environment where
  bootId : Except String { id : Bytes // canonicalBootId id = true }
  processes : Except String (U32 → Except String ProcessEntry)

inductive LeaseLiveness where
  | live
  | stale
  | uncertain
  deriving DecidableEq

namespace LeaseRecord

/-- Whether the process that holds a lease still runs. -/
def liveness (env : Environment) (record : LeaseRecord) : LeaseLiveness :=
  match env.bootId with
  | .error _ => .uncertain
  | .ok bootId =>
    if record.bootId ≠ bootId.1 then .stale
    else
      match env.processes with
      | .error _ => .uncertain
      | .ok processes =>
        match processes record.pid with
        | .error error => if error = Errno.noEntry then .stale else .uncertain
        | .ok process =>
          match process.uid with
          | .error _ => .uncertain
          | .ok uid =>
            if uid ≠ record.ownerUid then .uncertain
            else
              match process.startTime with
              | .ok startTime => if startTime = record.startTime then .live else .stale
              | .error error => if error = Errno.noEntry then .stale else .uncertain

end LeaseRecord

/-! ## Reading the leases -/

def maxLeaseInventoryEntries : ℕ := 4096

def maxLeaseInventoryBytes : ℕ := 16 * 1024 * 1024

def maxLeaseBytes : ℕ := 4096

def leaseTransferPrefix : Bytes := ascii ".lease-transfer-"

structure GcLeaseInventoryPreflight where
  canonicalNames : List Bytes
  hasTransferStage : Bool

/-- The counters of the scan over the leases. -/
structure LeaseScan where
  canonicalNames : List Bytes
  hasTransferStage : Bool
  inventoryEntries : ℕ
  inventoryBytes : ℕ

def scanLease (uid : ℕ) (scan : LeaseScan) (name : Bytes) (file : File) :
    Except String LeaseScan := do
  let scan := { scan with
    inventoryEntries := scan.inventoryEntries + 1
    inventoryBytes := scan.inventoryBytes + file.bytes.length }
  check (scan.inventoryEntries ≤ maxLeaseInventoryEntries ∧
      scan.inventoryBytes ≤ maxLeaseInventoryBytes)
    "generation lease inventory exceeds its scan bounds"
  validateOwnedMode "generation lease inventory entry" file .regularFile 0o600 uid
  check (file.bytes.length ≤ maxLeaseBytes) "generation lease inventory entry exceeds 4096 bytes"
  check (isUtf8 name) "generation lease inventory name is not UTF-8"
  if leaseTransferPrefix <+: name then return { scan with hasTransferStage := true }
  else if (GenerationId.parse name).isOk then
    return { scan with canonicalNames := scan.canonicalNames ++ [name] }
  else .error "generation lease inventory contains an unknown name"

def gcLeaseInventoryPreflight (store : Store) : Except String GcLeaseInventoryPreflight := do
  let scan ← store.leases.entries.foldlM
    (fun scan entry => scanLease store.uid scan entry.1 entry.2) ⟨[], false, 0, 0⟩
  return ⟨scan.canonicalNames, scan.hasTransferStage⟩

/-- The record of a lease, in its canonical form. -/
def readValidatedLeaseInventoryEntry (store : Store) (name : Bytes) :
    Except String ParsedLeaseRecord := do
  let file ← okOr (store.leases.lookup name) Errno.noEntry
  validateOwnedMode "generation lease inventory entry" file .regularFile 0o600 store.uid
  check (file.bytes.length ≤ maxLeaseBytes) "generation lease inventory entry exceeds 4096 bytes"
  let record ← ParsedLeaseRecord.parse file.bytes
  check (record.encode = file.bytes) "generation lease inventory entry is not canonical"
  return record

/-- What the leases say: the generations held, the leases of processes that are gone, and
whether any lease is in doubt. -/
structure LeaseSurvey where
  liveGenerations : List GenerationId
  staleLeases : List Bytes
  uncertain : Bool

def surveyLease (store : Store) (observed : Bytes → Environment) (survey : LeaseSurvey)
    (name : Bytes) : LeaseSurvey :=
  match readValidatedLeaseInventoryEntry store name with
  | .error _ => { survey with uncertain := true }
  | .ok (.process record) =>
    match record.liveness (observed name) with
    | .live => { survey with liveGenerations := record.generation :: survey.liveGenerations }
    | .stale => { survey with staleLeases := survey.staleLeases ++ [name] }
    | .uncertain =>
      { survey with
        liveGenerations := record.generation :: survey.liveGenerations, uncertain := true }
  | .ok (.lifecycle record) =>
    { survey with
      liveGenerations := record.generation :: survey.liveGenerations, uncertain := true }

/-! ## Collection -/

structure GenerationGcReport where
  reclaimedLeases : ℕ
  reclaimedGenerations : ℕ

def unlinkStaleLeases : List Bytes → Run ℕ
  | [] => pure 0
  | lease :: rest => do
    match ← attempt (issue (.unlink (.lease lease))) with
    | .ok () => do
      issue (.sync .leases)
      let reclaimed ← unlinkStaleLeases rest
      return reclaimed + 1
    | .error error =>
      if error = Errno.noEntry then unlinkStaleLeases rest else throw error

/-- The leases reclaimed, the generations held, and whether a lease is in doubt.
`observed` is what the system answers when each lease is looked at. -/
def reclaimStaleLeasesLocked (observed : Bytes → Environment) :
    Run (ℕ × List GenerationId × Bool) := do
  let store ← view
  match gcLeaseInventoryPreflight store with
  | .error _ => return (0, [], true)
  | .ok preflight =>
    if preflight.hasTransferStage then return (0, [], true)
    else
      let survey := preflight.canonicalNames.foldl (surveyLease store observed) ⟨[], [], false⟩
      if survey.uncertain then return (0, survey.liveGenerations, true)
      else do
        let reclaimed ← unlinkStaleLeases survey.staleLeases
        return (reclaimed, survey.liveGenerations, false)

variable [Sha256]

/-- What the collection makes of one entry of `generations`: nothing to do, a candidate
with its sequence, or (no answer) a malformed entry. -/
def gcEntry (store : Store) (live : List GenerationId) (order : PublicationOrder) (name : Bytes)
    (tree : Tree) : Option (Option (U64 × GenerationId)) :=
  match GenerationId.parse name with
  | .error _ => none
  | .ok generation =>
    if isUtf8 name = false ∨ tree.lookup [] ≠ some .directory ∨
        (store.validateGeneration generation).isOk = false then none
    else if generation ∈ live then some none
    else
      match order.sequences.get generation with
      | some sequence => some (some (sequence, generation))
      | none => none

/-- The generations that may be collected, the latest first. -/
def gcCandidates (store : Store) (live : List GenerationId) (order : PublicationOrder) :
    Option (List (U64 × GenerationId)) := do
  let entries ← store.generations.entries.mapM fun entry =>
    gcEntry store live order entry.1 entry.2
  return (entries.filterMap id).mergeSort fun a b => b.1 ≤ a.1

/-- What keeps a generation besides its leases: the current one and, while the change to
it is still marked, the one before.  No answer when the pointer is in doubt. -/
def gcPinned (inventory : PointerJournalInventory) : Option (List GenerationId) :=
  match inventory.state, inventory.current with
  | .clean, some current => some [current]
  | .cleanupCommitted _ previous, some current => some (previous.toList ++ [current])
  | _, _ => none

/-- The generations to remove from this store, or nothing if anything is in doubt. -/
def gcDoomed (store : Store) (live : List GenerationId) : Option (List GenerationId) := do
  let inventory ← store.inspectPointerJournals.toOption
  let pinned ← gcPinned inventory
  let staged ← (validateOptionalControl store ".publication-order" orderStagingName).toOption
  if staged then none
  else do
    let order ← store.loadPublicationOrder.toOption
    (store.validatePublicationOrderComplete order).toOption
    let candidates ← gcCandidates store (pinned ++ live) order
    return (candidates.drop 2).map (·.2)

def removeGenerations (generations : List GenerationId) : Run Unit :=
  forM generations fun generation => do
    removeTree generation.text
    issue (.sync .generations)

/-- Remove only provably stale leases and old valid unleased generations. -/
def garbageCollect (observed : Bytes → Environment) : Run GenerationGcReport := do
  let (reclaimed, live, uncertain) ← reclaimStaleLeasesLocked observed
  if uncertain then return ⟨reclaimed, 0⟩
  else do
    let store ← view
    match gcDoomed store live with
    | none => return ⟨reclaimed, 0⟩
    | some doomed => do
      removeGenerations doomed
      return ⟨reclaimed, doomed.length⟩

/-! ## Selection -/

/-- The current generation, if no pointer change has to be undone first. -/
def PointerJournalInventory.selected (inventory : PointerJournalInventory) :
    Except String GenerationId :=
  match inventory.state with
  | .clean | .cleanupCommitted _ _ => okOr inventory.current "current generation is absent"
  | _ => .error "pointer transaction requires exclusive recovery"

def Store.selectCurrent (store : Store) : Except String GenerationId := do
  let inventory ← store.inspectPointerJournals
  let generation ← inventory.selected
  store.validateGeneration generation
  return generation

end Realm.Theme
