import Mathlib.Data.Finset.Insert
import Realm.Theme.Store

/-!
# The operations of the store

Each operation is a program of filesystem calls run under the store's lock:
publishing a generation, rolling back to one and recovering an interrupted pointer
change.
-/

namespace Realm.Theme

open Text Prog

abbrev Run := Prog Store Call String

/-! ## Writing and removing files -/

def writeSyncedFile (place : Place) (bytes : Bytes) : Run Unit := do
  issue (.create place)
  forM bytes fun byte => issue (.append place byte)
  issue (.syncFile place)

def makeDirectory (name : Bytes) (directory : List Bytes) : Run Unit := do
  match ← attempt (issue (.mkdir name directory)) with
  | .ok () => issue (.syncTree name directory.dropLast)
  | .error error => if error = Errno.exist then pure () else throw error

/-- Write one output of the tree `generations/name` with the directories it needs. -/
def writeOutput (name path bytes : Bytes) : Run Unit := do
  forM (leadingDirectories (components path)) (makeDirectory name)
  writeSyncedFile (.tree name (components path)) bytes
  issue (.syncTree name (components path).dropLast)

/-- Remove what lies at a path of a tree, the entries of a directory first.  The
fuel bounds the depth. -/
def removeTreeAt (name : Bytes) : ℕ → List Bytes → Run Unit
  | 0, _ => throw Errno.noEntry
  | fuel + 1, path => do
    let store ← view
    let tree ← store.tree name
    match tree.lookup path with
    | some .directory => do
      forM (tree.children path) fun child => removeTreeAt name fuel (path ++ [child])
      issue (.syncTree name path)
      issue (.rmdir name path)
    | some _ => issue (.unlink (.tree name path))
    | none => throw Errno.noEntry

/-- A bound on the depth of a tree. -/
def Tree.height (tree : Tree) : ℕ := (tree.entries.keys.map List.length).foldr max 0 + 1

def removeTree (name : Bytes) : Run Unit := do
  let store ← view
  let tree ← store.tree name
  removeTreeAt name tree.height []

/-! ## Recovery -/

def isStagingName (name : Bytes) : Bool :=
  isUtf8 name && stagingPrefix <+: name &&
    (GenerationId.parse (name.drop stagingPrefix.length)).isOk

def cleanStaging : Run Unit := do
  let store ← view
  forM (store.generations.keys.filter fun name => isStagingName name) removeTree
  issue (.sync .generations)

def cleanPointerStaging (inventory : PointerJournalInventory) : Run Unit := do
  match inventory.state with
  | .clean => pure ()
  | .discardCurrent name => do
    issue (.unlink (.root name))
    issue (.sync .root)
  | .rollbackCurrent name => do
    issue (.rename .root name currentName)
    issue (.sync .root)
  | .rollbackAbsent name => do
    let staging := JournalKind.current.start ++ name.drop JournalKind.absent.start.length
    issue (.rename .root currentName staging)
    issue (.sync .root)
    issue (.unlink (.root name))
    issue (.unlink (.root staging))
    issue (.sync .root)
  | .discardPristine staging name => do
    issue (.unlink (.root name))
    issue (.unlink (.root staging))
    issue (.sync .root)
  | .cleanupCommitted name _ => do
    issue (.unlink (.root name))
    issue (.sync .root)

def cleanPublicationOrderStaging : Run Unit := do
  let store ← view
  let present ← validateOptionalControl store ".publication-order" orderStagingName
  if present then do
    issue (.unlink (.root orderStagingName))
    issue (.sync .root)
  else pure ()

variable [Sha256]

/-- Recover interrupted staging and return the only validated active generation. -/
def recover : Run GenerationId := do
  let store ← view
  let inventory ← store.inspectPointerJournals
  cleanStaging
  cleanPointerStaging inventory
  let store ← view
  store.resolveCurrent

/-! ## Publication -/

/-- A non-error publication result, including explicit filesystem uncertainty. -/
inductive GenerationPublicationOutcome where
  | committed (generation : GenerationId)
  | committedWithCleanupPending (generation : GenerationId) (cause : String)
  | outcomeAmbiguous (candidate : GenerationId) (cause : String)

def replacePublicationOrder (order : PublicationOrder) : Run Unit := do
  writeSyncedFile (.root orderStagingName) order.encode
  issue (.rename .root orderStagingName publicationOrderName)
  issue (.sync .root)

/-- Write the pointer to a generation under its journal name; without a pointer in
place an empty marker stands for the absent one. -/
def stagePointer (generation : GenerationId) (hadCurrent : Bool) : Run Unit := do
  writeSyncedFile (.root (JournalKind.current.name generation)) generation.pointerRecord
  if hadCurrent then issue (.sync .root)
  else do
    writeSyncedFile (.root (JournalKind.absent.name generation)) []
    issue (.sync .root)

/-- Put the staged pointer in place.  One that is there already takes its name. -/
def switchPointer (generation : GenerationId) (hadCurrent : Bool) : Run Unit :=
  if hadCurrent then issue (.exchange .root (JournalKind.current.name generation) currentName)
  else issue (.rename .root (JournalKind.current.name generation) currentName)

def switchBack (generation : GenerationId) (hadCurrent : Bool) : Run Unit :=
  if hadCurrent then do
    issue (.exchange .root (JournalKind.current.name generation) currentName)
    issue (.sync .root)
  else do
    issue (.rename .root currentName (JournalKind.current.name generation))
    issue (.unlink (.root (JournalKind.absent.name generation)))
    issue (.sync .root)

/-- Turn the journal of the switch into the mark of its success. -/
def markCommitted (generation : GenerationId) (hadCurrent : Bool) : Run Unit := do
  let journal := if hadCurrent then JournalKind.current.name generation
    else JournalKind.absent.name generation
  issue (.rename .root journal (JournalKind.committed.name generation))
  issue (.sync .root)

def clearCommitted (generation : GenerationId) : Run Unit := do
  issue (.unlink (.root (JournalKind.committed.name generation)))
  issue (.sync .root)

/-- What follows the switch: wait for the disk or undo it, then mark it committed and
take the mark away. -/
def concludeSwitch (generation : GenerationId) (hadCurrent : Bool) :
    Run GenerationPublicationOutcome := do
  match ← attempt (issue (.sync .root)) with
  | .error commitError =>
    match ← attempt (switchBack generation hadCurrent) with
    | .ok () => throw commitError
    | .error rollbackError =>
      let cause := "pointer sync failed (" ++ commitError ++ ") and rollback failed (" ++
        rollbackError ++ ")"
      return .outcomeAmbiguous generation cause
  | .ok () =>
    match ← attempt (markCommitted generation hadCurrent) with
    | .error error =>
      let cause := "commit-marker transition failed after pointer update; " ++
        "outcome is unconfirmed: " ++ error
      return .outcomeAmbiguous generation cause
    | .ok () =>
      match ← attempt (clearCommitted generation) with
      | .error cause => return .committedWithCleanupPending generation cause
      | .ok () => return .committed generation

def commitPointer (generation : GenerationId) (hadCurrent : Bool) :
    Run GenerationPublicationOutcome := do
  stagePointer generation hadCurrent
  switchPointer generation hadCurrent
  concludeSwitch generation hadCurrent

def commitExistingPointerLocked (generation : GenerationId) : Run GenerationPublicationOutcome :=
  commitPointer generation true

def stageTree (publication : GenerationPublication) (generation : GenerationId) : Run Unit := do
  let staging := stagingName generation
  issue (.mkdir staging [])
  forM publication.outputs fun output => writeOutput staging output.1 output.2
  let receipt := publication.receipt generation
  writeSyncedFile (.tree staging [ascii "receipt"]) receipt
  let manifest := publication.manifest generation receipt
  writeSyncedFile (.tree staging [ascii "manifest"]) manifest
  writeSyncedFile (.tree staging [ascii "seal"]) (digestHex manifest ++ [lf])
  issue (.syncTree staging [])

def publishGenerationLocked (publication : GenerationPublication) (generation : GenerationId)
    (order : PublicationOrder) (hadCurrent : Bool) : Run GenerationPublicationOutcome := do
  stageTree publication generation
  replacePublicationOrder order
  issue (.rename .generations (stagingName generation) generation.text)
  issue (.sync .generations)
  commitPointer generation hadCurrent

/-- The first of the drawn identities that no generation and no sequence uses. -/
def allocate (nextId : ℕ → Except String GenerationId) (order : PublicationOrder)
    (generations : Map Bytes Tree) : ℕ → ℕ → Except String (Option GenerationId)
  | 0, _ => .ok none
  | attempts + 1, drawn => do
    let candidate ← nextId drawn
    if order.sequences.containsKey candidate ∨ candidate.text ∈ generations then
      allocate nextId order generations attempts (drawn + 1)
    else return some candidate

def publishAllocatedLocked (publication : GenerationPublication) (hadCurrent : Bool)
    (order : PublicationOrder) (nextId : ℕ → Except String GenerationId) :
    Run GenerationPublicationOutcome := do
  let (sequence, order) ← order.reserve
  replacePublicationOrder order
  let store ← view
  let candidate ← allocate nextId order store.generations 64 0
  let generation ← okOr candidate "generation id collision retry limit exhausted"
  check (!order.sequences.containsKey generation) "generation already has a publication sequence"
  publishGenerationLocked publication generation
    { order with sequences := order.sequences.insert generation sequence } hadCurrent

def publish (capture : Except String GenerationPublication)
    (nextId : ℕ → Except String GenerationId) : Run GenerationPublicationOutcome := do
  let store ← view
  let inventory ← store.inspectPointerJournals
  cleanStaging
  cleanPointerStaging inventory
  cleanPublicationOrderStaging
  let store ← view
  let hadCurrent ← store.validateCurrentOrPristine
  let order ← store.loadPublicationOrder
  store.validatePublicationOrderComplete order
  let publication ← capture
  publishAllocatedLocked publication hadCurrent order nextId

/-- Retain a valid current generation or publish exactly once from pristine state. -/
def ensureCurrent (capture : Except String GenerationPublication)
    (nextId : ℕ → Except String GenerationId) : Run GenerationPublicationOutcome := do
  let store ← view
  let inventory ← store.inspectPointerJournals
  match inventory.state, inventory.current with
  | .clean, some current | .cleanupCommitted _ _, some current => do
    store.validateGeneration current
    return .committed current
  | .clean, none => do
    store.validatePristineBootstrapState
    let order ← store.loadPublicationOrder
    let publication ← capture
    publishAllocatedLocked publication false order nextId
  | .cleanupCommitted _ _, none => throw "absent current has pending recovery evidence"
  | _, _ => throw "pointer transaction requires exclusive recovery"

def rollback (generation : GenerationId) : Run GenerationPublicationOutcome := do
  let store ← view
  let inventory ← store.inspectPointerJournals
  store.validateGeneration generation
  cleanPointerStaging inventory
  let store ← view
  let current ← store.resolveCurrent
  if current = generation then return .committed generation
  else commitExistingPointerLocked generation

end Realm.Theme
