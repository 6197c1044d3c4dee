import Realm.Lib.Program
import Realm.Theme.Manifest

/-!
# The generation store on disk

The store is a directory with three parts: the root, which holds the pointer
`current`, the publication order and the journals of an unfinished pointer change;
`generations`, with one tree per generation and the trees being staged; and
`leases`.  This module has the state, the filesystem calls the store makes and the
checks it makes by reading alone: the inventory of pointer journals, the current
generation and the publication order.
-/

namespace Realm.Theme

open Text

/-! ## Files -/

inductive FileType where
  | regularFile
  | directory
  | symlink
  | other
  deriving DecidableEq

/-- An entry of the root or of the leases. -/
structure File where
  fileType : FileType
  uid : ℕ
  mode : ℕ
  bytes : Bytes
  deriving DecidableEq

/-- The store as a process sees it. -/
structure Store where
  uid : ℕ
  root : Map Bytes File
  generations : Map Bytes Tree
  leases : Map Bytes File

/-- The three directories the store holds open. -/
inductive Shelf where
  | root
  | generations
  | leases
  deriving DecidableEq

/-- A file: in the root, a lease, or at a path of the tree `generations/name`. -/
inductive Place where
  | root (name : Bytes)
  | lease (name : Bytes)
  | tree (name : Bytes) (path : List Bytes)
  deriving DecidableEq

/-- The calls that change the store or wait for the disk.  A write is one call per
byte, so a process may die with any part of it done. -/
inductive Call where
  | create (place : Place)
  | append (place : Place) (byte : Byte)
  | unlink (place : Place)
  | mkdir (name : Bytes) (path : List Bytes)
  | rmdir (name : Bytes) (path : List Bytes)
  | rename (shelf : Shelf) (source target : Bytes)
  | exchange (shelf : Shelf) (left right : Bytes)
  | syncFile (place : Place)
  | syncTree (name : Bytes) (path : List Bytes)
  | sync (shelf : Shelf)
  deriving DecidableEq

namespace Errno

def noEntry : String := "No such file or directory (os error 2)"

def exist : String := "File exists (os error 17)"

def notDirectory : String := "Not a directory (os error 20)"

def isDirectory : String := "Is a directory (os error 21)"

def notEmpty : String := "Directory not empty (os error 39)"

end Errno

/-! ## The calls -/

namespace Files

def create (files : Map Bytes File) (uid : ℕ) (name : Bytes) : Except String (Map Bytes File) :=
  if name ∈ files then .error Errno.exist
  else .ok (files.insert name ⟨.regularFile, uid, 0o600, []⟩)

def append (files : Map Bytes File) (name : Bytes) (byte : Byte) :
    Except String (Map Bytes File) :=
  match files.lookup name with
  | some file => .ok (files.insert name { file with bytes := file.bytes ++ [byte] })
  | none => .error Errno.noEntry

def unlink (files : Map Bytes File) (name : Bytes) : Except String (Map Bytes File) :=
  match files.lookup name with
  | some file =>
    if file.fileType = .directory then .error Errno.isDirectory else .ok (files.erase name)
  | none => .error Errno.noEntry

end Files

/-- Give the entry `source` the name `target`, replacing what had it. -/
def renameEntry {V : Type} (replaceable : V → Except String Unit) (entries : Map Bytes V)
    (source target : Bytes) : Except String (Map Bytes V) := do
  let entry ← okOr (entries.lookup source) Errno.noEntry
  whenSome (entries.lookup target) replaceable
  return (entries.erase source).insert target entry

def exchangeEntries {V : Type} (entries : Map Bytes V) (left right : Bytes) :
    Except String (Map Bytes V) := do
  let leftEntry ← okOr (entries.lookup left) Errno.noEntry
  let rightEntry ← okOr (entries.lookup right) Errno.noEntry
  return (entries.insert left rightEntry).insert right leftEntry

/-- A file replaces anything but a directory. -/
def File.replaceable (file : File) : Except String Unit :=
  check (file.fileType ≠ .directory) Errno.isDirectory

namespace Tree

def children (tree : Tree) (path : List Bytes) : List Bytes :=
  tree.entries.keys.filterMap fun key =>
    match key.getLast? with
    | some name => if key.dropLast = path then some name else none
    | none => none

/-- A tree replaces an empty directory only. -/
def replaceable (tree : Tree) : Except String Unit := do
  check (tree.lookup [] = some .directory) Errno.notDirectory
  check (tree.children [] = []) Errno.notEmpty

def emptyDirectory : Tree where
  entries := (∅ : Map (List Bytes) Node).insert [] .directory
  rooted := AList.mem_insert _ |>.mpr (Or.inl rfl)

def requireDirectory (tree : Tree) (path : List Bytes) : Except String Unit :=
  match tree.lookup path with
  | some .directory => .ok ()
  | some _ => .error Errno.notDirectory
  | none => .error Errno.noEntry

/-- Add an entry below an existing directory, at a path that is free. -/
def add (tree : Tree) (path : List Bytes) (node : Node) : Except String Tree := do
  tree.requireDirectory path.dropLast
  if path ∈ tree.entries then .error Errno.exist else .ok (tree.insert path node)

def append (tree : Tree) (path : List Bytes) (byte : Byte) : Except String Tree :=
  match tree.lookup path with
  | some (.file bytes) => .ok (tree.insert path (.file (bytes ++ [byte])))
  | some _ => .error Errno.isDirectory
  | none => .error Errno.noEntry

def unlinkable (tree : Tree) (path : List Bytes) : Except String Unit :=
  match tree.lookup path with
  | some .directory => .error Errno.isDirectory
  | some _ => .ok ()
  | none => .error Errno.noEntry

def removable (tree : Tree) (path : List Bytes) : Except String Unit :=
  match tree.lookup path with
  | some .directory => check (tree.children path = []) Errno.notEmpty
  | some _ => .error Errno.notDirectory
  | none => .error Errno.noEntry

end Tree

namespace Store

def tree (store : Store) (name : Bytes) : Except String Tree :=
  okOr (store.generations.lookup name) Errno.noEntry

def setTree (store : Store) (name : Bytes) (tree : Tree) : Store :=
  { store with generations := store.generations.insert name tree }

/-- Take away the entry at a path of a tree; the empty path takes the whole tree. -/
def eraseAt (store : Store) (name : Bytes) (tree : Tree) (path : List Bytes) : Store :=
  if below : path ≠ [] then store.setTree name (tree.erase path below)
  else { store with generations := store.generations.erase name }

def exec : Call → Store → Except String Store
  | .create (.root name), store =>
    (Files.create store.root store.uid name).map fun root => { store with root }
  | .create (.lease name), store =>
    (Files.create store.leases store.uid name).map fun leases => { store with leases }
  | .create (.tree name path), store => do
    let tree ← store.tree name
    let tree ← tree.add path (.file [])
    return store.setTree name tree
  | .append (.root name) byte, store =>
    (Files.append store.root name byte).map fun root => { store with root }
  | .append (.lease name) byte, store =>
    (Files.append store.leases name byte).map fun leases => { store with leases }
  | .append (.tree name path) byte, store => do
    let tree ← store.tree name
    let tree ← tree.append path byte
    return store.setTree name tree
  | .unlink (.root name), store =>
    (Files.unlink store.root name).map fun root => { store with root }
  | .unlink (.lease name), store =>
    (Files.unlink store.leases name).map fun leases => { store with leases }
  | .unlink (.tree name path), store => do
    let tree ← store.tree name
    tree.unlinkable path
    return store.eraseAt name tree path
  | .mkdir name [], store =>
    if name ∈ store.generations then .error Errno.exist
    else .ok (store.setTree name Tree.emptyDirectory)
  | .mkdir name path, store => do
    let tree ← store.tree name
    let tree ← tree.add path .directory
    return store.setTree name tree
  | .rmdir name path, store => do
    let tree ← store.tree name
    tree.removable path
    return store.eraseAt name tree path
  | .rename .root source target, store =>
    (renameEntry File.replaceable store.root source target).map fun root => { store with root }
  | .rename .generations source target, store =>
    (renameEntry Tree.replaceable store.generations source target).map
      fun generations => { store with generations }
  | .rename .leases source target, store =>
    (renameEntry File.replaceable store.leases source target).map
      fun leases => { store with leases }
  | .exchange .root left right, store =>
    (exchangeEntries store.root left right).map fun root => { store with root }
  | .exchange .generations left right, store =>
    (exchangeEntries store.generations left right).map
      fun generations => { store with generations }
  | .exchange .leases left right, store =>
    (exchangeEntries store.leases left right).map fun leases => { store with leases }
  | .syncFile _, store => .ok store
  | .syncTree _ _, store => .ok store
  | .sync _, store => .ok store

theorem exec_syncFile (place : Place) (store : Store) : exec (.syncFile place) store = .ok store :=
  rfl

theorem exec_syncTree (name : Bytes) (path : List Bytes) (store : Store) :
    exec (.syncTree name path) store = .ok store := rfl

theorem exec_sync (shelf : Shelf) (store : Store) : exec (.sync shelf) store = .ok store := rfl

end Store

/-! ## Names in the root -/

def currentName : Bytes := ascii "current"

def publicationOrderName : Bytes := ascii "publication-order"

def orderStagingName : Bytes := ascii ".publication-order"

def stagingPrefix : Bytes := ascii ".staging-"

/-- The three kinds of pointer journal. -/
inductive JournalKind where
  | current
  | absent
  | committed
  deriving DecidableEq

namespace JournalKind

def start : JournalKind → Bytes
  | current => ascii ".current-"
  | absent => ascii ".absent-"
  | committed => ascii ".committed-"

def name (kind : JournalKind) (generation : GenerationId) : Bytes := kind.start ++ generation.text

end JournalKind

def stagingName (generation : GenerationId) : Bytes := stagingPrefix ++ generation.text

/-! ## Reading -/

structure PointerJournalEntry where
  kind : JournalKind
  name : Bytes
  suffix : GenerationId
  content : Option GenerationId

inductive PointerJournalState where
  | clean
  | discardCurrent (name : Bytes)
  | rollbackCurrent (name : Bytes)
  | rollbackAbsent (name : Bytes)
  | discardPristine (currentName absentName : Bytes)
  | cleanupCommitted (name : Bytes) (previous : Option GenerationId)

structure PointerJournalInventory where
  current : Option GenerationId
  state : PointerJournalState

def File.readRegular (file : File) : Except String Bytes :=
  if file.fileType = .regularFile then .ok file.bytes
  else .error "manifest target is not a regular file"

/-- The content of a file that may be absent. -/
def readOptionalRegularBytes (files : Map Bytes File) (name : Bytes) :
    Except String (Option Bytes) :=
  match files.lookup name with
  | some file => file.readRegular.map some
  | none => .ok none

/-- An entry with the type, the mode and the owner it should have. -/
def validateOwnedMode (name : String) (file : File) (expectedType : FileType)
    (expectedMode uid : ℕ) : Except String Unit := do
  check (file.fileType = expectedType) (name ++ " has an unsafe file type")
  check (file.uid = uid) (name ++ " is not owned by the current user")
  check (file.mode = expectedMode) (name ++ " has unsafe permissions")

/-- Whether a private control file is there. -/
def validateOptionalControl (store : Store) (label : String) (name : Bytes) :
    Except String Bool :=
  match store.root.lookup name with
  | some file => do
    validateOwnedMode label file .regularFile 0o600 store.uid
    return true
  | none => .ok false

/-- Which kind of journal a root entry is by its name. -/
def journalKind (name : Bytes) : Option JournalKind :=
  if ascii ".current-" <+: name then some .current
  else if ascii ".absent-" <+: name then some .absent
  else if ascii ".committed-" <+: name then some .committed
  else none

def JournalKind.label : JournalKind → String
  | .current => "current"
  | .absent => "absent"
  | .committed => "committed"

/-- The generation a journal file holds, by its kind: the pointer staged or replaced,
nothing, or the pointer replaced if there was one. -/
def journalContent (kind : JournalKind) (record : Bytes) : Except String (Option GenerationId) :=
  match kind with
  | .current => (parsePointerRecord record "current journal").map some
  | .absent =>
    if record = [] then .ok none else .error "absent-pointer marker is malformed"
  | .committed =>
    if record = [] then .ok none else (parsePointerRecord record "committed journal").map some

def readJournal (kind : JournalKind) (name : Bytes) (file : File) :
    Except String PointerJournalEntry := do
  check (isUtf8 name) ("reserved " ++ kind.label ++ " journal name is not UTF-8")
  let suffix ← GenerationId.parse (name.drop kind.start.length)
  let record ← file.readRegular
  let content ← journalContent kind record
  return ⟨kind, name, suffix, content⟩

namespace Store

variable (store : Store)

def journalFiles : List (JournalKind × Bytes × File) :=
  store.root.entries.filterMap fun entry =>
    (journalKind entry.1).map fun kind => (kind, entry.1, entry.2)

def readJournals : Except String (List PointerJournalEntry) :=
  store.journalFiles.mapM fun journal => readJournal journal.1 journal.2.1 journal.2.2

def readCurrent : Except String (Option GenerationId) := do
  let bytes ← readOptionalRegularBytes store.root currentName
  match bytes with
  | some bytes => (parsePointerRecord bytes "current").map some
  | none => .ok none

variable [Sha256]

/-- The tree of a generation is complete and sealed. -/
def validateGeneration (generation : GenerationId) : Except String Unit := do
  let tree ← store.tree generation.text
  check (tree.lookup [] = some .directory) Errno.notDirectory
  (tree.verifyOpenedGeneration generation).map fun _ => ()

/-- What the journals say about an unfinished pointer change. -/
def classifyJournals (current : Option GenerationId) (journals : List PointerJournalEntry) :
    Except String PointerJournalState :=
  match journals.filter (·.kind = .current), journals.filter (·.kind = .absent),
    journals.filter (·.kind = .committed) with
  | [], [], [] => .ok .clean
  | [journal], [], [] =>
    match decide (current = some journal.suffix),
        decide (journal.content = some journal.suffix) with
    | false, true => do
      store.validateGeneration journal.suffix
      return .discardCurrent journal.name
    | true, false => do
      let staged ← okOr journal.content "current journal has content"
      store.validateGeneration staged
      return .rollbackCurrent journal.name
    | _, _ => .error "current journal is inconsistent with current"
  | [], [journal], [] => do
    check (current = some journal.suffix) "absent journal is inconsistent with current"
    store.validateGeneration journal.suffix
    return .rollbackAbsent journal.name
  | [currentJournal], [absentJournal], [] => do
    check (current = none ∧ currentJournal.suffix = absentJournal.suffix ∧
        currentJournal.content = some currentJournal.suffix)
      "pristine pointer journals are inconsistent"
    store.validateGeneration currentJournal.suffix
    return .discardPristine currentJournal.name absentJournal.name
  | [], [], [journal] => do
    check (current = some journal.suffix ∧ journal.content ≠ some journal.suffix)
      "committed journal is inconsistent with current"
    store.validateGeneration journal.suffix
    whenSome journal.content store.validateGeneration
    return .cleanupCommitted journal.name journal.content
  | _, _, _ => .error "pointer journal inventory is contradictory"

def inspectPointerJournals : Except String PointerJournalInventory := do
  let journals ← store.readJournals
  let current ← store.readCurrent
  whenSome current store.validateGeneration
  let state ← store.classifyJournals current journals
  return ⟨current, state⟩

def resolveCurrent : Except String GenerationId := do
  let bytes ← readOptionalRegularBytes store.root currentName
  let bytes ← okOr bytes "current generation is absent"
  let generation ← parsePointerRecord bytes "current"
  store.validateGeneration generation
  return generation

def loadPublicationOrder : Except String PublicationOrder := do
  let present ← validateOptionalControl store "publication-order" publicationOrderName
  check present "publication order is absent"
  let raw ← readOptionalRegularBytes store.root publicationOrderName
  let raw ← okOr raw "publication order disappeared while reading"
  PublicationOrder.parse raw

/-- Every entry of `generations` is the directory of a generation with a sequence. -/
def validatePublicationOrderComplete (order : PublicationOrder) : Except String Unit :=
  forM store.generations.entries fun entry => do
    check (isUtf8 entry.1) "generation name is not UTF-8 while validating publication order"
    let generation ← GenerationId.parse entry.1
    check (entry.2.lookup [] = some .directory) "final generation is not a directory"
    check (order.sequences.containsKey generation) "final generation lacks a publication sequence"

/-- Whether there is a current generation; without one every tree must be a valid
generation. -/
def validateCurrentOrPristine : Except String Bool :=
  match store.resolveCurrent with
  | .ok _ => .ok true
  | .error error =>
    if error = "current generation is absent" then do
      forM store.generations.entries fun entry => do
        check (isUtf8 entry.1) "unpointed generation name is not UTF-8"
        let generation ← GenerationId.parse entry.1
        store.validateGeneration generation
      return false
    else .error error

/-- The names a store without any generation may hold in its root. -/
def pristineNames : List Bytes :=
  [ascii "activation.lock", ascii "generations", ascii "leases", publicationOrderName]

def validatePristineBootstrapState : Except String Unit := do
  check (store.root.keys.all (· ∈ pristineNames)) "absent current has retained generation evidence"
  check (store.generations.keys = [] ∧ store.leases.keys = [])
    "absent current has retained generation evidence"
  let order ← store.loadPublicationOrder
  check (order = PublicationOrder.empty) "absent current has retained publication evidence"

end Store

end Realm.Theme
