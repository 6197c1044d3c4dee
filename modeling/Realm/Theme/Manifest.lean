import Mathlib.Data.List.Infix
import Realm.Lib.Map
import Realm.Theme.Encoding

/-!
# Generation trees and their manifests

A generation is a directory tree with the rendered outputs and three records: the
receipt names the inputs it was rendered from, the manifest lists the outputs with
their digests, and the seal is the digest of the manifest.  A tree is valid when
its records agree with each other and with every file in it, and it holds nothing
else.  SHA-256 is a function from bytes to 64 lowercase hexadecimal digits about
which nothing else is assumed.
-/

namespace Realm.Theme

open Text

/-! ## Digests and output paths -/

def sha256Digest (value : Bytes) : Bool := value.length = 64 && value.all isLowerHex

/-- The digest function, as its hexadecimal text. -/
class Sha256 where
  digestHex : Bytes → Bytes
  digestHex_valid : ∀ bytes, sha256Digest (digestHex bytes) = true

export Sha256 (digestHex digestHex_valid)

def components (path : Bytes) : List Bytes := path.splitOn slash

def joinPath (path : List Bytes) : Bytes := [slash].intercalate path

/-- The directories that lead to a file, given by their components. -/
def leadingDirectories (path : List Bytes) : List (List Bytes) :=
  path.inits.filter fun directory => directory ≠ [] ∧ directory ≠ path

def isPathByte (b : Byte) : Bool :=
  (65 ≤ b && b ≤ 90) || (97 ≤ b && b ≤ 122) || isDigit b || b ∈ ascii "._-/"

def reservedComponents : List Bytes :=
  [ascii ".", ascii "..", ascii "manifest", ascii "receipt", ascii "seal", ascii "activation.lock"]

def safeOutputPath (path : Bytes) : Bool :=
  path ≠ [] && path.all isPathByte && path.head? ≠ some slash && path.getLast? ≠ some slash &&
    ¬ [slash, slash] <:+: path && (components path).all fun component =>
      component ∉ reservedComponents && ¬ ascii ".staging-" <+: component

/-! ## Publications -/

/-- An output lies where a directory leading to this path would. -/
def collides (outputs : List (Bytes × Bytes)) (path : Bytes) : Bool :=
  outputs.any fun output => components output.1 ∈ leadingDirectories (components path)

/-- Captured inputs and rendered outputs for one immutable generation.  A value is
made by `GenerationPublication.new` alone, so it carries what that checks. -/
structure GenerationPublication where
  inputDigests : List Bytes
  outputs : List (Bytes × Bytes)
  digests_length : inputDigests.length = 5
  digests_valid : ∀ digest ∈ inputDigests, sha256Digest digest = true
  outputs_ne_nil : outputs ≠ []
  outputs_sorted : outputs.Pairwise fun a b => a.1 < b.1
  outputs_safe : ∀ output ∈ outputs, safeOutputPath output.1 = true
  outputs_apart : ∀ output ∈ outputs, collides outputs output.1 = false

def digestNames : List String :=
  ["palette-sha256", "catalogue-sha256", "templates-sha256", "renderer-sha256",
    "launch-profile-sha256"]

/-- The receipt of a generation rendered from inputs with these digests. -/
def receiptText (generation : GenerationId) (inputDigests : List Bytes) : Bytes :=
  unlines (ascii "realm-generation-receipt-v1" :: recordLine "generation" generation.text ::
    List.zipWith recordLine digestNames inputDigests)

def outputLine (path digest : Bytes) : Bytes := ascii "output " ++ path ++ [space] ++ digest

namespace GenerationPublication

def checkOutputs (outputs : List (Bytes × Bytes)) : Except String Unit :=
  forM outputs fun output => do
    check (safeOutputPath output.1) "unsafe generation output path"
    check (!collides outputs output.1) "generation output paths collide"

theorem checkOutputs_eq_ok {outputs : List (Bytes × Bytes)} {u : Unit} :
    checkOutputs outputs = .ok u ↔
      ∀ output ∈ outputs, safeOutputPath output.1 = true ∧ collides outputs output.1 = false := by
  simp only [checkOutputs, Guard.forM_eq_ok, Guard.bind_eq_ok, check_eq_ok,
    Bool.not_eq_true', exists_const]

/-- Validate captured generation inputs before touching the generation tree. -/
def new (inputDigests : List Bytes) (h : inputDigests.length = 5)
    (outputs : List (Bytes × Bytes)) : Except String GenerationPublication :=
  let outputs := outputs.mergeSort fun a b => a.1 ≤ b.1
  if hdigests : ∀ digest ∈ inputDigests, sha256Digest digest = true then
    if hne : outputs ≠ [] then
      if hsorted : outputs.Pairwise fun a b => a.1 < b.1 then
        match hcheck : checkOutputs outputs with
        | .ok _ => .ok
            { inputDigests, outputs, digests_length := h, digests_valid := hdigests
              outputs_ne_nil := hne, outputs_sorted := hsorted
              outputs_safe := fun output ho => (checkOutputs_eq_ok.mp hcheck output ho).1
              outputs_apart := fun output ho => (checkOutputs_eq_ok.mp hcheck output ho).2 }
        | .error e => .error e
      else .error "generation output paths collide"
    else .error "generation publication requires an output"
  else .error "generation input digest must be lowercase SHA-256 hex"

variable [Sha256] (publication : GenerationPublication) (generation : GenerationId)

def receipt : Bytes := receiptText generation publication.inputDigests

def entries : List (Bytes × Bytes) :=
  publication.outputs.map fun output => (output.1, digestHex output.2)

def manifestLines (receipt : Bytes) : List Bytes :=
  ascii "realm-generation-manifest-v1" :: recordLine "generation" generation.text ::
    (List.zipWith recordLine digestNames publication.inputDigests ++
      recordLine "receipt-sha256" (digestHex receipt) ::
      publication.entries.map fun entry => outputLine entry.1 entry.2)

def manifest (receipt : Bytes) : Bytes := unlines (publication.manifestLines generation receipt)

end GenerationPublication

/-! ## Manifests -/

/-- One validated canonical manifest. -/
structure Manifest where
  entries : List (Bytes × Bytes)
  generation : GenerationId
  inputDigests : List Bytes
  receiptDigest : Bytes
  raw : Bytes

namespace Manifest

/-- The digest on the record `name` of the next line. -/
def digestValue (name : String) (lines : List Bytes) : Except String (Bytes × List Bytes) := do
  let (digest, rest) ← recordValue name lines
  check (sha256Digest digest) "manifest digest must be lowercase SHA-256 hex"
  return (digest, rest)

/-- The digests on the records with these names. -/
def digestValues : List String → List Bytes → Except String (List Bytes × List Bytes)
  | [], lines => .ok ([], lines)
  | name :: names, lines => do
    let (digest, lines) ← digestValue name lines
    let (digests, lines) ← digestValues names lines
    return (digest :: digests, lines)

/-- The outputs listed on the remaining lines, after the path `previous`. -/
def outputEntries : Option Bytes → List Bytes → Except String (List (Bytes × Bytes))
  | _, [] => .ok []
  | previous, line :: lines => do
    let rest ← okOr (stripPrefix (ascii "output ") line) "unexpected manifest record"
    let (path, digest) ← okOr (splitOnce space rest) "output record lacks digest"
    check (path ≠ [] ∧ safeOutputPath path ∧ sha256Digest digest) "unsafe manifest output record"
    check (previous.all (· < path)) "manifest paths must be unique and sorted"
    let entries ← outputEntries (some path) lines
    return (path, digest) :: entries

def parse (input : Bytes) : Except String Manifest := do
  check (cr ∉ input ∧ input.getLast? = some lf) "v1 manifest must use LF-terminated lines"
  let lines := lines input
  check (lines.head? = some (ascii "realm-generation-manifest-v1")) "unsupported manifest version"
  let (value, lines) ← recordValue "generation" lines.tail
  let generation ← GenerationId.parse value
  let (inputDigests, lines) ← digestValues digestNames lines
  let (receiptDigest, lines) ← digestValue "receipt-sha256" lines
  let entries ← outputEntries none lines
  check (entries ≠ []) "v1 manifest requires an output record"
  return ⟨entries, generation, inputDigests, receiptDigest, input⟩

end Manifest

/-! ## Trees -/

/-- What lies at a path of a generation tree. -/
inductive Node where
  | file (bytes : Bytes)
  | directory
  | other
  deriving DecidableEq

/-- A directory tree, by the paths of its entries; the empty path is the directory
itself, so it is always there. -/
structure Tree where
  entries : Map (List Bytes) Node
  rooted : [] ∈ entries

namespace Tree

def lookup (tree : Tree) (path : List Bytes) : Option Node := tree.entries.lookup path

def insert (tree : Tree) (path : List Bytes) (node : Node) : Tree where
  entries := tree.entries.insert path node
  rooted := AList.mem_insert _ |>.mpr (Or.inr tree.rooted)

def erase (tree : Tree) (path : List Bytes) (below : path ≠ []) : Tree where
  entries := tree.entries.erase path
  rooted := AList.mem_erase.mpr ⟨fun h => below h.symm, tree.rooted⟩

theorem lookup_insert (tree : Tree) (path path' : List Bytes) (node : Node) :
    (tree.insert path node).lookup path' = if path' = path then some node else tree.lookup path' :=
  Map.lookup_insert_eq tree.entries path path' node

theorem lookup_erase (tree : Tree) (path path' : List Bytes) (below : path ≠ []) :
    (tree.erase path below).lookup path' = if path' = path then none else tree.lookup path' :=
  Map.lookup_erase_eq tree.entries path path'

theorem exists_lookup_nil (tree : Tree) : ∃ node, tree.lookup [] = some node :=
  Map.mem_iff_lookup.mp tree.rooted

def readRegularBytes (tree : Tree) (path : List Bytes) : Except String Bytes :=
  match tree.lookup path with
  | some (.file bytes) => .ok bytes
  | some _ => .error "manifest target is not a regular file"
  | none => .error "manifest target is absent"

/-- One entry below the root is a listed regular file or a directory that leads to
one. -/
def validateEntry (files directories : List Bytes) (path : List Bytes) (node : Node) :
    Except String Unit := do
  check (path.all isUtf8) "non-UTF-8 tree entry"
  if joinPath path ∈ files then
    check (node matches .file _) "sealed tree contains a non-regular listed file"
  else if joinPath path ∈ directories then
    check (node matches .directory) "Not a directory (os error 20)"
  else .error "sealed tree contains an unlisted entry"

def validateDirectoryEntries (files directories : List Bytes) (tree : Tree) :
    Except String Unit :=
  forM tree.entries.entries fun entry =>
    if entry.1 = [] then .ok () else validateEntry files directories entry.1 entry.2

def validateV1Tree (tree : Tree) (entries : List (Bytes × Bytes)) : Except String Unit :=
  let files := ascii "manifest" :: ascii "receipt" :: ascii "seal" :: entries.map (·.1)
  let directories := entries.flatMap fun entry =>
    (leadingDirectories (components entry.1)).map joinPath
  validateDirectoryEntries files directories tree

variable [Sha256]

def verifyV1Metadata (tree : Tree) (generation : GenerationId) (manifest : Manifest) :
    Except String Unit := do
  check (generation = manifest.generation)
    "generation directory does not match manifest identity"
  let bytes ← tree.readRegularBytes [ascii "manifest"]
  check (bytes = manifest.raw) "manifest bytes changed after parsing"
  let receipt ← tree.readRegularBytes [ascii "receipt"]
  check (digestHex receipt = manifest.receiptDigest) "receipt digest mismatch"
  check (receipt = receiptText manifest.generation manifest.inputDigests)
    "receipt does not match manifest inputs"
  let sealed ← tree.readRegularBytes [ascii "seal"]
  check (sealed = digestHex manifest.raw ++ [lf]) "manifest seal mismatch"

def verifyDigests (tree : Tree) (entries : List (Bytes × Bytes)) : Except String Unit :=
  forM entries fun entry => do
    let bytes ← tree.readRegularBytes (components entry.1)
    check (digestHex bytes = entry.2) "manifest digest mismatch"

def verifyOpened (tree : Tree) (generation : GenerationId) (manifest : Manifest) :
    Except String Unit := do
  tree.verifyV1Metadata generation manifest
  tree.validateV1Tree manifest.entries
  tree.verifyDigests manifest.entries

def verifyOpenedGeneration (tree : Tree) (generation : GenerationId) : Except String Manifest := do
  let bytes ← tree.readRegularBytes [ascii "manifest"]
  check (isUtf8 bytes) "manifest is not UTF-8"
  let manifest ← Manifest.parse bytes
  tree.verifyOpened generation manifest
  return manifest

end Tree

end Realm.Theme
